import AvenOS.Provisioner.MovementRun

/-! # What the directory keeps

What is known of the tables and of each call under way, whatever the others do. -/
namespace AvenOS.Provisioner
open KeyedTable

/-! ## What never changes of a movement -/

structure Route where
  id : String
  environmentId : String
  sourceRuntimeId : String
  destinationRuntimeId : String
  sourceGeneration : ℕ
  destinationGeneration : ℕ
  mode : MovementMode

def Movement.route (movement : Movement) : Route :=
  ⟨movement.id, movement.environmentId, movement.sourceRuntimeId, movement.destinationRuntimeId,
    movement.sourceGeneration, movement.destinationGeneration, movement.mode⟩

/-! ## The tables -/

def Event.publication? : Event → Option Publication
  | .published publication => some publication
  | _ => none

def publications (events : List Event) : List Publication := events.filterMap Event.publication?

theorem publications_append (events more : List Event) :
    publications (events ++ more) = publications events ++ publications more := List.filterMap_append

/-- Where and as what a customer has been published, from the start on. -/
def placements (origin : Environment) (published : List Publication) : List (ℕ × String) :=
  (origin.routingGeneration, origin.runtimeId) ::
    (published.filter fun publication => publication.environmentId = origin.id).map fun publication =>
      (publication.generation, publication.runtimeId)

structure Outcome (publication : Publication) (movement : Movement) : Prop where
  environmentId : publication.environmentId = movement.environmentId
  ended : publication.returning = true ∧ publication.runtimeId = movement.sourceRuntimeId ∧
      movement.phase = .cancelled ∨
    publication.returning = false ∧ publication.runtimeId = movement.destinationRuntimeId ∧
      (movement.phase = .activated ∨ movement.phase = .completed ∨ movement.phase = .superseded)

variable {movement : Movement} {phase next : MovementPhase}

variable {publication : Publication} {d : Directory}

theorem Outcome.not_pending (h : Outcome publication movement) : movement.phase.pending = false := by
  rcases h.ended with ⟨-, -, hphase⟩ | ⟨-, -, hphase | hphase | hphase⟩ <;> rw [hphase] <;> rfl

structure DirectorySound (start d : Directory) (published : List Publication) : Prop where
  environments : Keyed Environment.id d.environments
  movements : Keyed Movement.id d.movements
  environment : ∀ id movement, d.movement? id = some movement →
    ∃ environment, d.environment? movement.environmentId = some environment
  named : ∀ id movement environment, d.movement? id = some movement →
    d.environment? movement.environmentId = some environment →
    (movement.phase.pending = true ↔ environment.movementId = some id)
  target : ∀ environmentId environment id, d.environment? environmentId = some environment →
    environment.movementId = some id →
    ∃ movement, d.movement? id = some movement ∧ movement.environmentId = environmentId
  active : ∀ id other movement movement', d.movement? id = some movement → d.movement? other = some movement' →
    movement.environmentId = movement'.environmentId → movement.phase.active = true →
    movement'.phase.active = true → id = other
  generations : ∀ id movement, d.movement? id = some movement →
    movement.destinationGeneration = movement.sourceGeneration + 1
  placed : ∀ environmentId environment, d.environment? environmentId = some environment →
    ∃ origin, start.environment? environmentId = some origin ∧
      ((placements origin published).map Prod.fst).Pairwise (· < ·) ∧
      (placements origin published).getLast? = some (environment.routingGeneration, environment.runtimeId)
  once : published.map Publication.movementId |>.Nodup
  outcome : ∀ publication ∈ published, ∃ movement, d.movement? publication.movementId = some movement ∧
    Outcome publication movement
  ended : ∀ id movement, d.movement? id = some movement → movement.phase.pending = false →
    ∃ publication ∈ published, publication.movementId = id
  source : ∀ id movement environment, d.movement? id = some movement →
    d.environment? movement.environmentId = some environment → movement.phase.pending = true →
    environment.runtimeId = movement.sourceRuntimeId ∧ environment.routingGeneration = movement.sourceGeneration
  destination : ∀ id movement environment, d.movement? id = some movement →
    d.environment? movement.environmentId = some environment → movement.phase = .activated →
    environment.runtimeId = movement.destinationRuntimeId ∧
      environment.routingGeneration = movement.destinationGeneration

theorem Directory.movement?_id {id : String} (h : d.movement? id = some movement) :
    movement.id = id := (lookup_some h).2

theorem Directory.environment?_id {id : String} {environment : Environment} (h : d.environment? id = some environment) :
    environment.id = id := (lookup_some h).2

theorem found_put {α : Type} {find find' : String → Option α} {id : String} {row : α}
    (hput : ∀ other, find' other = if other = id then some row else find other) {other : String} {found : α}
    (h : find' other = some found) : other = id ∧ row = found ∨ other ≠ id ∧ find other = some found := by
  rw [hput] at h
  split_ifs at h with hid
  · exact .inl ⟨hid, Option.some.inj h⟩
  · exact .inr ⟨hid, h⟩

/-! ## Changes of one movement -/

/-- How the phase of a movement may go on without a publication. -/
inductive PhaseStep : MovementPhase → MovementPhase → Prop
  | same (phase : MovementPhase) : PhaseStep phase phase
  | onward {phase next : MovementPhase} (h : successor phase = some next) : PhaseStep phase next
  | back {phase : MovementPhase} (h : phase.pending = true) : PhaseStep phase .returning
  | supersede : PhaseStep .activated .superseded

theorem PhaseStep.pending (h : PhaseStep phase next) : next.pending = phase.pending := by
  cases h with
  | same => rfl
  | onward h =>
    cases phase <;> cases h <;> rfl
  | back h => rw [h]; rfl
  | supersede => rfl

theorem PhaseStep.active (h : PhaseStep phase next) (hnext : next.active = true) : phase.active = true := by
  cases h with
  | same => exact hnext
  | onward h =>
    cases phase <;> cases h <;> rfl
  | back h => exact MovementPhase.active_of_pending h
  | supersede => rfl

theorem PhaseStep.activated (h : PhaseStep phase next) (hnext : next = .activated) : phase = .activated := by
  cases h with
  | same => exact hnext
  | onward h =>
    rw [hnext] at h
    cases phase <;> cases h
  | back => cases hnext
  | supersede => rfl

theorem PhaseStep.outcome {movement' : Movement} (h : PhaseStep movement.phase movement'.phase)
    (hroute : movement'.route = movement.route) (hold : Outcome publication movement) :
    Outcome publication movement' := by
  have henvironment : movement'.environmentId = movement.environmentId := congrArg Route.environmentId hroute
  have hsource : movement'.sourceRuntimeId = movement.sourceRuntimeId := congrArg Route.sourceRuntimeId hroute
  have hdestination : movement'.destinationRuntimeId = movement.destinationRuntimeId :=
    congrArg Route.destinationRuntimeId hroute
  have hpending := hold.not_pending
  obtain ⟨hplace, hended⟩ := hold
  refine ⟨hplace.trans henvironment.symm, ?_⟩
  rw [hsource, hdestination]
  generalize movement.phase = phase at h hended hpending
  generalize movement'.phase = next at h
  cases h with
  | same => exact hended
  | onward h =>
    rcases hended with ⟨-, -, rfl⟩ | ⟨hback, hruntime, rfl | rfl | rfl⟩ <;> cases h
    exact .inr ⟨hback, hruntime, .inr (.inl rfl)⟩
  | back h =>
    rw [h] at hpending
    cases hpending
  | supersede =>
    rcases hended with ⟨-, -, hphase⟩ | ⟨hback, hruntime, -⟩
    · cases hphase
    · exact .inr ⟨hback, hruntime, .inr (.inr rfl)⟩

section Change
variable {start d : Directory} {published : List Publication} {id : String} {f : Movement → Movement}

def GoesOn (d d' : Directory) : Prop :=
  ∀ id movement, d.movement? id = some movement →
    ∃ next, d'.movement? id = some next ∧ next.route = movement.route

theorem goesOn_self : GoesOn d d := fun _ movement h => ⟨movement, h, rfl⟩

theorem changed_of (hf : ∀ row, (f row).route = row.route)
    (hphase : ∀ row, d.movement? id = some row → PhaseStep row.phase (f row).phase) {other : String}
    {movement : Movement} (h : d.movement? other = some movement) :
    ∃ next, (d.setMovement id f).movement? other = some next ∧ next.route = movement.route ∧
      PhaseStep movement.phase next.phase := by
  rw [Directory.movement?_set fun row => congrArg Route.id (hf row)]
  by_cases hid : other = id
  · rw [if_pos hid]
    rw [hid] at h
    rw [h]
    exact ⟨f movement, rfl, hf movement, hphase movement h⟩
  · rw [if_neg hid]
    exact ⟨movement, h, rfl, .same _⟩

theorem changed_from (hf : ∀ row, (f row).route = row.route)
    (hphase : ∀ row, d.movement? id = some row → PhaseStep row.phase (f row).phase) {other : String}
    {next : Movement} (h : (d.setMovement id f).movement? other = some next) :
    ∃ movement, d.movement? other = some movement ∧ next.route = movement.route ∧
      PhaseStep movement.phase next.phase := by
  rw [Directory.movement?_set fun row => congrArg Route.id (hf row)] at h
  by_cases hid : other = id
  · rw [if_pos hid] at h
    obtain ⟨movement, hmovement, rfl⟩ := Option.map_eq_some_iff.mp h
    exact ⟨movement, hid ▸ hmovement, hf movement, hphase movement hmovement⟩
  · rw [if_neg hid] at h
    exact ⟨next, h, rfl, .same _⟩

theorem goesOn_change (hf : ∀ row, (f row).route = row.route) : GoesOn d (d.setMovement id f) := by
  intro other movement h
  rw [Directory.movement?_set fun row => congrArg Route.id (hf row)]
  by_cases hid : other = id
  · rw [if_pos hid]
    rw [hid] at h
    rw [h]
    exact ⟨f movement, rfl, hf movement⟩
  · rw [if_neg hid]
    exact ⟨movement, h, rfl⟩

theorem DirectorySound.change (h : DirectorySound start d published) (hf : ∀ row, (f row).route = row.route)
    (hphase : ∀ row, d.movement? id = some row → PhaseStep row.phase (f row).phase) :
    DirectorySound start (d.setMovement id f) published where
  environments := h.environments
  movements := h.movements.modify fun row => congrArg Route.id (hf row)
  environment other next hnext := by
    obtain ⟨movement, hmovement, hroute, -⟩ := changed_from hf hphase hnext
    have henvironment : next.environmentId = movement.environmentId := congrArg Route.environmentId hroute
    rw [henvironment]
    exact h.environment other movement hmovement
  named other next environment hnext henvironment := by
    obtain ⟨movement, hmovement, hroute, hstep⟩ := changed_from hf hphase hnext
    have hsame : next.environmentId = movement.environmentId := congrArg Route.environmentId hroute
    rw [hsame] at henvironment
    rw [hstep.pending]
    exact h.named other movement environment hmovement henvironment
  target environmentId environment other henvironment hnamed := by
    obtain ⟨movement, hmovement, hplace⟩ := h.target environmentId environment other henvironment hnamed
    obtain ⟨next, hnext, hroute, -⟩ := changed_of hf hphase hmovement
    have hsame : next.environmentId = movement.environmentId := congrArg Route.environmentId hroute
    exact ⟨next, hnext, hsame.trans hplace⟩
  active one other next next' hnext hnext' hplace hactive hactive' := by
    obtain ⟨movement, hmovement, hroute, hstep⟩ := changed_from hf hphase hnext
    obtain ⟨movement', hmovement', hroute', hstep'⟩ := changed_from hf hphase hnext'
    have hsame : next.environmentId = movement.environmentId := congrArg Route.environmentId hroute
    have hsame' : next'.environmentId = movement'.environmentId := congrArg Route.environmentId hroute'
    exact h.active one other movement movement' hmovement hmovement' (hsame ▸ hsame' ▸ hplace)
      (hstep.active hactive) (hstep'.active hactive')
  generations other next hnext := by
    obtain ⟨movement, hmovement, hroute, -⟩ := changed_from hf hphase hnext
    have hsource : next.sourceGeneration = movement.sourceGeneration := congrArg Route.sourceGeneration hroute
    have hdestination : next.destinationGeneration = movement.destinationGeneration :=
      congrArg Route.destinationGeneration hroute
    rw [hsource, hdestination]
    exact h.generations other movement hmovement
  placed := h.placed
  once := h.once
  outcome publication hpublication := by
    obtain ⟨movement, hmovement, houtcome⟩ := h.outcome publication hpublication
    obtain ⟨next, hnext, hroute, hstep⟩ := changed_of hf hphase hmovement
    exact ⟨next, hnext, hstep.outcome hroute houtcome⟩
  ended other next hnext hover := by
    obtain ⟨movement, hmovement, -, hstep⟩ := changed_from hf hphase hnext
    exact h.ended other movement hmovement (hstep.pending.symm.trans hover)
  source other next environment hnext henvironment hpending := by
    obtain ⟨movement, hmovement, hroute, hstep⟩ := changed_from hf hphase hnext
    have hsame : next.environmentId = movement.environmentId := congrArg Route.environmentId hroute
    have hplace := h.source other movement environment hmovement (hsame ▸ henvironment)
      (hstep.pending.symm.trans hpending)
    exact ⟨hplace.1.trans (congrArg Route.sourceRuntimeId hroute).symm,
      hplace.2.trans (congrArg Route.sourceGeneration hroute).symm⟩
  destination other next environment hnext henvironment hactivated := by
    obtain ⟨movement, hmovement, hroute, hstep⟩ := changed_from hf hphase hnext
    have hsame : next.environmentId = movement.environmentId := congrArg Route.environmentId hroute
    have hplace := h.destination other movement environment hmovement (hsame ▸ henvironment)
      (hstep.activated hactivated)
    exact ⟨hplace.1.trans (congrArg Route.destinationRuntimeId hroute).symm,
      hplace.2.trans (congrArg Route.destinationGeneration hroute).symm⟩

end Change

/-! ## A new movement -/

section Insert
variable {start d inserted : Directory} {published : List Publication} {input : BeginInput}

theorem insertMovement_ok (h : d.insertMovement input = .ok inserted) : d.movement? input.id = none ∧
      (∀ row ∈ d.movements, row.environmentId = input.environmentId → row.phase.active = false) ∧
      inserted = { d with movements := d.movements ++ [Directory.newMovement input] } := by
  unfold Directory.insertMovement at h
  split_ifs at h with hknown hhome hcheck hactive
  refine ⟨Option.not_isSome_iff_eq_none.mp hknown, fun row hrow hplace => ?_, (Except.ok.inj h).symm⟩
  by_contra hphase
  exact hactive (List.any_eq_true.mpr ⟨row, hrow, decide_eq_true ⟨hplace, by
    cases hactive' : row.phase.active with
    | true => rfl
    | false => exact absurd hactive' hphase⟩⟩)

theorem movement?_insert (hnew : d.movement? input.id = none) (other : String) :
    Directory.movement? { d with movements := d.movements ++ [Directory.newMovement input] } other =
      if other = input.id then some (Directory.newMovement input) else d.movement? other := by
  unfold Directory.movement? lookup
  rw [List.find?_append]
  by_cases hid : other = input.id
  · rw [if_pos hid, hid]
    change (d.movement? input.id).or _ = _
    rw [hnew, Option.none_or, List.find?_singleton]
    exact if_pos (decide_eq_true rfl)
  · rw [if_neg hid, List.find?_singleton, if_neg (fun hkey => hid (of_decide_eq_true hkey).symm), Option.or_none]

variable {environment : Environment}

theorem DirectorySound.grow (h : DirectorySound start d published) {d' : Directory}
    (hhome : d.environment? input.environmentId = some environment) (hplaceable : placeable input environment = true)
    (hnew : d.movement? input.id = none)
    (hquiet : ∀ row ∈ d.movements, row.environmentId = input.environmentId → row.phase.active = false)
    (henvironments : Keyed Environment.id d'.environments) (hmovements : Keyed Movement.id d'.movements)
    (hfind : ∀ id, d'.movement? id = if id = input.id then some (Directory.newMovement input) else d.movement? id)
    (hrow : ∀ id, d'.environment? id = if id = input.environmentId then
      some { environment with movementId := some input.id } else d.environment? id) :
    DirectorySound start d' published := by
  have hinactive : ∀ id movement, d.movement? id = some movement →
      movement.environmentId = input.environmentId → movement.phase.active = false :=
    fun id movement hmovement => hquiet movement (lookup_some hmovement).1
  have hnot : ∀ id movement, d.movement? id = some movement → id ≠ input.id := by
    intro id movement hmovement hid
    rw [hid, hnew] at hmovement
    cases hmovement
  -- the new movement at its customer, a quiet one at the same customer, or what was there
  have hpair : ∀ id movement other, d'.movement? id = some movement →
      d'.environment? movement.environmentId = some other →
      id = input.id ∧ Directory.newMovement input = movement ∧
        { environment with movementId := some input.id } = other ∨
      id ≠ input.id ∧ movement.phase.active = false ∧
        { environment with movementId := some input.id } = other ∨
      d.movement? id = some movement ∧ d.environment? movement.environmentId = some other := by
    intro id movement other hmovement hother
    obtain ⟨hid, rfl⟩ | ⟨hid, hmovement⟩ := found_put hfind hmovement
    · obtain ⟨-, hhere⟩ | ⟨haway, -⟩ := found_put hrow hother
      · exact .inl ⟨hid, rfl, hhere⟩
      · exact absurd rfl haway
    · obtain ⟨hplace, hhere⟩ | ⟨-, hother⟩ := found_put hrow hother
      · exact .inr (.inl ⟨hid, hinactive id movement hmovement hplace, hhere⟩)
      · exact .inr (.inr ⟨hmovement, hother⟩)
  constructor
  · exact henvironments
  · exact hmovements
  · intro id movement hmovement
    rw [hrow]
    by_cases hplace : movement.environmentId = input.environmentId
    · exact ⟨_, if_pos hplace⟩
    · rw [if_neg hplace]
      obtain ⟨-, rfl⟩ | ⟨-, hmovement⟩ := found_put hfind hmovement
      · exact absurd rfl hplace
      · exact h.environment id movement hmovement
  · intro id movement other hmovement hother
    obtain ⟨rfl, rfl, rfl⟩ | ⟨hid, hphase, rfl⟩ | ⟨hmovement, hother⟩ := hpair id movement other hmovement hother
    · exact ⟨fun _ => rfl, fun _ => rfl⟩
    · refine ⟨fun hpending => ?_, fun hnamed => absurd (Option.some.inj hnamed).symm hid⟩
      rw [MovementPhase.active_of_pending hpending] at hphase
      cases hphase
    · exact h.named id movement other hmovement hother
  · intro environmentId other id hother hnamed
    rw [hfind]
    obtain ⟨hplace, rfl⟩ | ⟨-, hother⟩ := found_put hrow hother
    · cases hnamed
      exact ⟨_, if_pos rfl, hplace.symm⟩
    · obtain ⟨movement, hmovement, hsame⟩ := h.target environmentId other id hother hnamed
      rw [if_neg (hnot id movement hmovement)]
      exact ⟨movement, hmovement, hsame⟩
  · intro one other movement movement' hone hother hplace hactive hactive'
    obtain ⟨hid, rfl⟩ | ⟨-, hone⟩ := found_put hfind hone <;>
      obtain ⟨hid', rfl⟩ | ⟨-, hother⟩ := found_put hfind hother
    · exact hid.trans hid'.symm
    · rw [hinactive other movement' hother hplace.symm] at hactive'
      cases hactive'
    · rw [hinactive one movement hone hplace] at hactive
      cases hactive
    · exact h.active one other movement movement' hone hother hplace hactive hactive'
  · intro id movement hmovement
    obtain ⟨-, rfl⟩ | ⟨-, hmovement⟩ := found_put hfind hmovement
    · rfl
    · exact h.generations id movement hmovement
  · intro environmentId other hother
    obtain ⟨rfl, rfl⟩ | ⟨-, hother⟩ := found_put hrow hother
    · exact h.placed _ environment hhome
    · exact h.placed environmentId other hother
  · exact h.once
  · intro publication hpublication
    obtain ⟨movement, hmovement, houtcome⟩ := h.outcome publication hpublication
    refine ⟨movement, ?_, houtcome⟩
    rw [hfind, if_neg (hnot _ movement hmovement)]
    exact hmovement
  · intro id movement hmovement hover
    obtain ⟨-, rfl⟩ | ⟨-, hmovement⟩ := found_put hfind hmovement
    · cases hover
    · exact h.ended id movement hmovement hover
  · intro id movement other hmovement hother hpending
    obtain ⟨-, rfl, rfl⟩ | ⟨-, hphase, -⟩ | ⟨hmovement, hother⟩ := hpair id movement other hmovement hother
    · obtain ⟨hruntime, hgeneration, -⟩ := of_decide_eq_true hplaceable
      exact ⟨hruntime, hgeneration⟩
    · rw [MovementPhase.active_of_pending hpending] at hphase
      cases hphase
    · exact h.source id movement other hmovement hother hpending
  · intro id movement other hmovement hother hactivated
    obtain ⟨-, rfl, -⟩ | ⟨-, hphase, -⟩ | ⟨hmovement, hother⟩ := hpair id movement other hmovement hother
    · cases hactivated
    · rw [hactivated] at hphase
      cases hphase
    · exact h.destination id movement other hmovement hother hactivated

theorem DirectorySound.insert (h : DirectorySound start d published)
    (hhome : d.environment? input.environmentId = some environment) (hplaceable : placeable input environment = true)
    (hinserted : d.insertMovement input = .ok inserted) : DirectorySound start
      (inserted.setEnvironment input.environmentId fun row => { row with movementId := some input.id })
      published := by
  obtain ⟨hnew, hquiet, rfl⟩ := insertMovement_ok hinserted
  refine h.grow hhome hplaceable hnew hquiet (h.environments.modify fun _ => rfl)
    (h.movements.concat fun other hother hkey => ?_) (movement?_insert hnew) fun id => ?_
  · have hfound := h.movements.lookup hother
    rw [hkey] at hfound
    exact nomatch hnew.symm.trans hfound
  · refine (Directory.environment?_set ?_).trans ?_
    · exact fun _ => rfl
    · change (if id = input.environmentId then (d.environment? input.environmentId).map _ else _) = _
      rw [hhome]
      rfl

end Insert

/-! ## A publication -/

section Publish
variable {start d d' : Directory} {published : List Publication}

theorem putComponents_tables (environmentId : String) (generation : ℕ) (components : List VerifiedComponent) :
    (components.foldl (fun d component => d.putComponent environmentId generation component) d).environments =
        d.environments ∧
      (components.foldl (fun d component => d.putComponent environmentId generation component) d).movements =
        d.movements := by
  induction components generalizing d with
  | nil => exact ⟨rfl, rfl⟩
  | cons component components ih =>
    obtain ⟨henvironments, hmovements⟩ := ih (d := d.putComponent environmentId generation component)
    rw [List.foldl_cons]
    refine ⟨henvironments.trans ?_, hmovements.trans ?_⟩ <;>
    · unfold Directory.putComponent
      split_ifs <;> rfl

/-- What `activate` holds of a movement is the movement as it is, or the way back. -/
structure Bound (row movement : Movement) (returning : Bool) : Prop where
  id : movement.id = row.id
  environmentId : movement.environmentId = row.environmentId
  sourceRuntimeId : movement.sourceRuntimeId = row.sourceRuntimeId
  sourceGeneration : movement.sourceGeneration = row.sourceGeneration
  destinationRuntimeId : movement.destinationRuntimeId =
    if returning then row.sourceRuntimeId else row.destinationRuntimeId
  destinationGeneration : movement.destinationGeneration =
    if returning then row.destinationGeneration + 1 else row.destinationGeneration

variable {row movement : Movement} {returning : Bool}

theorem bound_open {returnEvidence : Option Actors.Record}
    (h : openActivation row returnEvidence = .ok movement) : Bound row movement returnEvidence.isSome := by
  cases returnEvidence with
  | none =>
    cases h
    exact ⟨rfl, rfl, rfl, rfl, rfl, rfl⟩
  | some evidence =>
    unfold openActivation at h
    dsimp only at h
    split_ifs at h
    cases h
    exact ⟨rfl, rfl, rfl, rfl, rfl, rfl⟩

theorem Bound.goesOn {next : Movement} (h : Bound row movement returning)
    (hroute : next.route = row.route) : Bound next movement returning where
  id := h.id.trans (congrArg Route.id hroute).symm
  environmentId := h.environmentId.trans (congrArg Route.environmentId hroute).symm
  sourceRuntimeId := h.sourceRuntimeId.trans (congrArg Route.sourceRuntimeId hroute).symm
  sourceGeneration := h.sourceGeneration.trans (congrArg Route.sourceGeneration hroute).symm
  destinationRuntimeId := by
    rw [h.destinationRuntimeId, show next.sourceRuntimeId = row.sourceRuntimeId from
      congrArg Route.sourceRuntimeId hroute, show next.destinationRuntimeId = row.destinationRuntimeId from
      congrArg Route.destinationRuntimeId hroute]
  destinationGeneration := by
    rw [h.destinationGeneration, show next.destinationGeneration = row.destinationGeneration from
      congrArg Route.destinationGeneration hroute]

theorem Bound.rising (h : Bound row movement returning) (hnext : row.destinationGeneration = row.sourceGeneration + 1) :
    movement.sourceGeneration < movement.destinationGeneration := by
  rw [h.destinationGeneration, h.sourceGeneration, hnext]
  cases returning
  · exact Nat.lt_succ_self _
  · exact Nat.lt_succ_of_lt (Nat.lt_succ_self _)

def publishedAs (movement : Movement) (returning : Bool) : Publication :=
  ⟨movement.id, movement.environmentId, movement.destinationRuntimeId, movement.destinationGeneration, returning⟩

theorem placements_append (origin : Environment) (publication : Publication) :
    placements origin (published ++ [publication]) = placements origin published ++
      if publication.environmentId = origin.id then [(publication.generation, publication.runtimeId)] else [] := by
  unfold placements
  rw [List.filter_append, List.map_append, List.cons_append, List.filter_singleton]
  by_cases hplace : publication.environmentId = origin.id
  · rw [if_pos hplace, decide_eq_true hplace]
    rfl
  · rw [if_neg hplace, decide_eq_false hplace]
    rfl

theorem last_placement_max {origin : Environment} {generation : ℕ} {runtimeId : String}
    (hrising : ((placements origin published).map Prod.fst).Pairwise (· < ·))
    (hlast : (placements origin published).getLast? = some (generation, runtimeId)) :
    ∀ earlier ∈ (placements origin published).map Prod.fst, earlier ≤ generation := by
  obtain ⟨before, hsplit⟩ := List.getLast?_eq_some_iff.mp hlast
  rw [hsplit, List.map_append] at hrising ⊢
  intro earlier hearlier
  rcases List.mem_append.mp hearlier with hbefore | hlater
  · exact Nat.le_of_lt (List.pairwise_append.mp hrising |>.2.2 earlier hbefore generation (List.mem_singleton_self _))
  · exact Nat.le_of_eq (List.mem_singleton.mp hlater)

theorem DirectorySound.publish (h : DirectorySound start d published)
    {environment : Environment} {evidence : Actors.Record}
    (hrow : d.movement? movement.id = some row) (hbound : Bound row movement returning)
    (hhome : d.environment? movement.environmentId = some environment)
    (hnamed : environment.movementId = some movement.id)
    (hgeneration : environment.routingGeneration = movement.sourceGeneration)
    (henvironments : Keyed Environment.id d'.environments) (hmovements : Keyed Movement.id d'.movements)
    (hfind : ∀ id, d'.movement? id = if id = movement.id then
      some { row with phase := if returning then .cancelled else .activated, evidence := evidence }
      else d.movement? id)
    (hplace : ∀ id, d'.environment? id = if id = movement.environmentId then
      some { environment with
        runtimeId := movement.destinationRuntimeId
        routingGeneration := movement.destinationGeneration
        movementId := none
        observedState := .ready } else d.environment? id) :
    DirectorySound start d' (published ++ [publishedAs movement returning]) := by
  have hpending : row.phase.pending = true := (h.named _ row environment hrow (hbound.environmentId ▸ hhome)).mpr hnamed
  have hunpublished : ∀ publication ∈ published, publication.movementId ≠ movement.id := by
    intro publication hpublication hid
    obtain ⟨other, hother, houtcome⟩ := h.outcome publication hpublication
    rw [hid, hrow] at hother
    cases hother
    have hover := houtcome.not_pending
    rw [hpending] at hover
    cases hover
  have hactive := MovementPhase.active_of_pending hpending
  -- the published movement at its customer, another one at the same customer, or what was there
  have hpair : ∀ id other home, d'.movement? id = some other → d'.environment? other.environmentId = some home →
      id = movement.id ∧
        { row with phase := if returning then .cancelled else .activated, evidence := evidence } = other ∧
        { environment with
          runtimeId := movement.destinationRuntimeId
          routingGeneration := movement.destinationGeneration
          movementId := none
          observedState := .ready } = home ∨
      d.movement? id = some other ∧ home.movementId = none ∧ other.phase.active = false ∨
      d.movement? id = some other ∧ d.environment? other.environmentId = some home := by
    intro id other home hother hfound
    obtain ⟨hid, rfl⟩ | ⟨hid, hother⟩ := found_put hfind hother
    · obtain ⟨-, hhere⟩ | ⟨haway, -⟩ := found_put hplace hfound
      · exact .inl ⟨hid, rfl, hhere⟩
      · exact absurd hbound.environmentId.symm haway
    · obtain ⟨hhere, rfl⟩ | ⟨-, hfound⟩ := found_put hplace hfound
      · refine .inr (.inl ⟨hother, rfl, Bool.eq_false_iff.mpr fun hphase => hid ?_⟩)
        exact h.active id movement.id other row hother hrow (hhere.trans hbound.environmentId) hphase hactive
      · exact .inr (.inr ⟨hother, hfound⟩)
  have hold : ∀ id next, d'.movement? id = some next → ∃ old, d.movement? id = some old ∧
      next.environmentId = old.environmentId ∧ (next.phase.active = true → old.phase.active = true) ∧
      (old.destinationGeneration = old.sourceGeneration + 1 →
        next.destinationGeneration = next.sourceGeneration + 1) := by
    intro id next hnext
    obtain ⟨hid, rfl⟩ | ⟨-, hnext⟩ := found_put hfind hnext
    · exact ⟨row, hid ▸ hrow, rfl, fun _ => hactive, fun hgenerations => hgenerations⟩
    · exact ⟨next, hnext, rfl, fun hphase => hphase, fun hgenerations => hgenerations⟩
  constructor
  · exact henvironments
  · exact hmovements
  · intro id other hother
    obtain ⟨old, hold, hsame, -⟩ := hold id other hother
    obtain ⟨home, hfound⟩ := h.environment id old hold
    rw [hplace, hsame]
    split_ifs
    · exact ⟨_, rfl⟩
    · exact ⟨home, hfound⟩
  · intro id other home hother hfound
    obtain ⟨-, rfl, rfl⟩ | ⟨-, hnone, hover⟩ | ⟨hother, hfound⟩ := hpair id other home hother hfound
    · refine ⟨fun hphase => ?_, fun hnone => nomatch hnone⟩
      cases returning <;> cases hphase
    · rw [hnone]
      refine ⟨fun hphase => ?_, fun hnone => nomatch hnone⟩
      rw [MovementPhase.active_of_pending hphase] at hover
      cases hover
    · exact h.named id other home hother hfound
  · intro environmentId home id hfound hnamed'
    obtain ⟨-, rfl⟩ | ⟨hhere, hfound⟩ := found_put hplace hfound
    · cases hnamed'
    · obtain ⟨other, hother, hsame⟩ := h.target environmentId home id hfound hnamed'
      rw [hfind]
      by_cases hid : id = movement.id
      · rw [hid, hrow] at hother
        cases hother
        exact absurd (hsame.symm.trans hbound.environmentId.symm) hhere
      · rw [if_neg hid]
        exact ⟨other, hother, hsame⟩
  · intro one other movement₁ movement₂ hone hother hsame hactive₁ hactive₂
    obtain ⟨old₁, hold₁, hplace₁, hphase₁, -⟩ := hold one movement₁ hone
    obtain ⟨old₂, hold₂, hplace₂, hphase₂, -⟩ := hold other movement₂ hother
    exact h.active one other old₁ old₂ hold₁ hold₂ (hplace₁.symm.trans (hsame.trans hplace₂))
      (hphase₁ hactive₁) (hphase₂ hactive₂)
  · intro id other hother
    obtain ⟨old, hold, -, -, hnext⟩ := hold id other hother
    exact hnext (h.generations id old hold)
  · intro environmentId home hfound
    obtain ⟨rfl, rfl⟩ | ⟨hhere, hfound⟩ := found_put hplace hfound
    · obtain ⟨origin, horigin, hrising, hlast⟩ := h.placed _ environment hhome
      have hid : movement.environmentId = origin.id := (Directory.environment?_id horigin).symm
      refine ⟨origin, horigin, ?_, ?_⟩
      · rw [placements_append, publishedAs, if_pos hid, List.map_append]
        refine List.pairwise_append.mpr ⟨hrising, List.pairwise_singleton _ _, fun earlier hearlier later hlater => ?_⟩
        rw [List.mem_singleton.mp hlater]
        refine lt_of_le_of_lt (last_placement_max hrising hlast earlier hearlier) ?_
        rw [hgeneration]
        exact hbound.rising (h.generations _ row hrow)
      · rw [placements_append, publishedAs, if_pos hid, List.getLast?_concat]
    · obtain ⟨origin, horigin, hrising, hlast⟩ := h.placed environmentId home hfound
      have hid : ¬movement.environmentId = origin.id := fun hid =>
        hhere ((Directory.environment?_id horigin).symm.trans hid.symm)
      refine ⟨origin, horigin, ?_, ?_⟩ <;> rw [placements_append, publishedAs, if_neg hid, List.append_nil]
      · exact hrising
      · exact hlast
  · rw [List.map_append]
    refine List.nodup_append.mpr ⟨h.once, List.nodup_singleton _, fun id hid other hother hsame => ?_⟩
    obtain ⟨publication, hpublication, rfl⟩ := List.mem_map.mp hid
    exact hunpublished publication hpublication (hsame.trans (List.mem_singleton.mp hother))
  · intro publication hpublication
    rcases List.mem_append.mp hpublication with hold | hlast
    · obtain ⟨other, hother, houtcome⟩ := h.outcome publication hold
      refine ⟨other, ?_, houtcome⟩
      rw [hfind, if_neg (hunpublished publication hold)]
      exact hother
    · rw [List.mem_singleton.mp hlast]
      refine ⟨_, (hfind movement.id).trans (if_pos rfl), hbound.environmentId, ?_⟩
      cases returning
      · exact .inr ⟨rfl, hbound.destinationRuntimeId, .inl rfl⟩
      · exact .inl ⟨rfl, hbound.destinationRuntimeId, rfl⟩
  · intro id other hother hover
    obtain ⟨hid, -⟩ | ⟨-, hother⟩ := found_put hfind hother
    · exact ⟨_, List.mem_append_right _ (List.mem_singleton_self _), hid.symm⟩
    · obtain ⟨publication, hpublication, hsame⟩ := h.ended id other hother hover
      exact ⟨publication, List.mem_append_left _ hpublication, hsame⟩
  · intro id other home hother hfound hphase
    obtain ⟨-, rfl, -⟩ | ⟨-, -, hover⟩ | ⟨hother, hfound⟩ := hpair id other home hother hfound
    · cases returning <;> cases hphase
    · rw [MovementPhase.active_of_pending hphase] at hover
      cases hover
    · exact h.source id other home hother hfound hphase
  · intro id other home hother hfound hactivated
    obtain ⟨-, rfl, rfl⟩ | ⟨-, -, hover⟩ | ⟨hother, hfound⟩ := hpair id other home hother hfound
    · cases returning with
      | true => cases hactivated
      | false => exact ⟨hbound.destinationRuntimeId, hbound.destinationGeneration⟩
    · rw [hactivated] at hover
      cases hover
    · exact h.destination id other home hother hfound hactivated

end Publish

end AvenOS.Provisioner
