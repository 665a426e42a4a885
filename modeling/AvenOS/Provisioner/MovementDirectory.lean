import AvenOS.Foundations.ExceptLoop
import AvenOS.Provisioner.MovementCalls

/-! # The directory over whole runs

Each statement keeps what is known of the tables and of the calls. A publication finds its movement verified,
unless a return was granted between the look at the phase and the end of the transaction. -/
namespace AvenOS.Provisioner
open KeyedTable LabelledRun

/-! ## One movement goes on -/

section Steps
variable {w : World} {session : ℕ} {start : Directory}

variable {id : String} {w' : World} {d d' : Directory} {source target : MovementPhase}
    {evidence : Actors.Record} {controller : Controller} {input : BeginInput} {retained : Option Movement}
    {movement : Movement} {returnEvidence : Option Actors.Record} {call : Call}

variable {f : Movement → Movement} {more : List Event} {row : Movement}

theorem guarded_change (hf : ∀ row, (f row).route = row.route)
    (hphase : ∀ row, w.directory.movement? id = some row → PhaseStep row.phase (f row).phase)
    (hback : ∀ row, w.directory.movement? id = some row → row.phase = .verified →
      (f row).phase = .verified ∨ .returned id ∈ w.events ++ more)
    (hdirectory : w'.directory = w.directory.setMovement id f) (hevents : w'.events = w.events ++ more)
    {other : String} (h : Guarded w other) : Guarded w' other := by
  obtain ⟨row, hrow, hguard⟩ := h
  rw [Guarded, hdirectory, hevents, Directory.movement?_set fun row => congrArg Route.id (hf row)]
  by_cases hid : other = id
  · rw [if_pos hid]
    rw [hid] at hrow hguard ⊢
    refine ⟨f row, by rw [hrow]; rfl, ?_⟩
    rcases hguard with hverified | hover | hreturned
    · exact (hback row hrow hverified).imp_right .inr
    · exact .inr (.inl ((hphase row hrow).pending.trans hover))
    · exact .inr (.inr (List.mem_append_left _ hreturned))
  · rw [if_neg hid]
    exact ⟨row, hrow, hguard.imp_right (Or.imp_right fun hmem => List.mem_append_left _ hmem)⟩

theorem WorldSound.change (h : WorldSound start w) (session : ℕ) (hf : ∀ row, (f row).route = row.route)
    (hphase : ∀ row, w.directory.movement? id = some row → PhaseStep row.phase (f row).phase)
    (hback : ∀ row, w.directory.movement? id = some row → row.phase = .verified →
      (f row).phase = .verified ∨ .returned id ∈ w.events ++ more) (hmore : publications more = [])
    (controller : Controller) : WorldSound start
      ({ w with directory := w.directory.setMovement id f, events := w.events ++ more }.goOn session controller
        .reading) := by
  refine h.next session ⟨goesOn_change hf, fun _ => guarded_change hf hphase hback rfl rfl,
    fun _ _ _ hlocked => hlocked, fun _ _ _ _ => rfl⟩ (fun _ hother => update_other hother) ?_ ?_
  · change DirectorySound start (w.directory.setMovement id f) (publications (w.events ++ more))
    rw [publications_append, hmore, List.append_nil]
    exact h.directory.change hf hphase
  · intro call hcall
    rw [World.goOn, setCall_calls] at hcall
    cases hcall
    trivial

theorem advance_ok (h : d.advance id source target evidence = .ok d') :
    (∃ movement, d.movement? id = some movement ∧ movement.phase = source) ∧ d' = d.setMovement id fun row =>
        { row with phase := target, evidence := mergeEvidence row.evidence evidence } := by
  unfold Directory.advance at h
  cases hmovement : d.movement? id with
  | none =>
    rw [hmovement] at h
    cases h
  | some movement =>
    rw [hmovement] at h
    dsimp only at h
    split_ifs at h with hphase
    exact ⟨⟨movement, rfl, hphase⟩, (Except.ok.inj h).symm⟩

theorem advance_goesOn (h : d.advance id source target evidence = .ok d') : GoesOn d d' := by
  obtain ⟨-, rfl⟩ := advance_ok h
  exact goesOn_change (by intro; rfl)

theorem requestReturn_ok (h : d.requestReturn id = .ok d') :
    (∃ movement, d.movement? id = some movement ∧ Directory.returnable movement = true) ∧
      d' = d.setMovement id fun row =>
        { row with phase := if row.phase = .cancelled then row.phase else .returning } := by
  unfold Directory.requestReturn at h
  cases hmovement : d.movement? id with
  | none =>
    rw [hmovement] at h
    cases h
  | some movement =>
    rw [hmovement] at h
    dsimp only at h
    split_ifs at h with hphase
    exact ⟨⟨movement, rfl, hphase⟩, (Except.ok.inj h).symm⟩

theorem WorldSound.advancing (h : WorldSound start w) (hsuccessor : successor source = some target)
    (hadvance : w.directory.advance controller.movementId source target evidence = .ok d') :
    WorldSound start ({ w with directory := d' }.goOn session controller .reading) := by
  obtain ⟨⟨movement, hmovement, hsource⟩, rfl⟩ := advance_ok hadvance
  have hrow : ∀ row, w.directory.movement? controller.movementId = some row → row.phase = source := by
    intro row hrow
    rw [hmovement] at hrow
    cases hrow
    exact hsource
  have hevents : w.events = w.events ++ [] := (List.append_nil _).symm
  rw [hevents]
  exact h.change session (by intro; rfl) (fun row hfound => .onward (by rw [hrow row hfound]; exact hsuccessor))
    (fun row hfound hverified => by
      rw [← hrow row hfound, hverified] at hsuccessor
      cases hsuccessor) rfl controller

theorem WorldSound.asking (h : WorldSound start w)
    (hreturn : w.directory.requestReturn controller.movementId = .ok d') :
    WorldSound start
      ({ w with directory := d', events := w.events ++ [Event.returned controller.movementId] }.goOn session
        controller .reading) := by
  obtain ⟨⟨movement, hmovement, hreturnable⟩, rfl⟩ := requestReturn_ok hreturn
  refine h.change session (by intro; rfl) (fun row hfound => ?_)
    (fun _ _ _ => .inr (List.mem_append_right _ (List.mem_singleton_self _))) rfl controller
  rw [hmovement] at hfound
  cases hfound
  by_cases hphase : movement.phase = .cancelled
  · rw [if_pos hphase]
    exact .same _
  · rw [if_neg hphase]
    refine .back ?_
    rw [Directory.returnable, Bool.and_eq_true, Bool.or_eq_true, decide_eq_true_eq] at hreturnable
    exact hreturnable.1.resolve_right hphase

theorem row_ne {environmentId : String} {other : ℕ} (hlocked : w.locked environmentId = some session)
    (hlock : w.locked id = some other) (hother : other ≠ session) : id ≠ environmentId := by
  intro hid
  rw [hid, hlocked] at hlock
  exact hother (Option.some.inj hlock).symm

/-! ## A new movement -/

theorem supersede_cases (d : Directory) (retained : Option Movement) :
    d.supersede retained = d ∨ ∃ id, d.supersede retained =
      d.setMovement id fun row => if row.phase = .activated then { row with phase := .superseded } else row := by
  cases retained with
  | none => exact .inl rfl
  | some retained =>
    unfold Directory.supersede
    dsimp only
    split_ifs
    · exact .inr ⟨retained.id, rfl⟩
    · exact .inl rfl

theorem superseded_route (row : Movement) :
    (if row.phase = .activated then { row with phase := .superseded } else row : Movement).route = row.route := by
  split_ifs <;> rfl

theorem superseded_phase (row : Movement) : PhaseStep row.phase
    (if row.phase = .activated then { row with phase := .superseded } else row : Movement).phase := by
  split_ifs with hphase
  · rw [hphase]
    exact .supersede
  · exact .same _

theorem superseded_verified (h : row.phase = .verified) :
    (if row.phase = .activated then { row with phase := .superseded } else row : Movement).phase = .verified := by
  rw [h]
  exact h

structure Superseded (start d d' : Directory) : Prop where
  goesOn : GoesOn d d'
  environments : d'.environments = d.environments
  verified : ∀ id row, d.movement? id = some row →
    ∃ next, d'.movement? id = some next ∧ (row.phase = .verified → next.phase = .verified) ∧
      (row.phase.pending = false → next.phase.pending = false)
  sound : ∀ published, DirectorySound start d published → DirectorySound start d' published

theorem superseded_supersede (start d : Directory) (retained : Option Movement) :
    Superseded start d (d.supersede retained) := by
  rcases supersede_cases d retained with hsame | ⟨id, hset⟩
  · rw [hsame]
    exact ⟨goesOn_self, rfl, fun _ row hrow => ⟨row, hrow, fun h => h, fun h => h⟩, fun _ h => h⟩
  · rw [hset]
    refine ⟨goesOn_change superseded_route, rfl, fun other row hrow => ?_, fun published h =>
      h.change superseded_route fun row _ => superseded_phase row⟩
    rw [Directory.movement?_set fun row => congrArg Route.id (superseded_route row)]
    by_cases hid : other = id
    · rw [if_pos hid]
      rw [hid] at hrow
      rw [hrow]
      exact ⟨_, rfl, superseded_verified, fun hover => (superseded_phase row).pending.trans hover⟩
    · rw [if_neg hid]
      exact ⟨row, hrow, fun h => h, fun h => h⟩

theorem place_ok (h : d.place input retained = .ok d') :
    ∃ inserted, (d.supersede retained).insertMovement input = .ok inserted ∧
      d' = inserted.setEnvironment input.environmentId fun row => { row with movementId := some input.id } := by
  obtain ⟨inserted, hinserted, heq⟩ := ExceptLoop.map_eq_ok h
  exact ⟨inserted, hinserted, heq.symm⟩

theorem place_goesOn (h : d.place input retained = .ok d') : GoesOn d d' := by
  obtain ⟨inserted, hinserted, rfl⟩ := place_ok h
  obtain ⟨hnew, -, rfl⟩ := insertMovement_ok hinserted
  have hsuperseded := superseded_supersede d d retained
  intro id row hrow
  obtain ⟨next, hnext, hroute⟩ := hsuperseded.goesOn id row hrow
  have hid : id ≠ input.id := by
    intro hid
    rw [hid, hnew] at hnext
    cases hnext
  exact ⟨next, (movement?_insert hnew id).trans ((if_neg hid).trans hnext), hroute⟩

theorem WorldSound.recording (h : WorldSound start w) (hheld : Held w session input.environmentId fun row => placeable input row = true)
    (hplace : w.directory.place input retained = .ok d') :
    WorldSound start ((w.commit session d' [.began input.id]).answer session (.ok input.id)) := by
  have hgoes := place_goesOn hplace
  obtain ⟨inserted, hinserted, rfl⟩ := place_ok hplace
  obtain ⟨hlocked, environment, hhome, hplaceable⟩ := hheld
  have hsuperseded := superseded_supersede start w.directory retained
  have hhome' : (w.directory.supersede retained).environment? input.environmentId = some environment := by
    rw [Directory.environment?, hsuperseded.environments]
    exact hhome
  have hsound := (hsuperseded.sound _ h.directory).insert hhome' hplaceable hinserted
  obtain ⟨hnew, -, rfl⟩ := insertMovement_ok hinserted
  have hold : ∀ id row, w.directory.movement? id = some row → ∃ next,
      (w.directory.supersede retained).movement? id = some next ∧ id ≠ input.id := by
    intro id row hrow
    obtain ⟨next, hnext, -⟩ := hsuperseded.goesOn id row hrow
    refine ⟨next, hnext, fun hid => ?_⟩
    rw [hid, hnew] at hnext
    cases hnext
  refine h.next session ⟨hgoes, fun id hguarded => ?_, fun other hother id hlock =>
    release_other hother (release_other hother hlock), fun other hother id hlock => ?_⟩
    (fun _ hother => update_other hother) ?_ fun call hcall => ?_
  · obtain ⟨row, hrow, hphase⟩ := hguarded
    obtain ⟨next, hnext, hverified, hover⟩ := hsuperseded.verified id row hrow
    obtain ⟨-, -, hid⟩ := hold id row hrow
    refine ⟨next, (movement?_insert hnew id).trans ((if_neg hid).trans hnext), ?_⟩
    exact hphase.imp hverified (Or.imp hover fun hmem =>
      List.mem_append_left _ (List.mem_append_left _ hmem))
  · refine (Directory.environment?_set ?_).trans ?_
    · exact fun _ => rfl
    · rw [if_neg (row_ne hlocked hlock hother)]
      change lookup _ _ (w.directory.supersede retained).environments = _
      rw [hsuperseded.environments]
      rfl
  · change DirectorySound start _ (publications (w.events ++ [.began input.id] ++ [.answered session _]))
    rw [publications_append, publications_append]
    change DirectorySound start _ (publications w.events ++ [] ++ [])
    rw [List.append_nil, List.append_nil]
    exact hsound
  · rw [answer_calls] at hcall
    cases hcall

/-! ## A publication -/

def Directory.moved (d : Directory) (movement : Movement) : Directory :=
  d.setEnvironment movement.environmentId fun row =>
    { row with
      runtimeId := movement.destinationRuntimeId
      routingGeneration := movement.destinationGeneration
      movementId := none
      observedState := .ready }

def Directory.concluded (d : Directory) (movement : Movement) (returnEvidence : Option Actors.Record) : Directory :=
  d.setMovement movement.id fun row =>
    { row with
      phase := if returnEvidence.isSome then .cancelled else .activated
      evidence := mergeEvidence row.evidence (returnEvidence.getD []) }

theorem publish_tables (d : Directory) (movement : Movement) (returnEvidence : Option Actors.Record)
    (components : List VerifiedComponent) :
    (d.publish movement returnEvidence components).environments = (d.moved movement).environments ∧
      (d.publish movement returnEvidence components).movements = (d.concluded movement returnEvidence).movements := by
  obtain ⟨henvironments, hmovements⟩ := putComponents_tables (d := d.moved movement) movement.environmentId
    movement.destinationGeneration components
  refine ⟨henvironments, ?_⟩
  unfold Directory.publish Directory.setMovement
  exact congrArg (modify Movement.id movement.id _) hmovements

theorem publish_movement? (d : Directory) (movement : Movement) (returnEvidence : Option Actors.Record)
    (components : List VerifiedComponent) (id : String) :
    (d.publish movement returnEvidence components).movement? id =
      if id = movement.id then (d.movement? movement.id).map fun row =>
        { row with
          phase := if returnEvidence.isSome then .cancelled else .activated
          evidence := mergeEvidence row.evidence (returnEvidence.getD []) }
      else d.movement? id := by
  rw [Directory.movement?, (publish_tables d movement returnEvidence components).2]
  exact Directory.movement?_set (by intro; rfl)

theorem publish_environment? (d : Directory) (movement : Movement) (returnEvidence : Option Actors.Record)
    (components : List VerifiedComponent) (id : String) :
    (d.publish movement returnEvidence components).environment? id =
      if id = movement.environmentId then (d.environment? movement.environmentId).map fun row =>
        { row with
          runtimeId := movement.destinationRuntimeId
          routingGeneration := movement.destinationGeneration
          movementId := none
          observedState := .ready }
      else d.environment? id := by
  rw [Directory.environment?, (publish_tables d movement returnEvidence components).1]
  exact Directory.environment?_set (by intro; rfl)

theorem publish_goesOn (d : Directory) (movement : Movement) (returnEvidence : Option Actors.Record)
    (components : List VerifiedComponent) : GoesOn d (d.publish movement returnEvidence components) := by
  intro id row hrow
  rw [publish_movement?]
  by_cases hid : id = movement.id
  · rw [if_pos hid]
    rw [hid] at hrow
    rw [hrow]
    exact ⟨_, rfl, rfl⟩
  · rw [if_neg hid]
    exact ⟨row, hrow, rfl⟩

theorem WorldSound.publishing (h : WorldSound start w) {components : List VerifiedComponent}
    (hstage : StageSound w session (.publishing movement returnEvidence)) : WorldSound start
      ((w.commit session (w.directory.publish movement returnEvidence components)
        [.published (publishedAs movement returnEvidence.isSome)]).goOn session controller .reading) := by
  obtain ⟨⟨row, hrow, hbound⟩, ⟨hlocked, environment, hhome, hactivatable⟩, -⟩ := hstage
  obtain ⟨hnamed, -, hgeneration, -⟩ := of_decide_eq_true hactivatable
  have hfind := publish_movement? w.directory movement returnEvidence components
  have hplace := publish_environment? w.directory movement returnEvidence components
  rw [hrow] at hfind
  rw [hhome] at hplace
  obtain ⟨henvironments, hmovements⟩ := publish_tables w.directory movement returnEvidence components
  have hsound := h.directory.publish hrow hbound hhome hnamed hgeneration
    (henvironments ▸ h.directory.environments.modify (by intro; rfl))
    (hmovements ▸ h.directory.movements.modify (by intro; rfl)) hfind hplace
  refine h.next session ⟨publish_goesOn _ _ _ _, fun id hguarded => ?_, fun other hother id hlock =>
    release_other hother hlock, fun other hother id hlock => ?_⟩ (fun _ hother => update_other hother) ?_
    fun call hcall => ?_
  · obtain ⟨other, hother, hphase⟩ := hguarded
    by_cases hid : id = movement.id
    · refine ⟨_, (hfind id).trans (if_pos hid), .inr (.inl ?_)⟩
      dsimp only
      split_ifs <;> rfl
    · exact ⟨other, (hfind id).trans ((if_neg hid).trans hother),
        hphase.imp_right (Or.imp_right fun hmem => List.mem_append_left _ hmem)⟩
  · exact (hplace id).trans (if_neg (row_ne hlocked hlock hother))
  · change DirectorySound start _ (publications (w.events ++ [_]))
    rw [publications_append]
    exact hsound
  · rw [World.goOn, setCall_calls] at hcall
    cases hcall
    trivial

/-! ## What a step is -/

/-- On its way back, or back. -/
def Settled (w : World) (movementId : String) : Prop :=
  ∃ row, w.directory.movement? movementId = some row ∧ (row.phase = .returning ∨ row.phase = .cancelled)

def Event.silent : Event → Bool
  | .began _ | .answered _ _ => true
  | _ => false

/-- An activation is about to commit. -/
structure Committing (w : World) (session : ℕ) (movement : Movement) (returnEvidence : Option Actors.Record) :
    Prop where
  stage : ∃ controller, w.calls session = some (.controller controller) ∧
    controller.stage = .publishing movement returnEvidence
  components : (verifiedComponents movement.evidence
    (w.directory.requiredComponents movement.environmentId)).isOk = true

inductive Turn (start : Directory) (w : World) (action : Action) (w' : World) : Prop
  | silent {more : List Event} (hsound : WorldSound start w') (hgoes : GoesOn w.directory w'.directory)
      (hevents : w'.events = w.events ++ more)
      (hsilent : ∀ event ∈ more, event.silent = true) (hkept : ∀ id, Settled w id → Settled w' id)
  | returned {id : String} (hsound : WorldSound start w') (hgoes : GoesOn w.directory w'.directory)
      (hevents : w'.events = w.events ++ [.returned id])
      (hkept : ∀ id, Settled w id → Settled w' id) (hsettled : Settled w' id)
  | published {session : ℕ} {movement : Movement} {returnEvidence : Option Actors.Record}
      (hsound : WorldSound start w') (hgoes : GoesOn w.directory w'.directory)
      (haction : action = .proceed session)
      (hcommitting : Committing w session movement returnEvidence)
      (hevents : w'.events = w.events ++ [.published (publishedAs movement returnEvidence.isSome)])
      (hkept : ∀ id, id ≠ movement.id → Settled w id → Settled w' id)
      (hback : returnEvidence.isSome = true → Settled w' movement.id)

variable {action : Action}

theorem Turn.sound (h : Turn start w action w') : WorldSound start w' := by
  cases h with
  | silent hsound => exact hsound
  | returned hsound => exact hsound
  | published hsound => exact hsound

theorem Turn.grows (h : Turn start w action w') : ∃ more, w'.events = w.events ++ more := by
  cases h with
  | silent _ _ hevents => exact ⟨_, hevents⟩
  | returned _ _ hevents => exact ⟨_, hevents⟩
  | published _ _ _ _ hevents => exact ⟨_, hevents⟩

theorem Turn.goesOn (h : Turn start w action w') : GoesOn w.directory w'.directory := by
  cases h with
  | silent _ hgoes => exact hgoes
  | returned _ hgoes => exact hgoes
  | published _ hgoes => exact hgoes

theorem turn_answer (h : WorldSound start w) (outcome : Except String String) :
    Turn start w action (w.answer session outcome) :=
  .silent (h.answer outcome) goesOn_self rfl (fun event hevent => by rw [List.mem_singleton.mp hevent]; rfl) fun _ hsettled => hsettled

theorem turn_setCall (h : WorldSound start w) (hcall : CallSound w session call) :
    Turn start w action (w.setCall session call) :=
  .silent (h.setCall hcall) goesOn_self (List.append_nil _).symm (fun _ hevent => absurd hevent List.not_mem_nil)
    fun _ hsettled => hsettled

theorem turn_goOn (h : WorldSound start w) {stage : ControllerStage}
    (hstage : StageSound w session stage) : Turn start w action (w.goOn session controller stage) :=
  turn_setCall h hstage

theorem turn_advisory (h : WorldSound start w) {advisory : String → Option ℕ} (hcall : CallSound w session call) :
    Turn start w action ({ w with advisory := advisory }.setCall session call) :=
  .silent ((h.advisory advisory).setCall hcall) goesOn_self (List.append_nil _).symm
    (fun _ hevent => absurd hevent List.not_mem_nil) fun _ hsettled => hsettled

theorem turn_lockRow (h : WorldSound start w) (hfree : World.free session w.locked id)
    (hcall : CallSound (w.lockRow session id) session call) :
    Turn start w action ((w.lockRow session id).setCall session call) :=
  .silent (h.lockRow hfree hcall) goesOn_self (List.append_nil _).symm (fun _ hevent => absurd hevent List.not_mem_nil)
    fun _ hsettled => hsettled

theorem held_lockRow {environment : Environment} {P : Environment → Prop}
    (hrow : w.directory.environment? id = some environment) (hP : P environment) :
    Held (w.lockRow session id) session id P := ⟨Function.update_self _ _ _, environment, hrow, hP⟩

/-! ## The statements of `begin` -/

theorem lookingStep_turn (h : WorldSound start w) {environment : Option Environment}
    (hstage : BeginSound w session input (.looking environment)) :
    Turn start w action (w.lookingStep session input environment) := by
  unfold World.lookingStep
  cases w.directory.movement? input.id with
  | some prior =>
    dsimp only
    split_ifs
    · exact turn_answer h _
    · exact turn_answer h _
  | none =>
    cases environment with
    | none => exact turn_answer h _
    | some environment =>
      dsimp only
      split_ifs with hplaceable
      · obtain ⟨hlocked, row, hrow, rfl⟩ := hstage
        exact turn_setCall h ⟨hlocked, row, hrow, hplaceable⟩
      · exact turn_answer h _

theorem checkingStep_turn (h : WorldSound start w)
    (hstage : BeginSound w session input .checking) : Turn start w action (w.checkingStep session input) := by
  unfold World.checkingStep
  split_ifs
  · exact turn_answer h _
  · exact turn_answer h _
  · exact turn_setCall h hstage
  · exact turn_answer h _
  · exact turn_setCall h hstage

theorem retainingStep_turn (h : WorldSound start w)
    (hstage : BeginSound w session input .retaining) : Turn start w action (w.retainingStep session input) := by
  unfold World.retainingStep
  cases (input.rollbackOf.bind w.directory.retained?).filter (mayRollBack input) with
  | none => exact turn_answer h _
  | some retained => exact turn_setCall h hstage

theorem settled_supersede (retained : Option Movement) (hrow : w.directory.movement? id = some row)
    (hsettled : row.phase = .returning ∨ row.phase = .cancelled) :
    ∃ next, (w.directory.supersede retained).movement? id = some next ∧
      (next.phase = .returning ∨ next.phase = .cancelled) := by
  have hidle : row.phase ≠ .activated := by
    intro hactivated
    rw [hactivated] at hsettled
    rcases hsettled with hphase | hphase <;> cases hphase
  rcases supersede_cases w.directory retained with hsame | ⟨other, hset⟩
  · rw [hsame]
    exact ⟨row, hrow, hsettled⟩
  · rw [hset, Directory.movement?_set fun row => congrArg Route.id (superseded_route row)]
    by_cases hid : id = other
    · rw [if_pos hid]
      rw [hid] at hrow
      rw [hrow]
      exact ⟨_, rfl, by dsimp only; rw [if_neg hidle]; exact hsettled⟩
    · rw [if_neg hid]
      exact ⟨row, hrow, hsettled⟩

theorem settled_place (hplace : w.directory.place input retained = .ok d') (hdirectory : w'.directory = d')
    (h : Settled w id) : Settled w' id := by
  obtain ⟨row, hrow, hsettled⟩ := h
  obtain ⟨inserted, hinserted, rfl⟩ := place_ok hplace
  obtain ⟨hnew, -, rfl⟩ := insertMovement_ok hinserted
  obtain ⟨next, hnext, hkept⟩ := settled_supersede retained hrow hsettled
  have hid : id ≠ input.id := by
    intro hid
    rw [hid, hnew] at hnext
    cases hnext
  rw [Settled, hdirectory]
  exact ⟨next, (movement?_insert hnew id).trans ((if_neg hid).trans hnext), hkept⟩

theorem beginStep_turn (h : WorldSound start w) {stage : BeginStage}
    (hstage : BeginSound w session input stage) (hstep : w.beginStep session input stage = some w') :
    Turn start w action w' := by
  cases stage with
  | locking =>
    unfold World.beginStep at hstep
    dsimp only at hstep
    split_ifs at hstep with hfree
    cases hrow : w.directory.environment? input.environmentId with
    | none =>
      rw [hrow] at hstep
      cases hstep
      exact turn_setCall h trivial
    | some environment =>
      rw [hrow] at hstep
      cases hstep
      exact turn_lockRow h hfree (held_lockRow hrow rfl)
  | looking environment =>
    cases hstep
    exact lookingStep_turn h hstage
  | checking =>
    cases hstep
    exact checkingStep_turn h hstage
  | retaining =>
    cases hstep
    exact retainingStep_turn h hstage
  | claiming retained =>
    unfold World.beginStep at hstep
    dsimp only at hstep
    split_ifs at hstep
    · cases hstep
      exact turn_advisory h hstage
    · cases hstep
      exact turn_answer h _
  | recording retained =>
    unfold World.beginStep at hstep
    dsimp only at hstep
    cases hplace : w.directory.place input retained with
    | error message =>
      rw [hplace] at hstep
      cases hstep
      exact turn_answer h _
    | ok directory =>
      rw [hplace] at hstep
      cases hstep
      have hevents : ((w.commit session directory [.began input.id]).answer session (.ok input.id)).events =
          w.events ++ [.began input.id, .answered session (.ok input.id)] := List.append_assoc _ _ _
      refine .silent (h.recording hstage hplace) (place_goesOn hplace) hevents (fun event hevent => ?_)
        fun id => settled_place hplace rfl
      rcases List.mem_cons.mp hevent with rfl | hlast
      · rfl
      · rw [List.mem_singleton.mp hlast]
        rfl

/-! ## The statements of a controller -/

theorem readingStep_turn (h : WorldSound start w) (controller : Controller) :
    Turn start w action (w.readingStep session controller) := by
  unfold World.readingStep
  split_ifs
  · exact turn_answer h _
  · cases w.directory.movement? controller.movementId with
    | none => exact turn_answer h _
    | some movement =>
      dsimp only
      split_ifs
      · exact turn_answer h _
      · exact turn_goOn h trivial
      · exact turn_answer h _

theorem afterDriver_sound (phase : MovementPhase) (evidence : Actors.Record) :
    StageSound w session (World.afterDriver phase evidence) := by
  unfold World.afterDriver
  cases hsuccessor : successor phase with
  | none => trivial
  | some target => exact hsuccessor

theorem activatingStep_turn (h : WorldSound start w) (controller : Controller) (returnEvidence : Option Actors.Record) :
    Turn start w action (w.activatingStep session controller returnEvidence) := by
  unfold World.activatingStep
  cases hmovement : w.directory.movement? controller.movementId with
  | none => exact turn_answer h _
  | some row =>
    dsimp only
    cases hopen : openActivation row returnEvidence with
    | error message => exact turn_answer h _
    | ok movement =>
      have hbound := bound_open hopen
      refine turn_goOn h ⟨row, ?_, hbound⟩
      rw [hbound.id, Directory.movement?_id hmovement]
      exact hmovement

theorem guardingStep_turn (h : WorldSound start w) (hstage : StageSound w session (.guarding movement returnEvidence)) :
    Turn start w action (w.guardingStep session controller movement returnEvidence) := by
  refine turn_goOn h ⟨hstage, fun hguarded hnone => ?_⟩
  obtain ⟨row, hrow, hbound⟩ := hstage
  rw [hrow, Option.any_some, hnone, decide_eq_true_eq] at hguarded
  exact ⟨row, hrow, .inl hguarded⟩

theorem placingStep_turn (h : WorldSound start w) {guarded : Bool}
    (hstage : StageSound w session (.placing movement returnEvidence guarded))
    (hfree : World.free session w.locked movement.environmentId) :
    Turn start w action (w.placingStep session controller movement returnEvidence guarded) := by
  unfold World.placingStep
  split_ifs with hguard
  · obtain ⟨hguarded, hrow⟩ := hguard
    obtain ⟨environment, henvironment, hactivatable⟩ := Option.any_eq_true _ _ |>.mp hrow
    exact turn_lockRow h hfree ⟨hstage.1, held_lockRow henvironment hactivatable, hstage.2 hguarded⟩
  · exact turn_answer h _

theorem publishingStep_turn (h : WorldSound start w) (hcall : w.calls session = some (.controller controller))
    (hcontroller : controller.stage = .publishing movement returnEvidence)
    (hstage : StageSound w session (.publishing movement returnEvidence)) :
    Turn start w (.proceed session) (w.publishingStep session controller movement returnEvidence) := by
  unfold World.publishingStep
  cases hcomponents : verifiedComponents movement.evidence (w.directory.requiredComponents movement.environmentId) with
  | error message => exact turn_answer h _
  | ok components =>
    have hfind := publish_movement? w.directory movement returnEvidence components
    refine .published (h.publishing hstage) (publish_goesOn _ _ _ _) rfl ⟨⟨controller, hcall, hcontroller⟩, by rw [hcomponents]; rfl⟩ rfl
      (fun id hid hsettled => ?_) fun hback => ?_
    · obtain ⟨row, hrow, hphase⟩ := hsettled
      exact ⟨row, (hfind id).trans ((if_neg hid).trans hrow), hphase⟩
    · obtain ⟨row, hrow, -⟩ := hstage.1
      rw [hrow] at hfind
      refine ⟨_, (hfind movement.id).trans (if_pos rfl), .inr ?_⟩
      exact if_pos hback

theorem controllerStep_turn (h : WorldSound start w) (hcall : w.calls session = some (.controller controller))
    (hstep : w.controllerStep session controller controller.stage = some w') :
    Turn start w (.proceed session) w' := by
  have hstage : StageSound w session controller.stage := h.call session _ hcall
  generalize hcontroller : controller.stage = stage at hstep hstage
  cases stage with
  | claiming =>
    unfold World.controllerStep at hstep
    dsimp only at hstep
    split_ifs at hstep <;> cases hstep
    · exact turn_advisory h trivial
    · exact turn_answer h _
    · exact turn_advisory h trivial
    · exact turn_answer h _
  | asking =>
    unfold World.controllerStep at hstep
    dsimp only at hstep
    cases hreturn : w.directory.requestReturn controller.movementId with
    | error message =>
      rw [hreturn] at hstep
      cases hstep
      exact turn_answer h _
    | ok directory =>
      rw [hreturn] at hstep
      cases hstep
      obtain ⟨⟨movement, hmovement, hreturnable⟩, hset⟩ := requestReturn_ok hreturn
      have hfind : ∀ id, directory.movement? id = if id = controller.movementId then
          (w.directory.movement? controller.movementId).map fun row =>
            { row with phase := if row.phase = .cancelled then row.phase else .returning }
          else w.directory.movement? id := by
        intro id
        rw [hset]
        exact Directory.movement?_set (by intro; rfl)
      have hphase : ∀ phase : MovementPhase, (if phase = .cancelled then phase else .returning) = .returning ∨
          (if phase = .cancelled then phase else .returning) = .cancelled := by
        intro phase
        split_ifs with hcancelled
        · exact .inr hcancelled
        · exact .inl rfl
      rw [hmovement] at hfind
      refine .returned (h.asking hreturn) (hset ▸ goesOn_change (by intro; rfl)) rfl (fun id hold => ?_)
        ⟨_, (hfind _).trans (if_pos rfl), hphase movement.phase⟩
      obtain ⟨row, hrow, hrest⟩ := hold
      by_cases hid : id = controller.movementId
      · exact ⟨_, (hfind id).trans (if_pos hid), hphase movement.phase⟩
      · exact ⟨row, (hfind id).trans ((if_neg hid).trans hrow), hrest⟩
  | reading =>
    cases hstep
    exact readingStep_turn h controller
  | driving movement => cases hstep
  | driven movement evidence =>
    unfold World.controllerStep at hstep
    dsimp only at hstep
    split_ifs at hstep <;> cases hstep
    · exact turn_answer h _
    · exact turn_goOn h (afterDriver_sound _ _)
  | advancing source target evidence =>
    unfold World.controllerStep at hstep
    dsimp only at hstep
    cases hadvance : w.directory.advance controller.movementId source target evidence with
    | error message =>
      rw [hadvance] at hstep
      cases hstep
      exact turn_answer h _
    | ok directory =>
      rw [hadvance] at hstep
      cases hstep
      refine .silent (h.advancing hstage hadvance) (advance_goesOn hadvance) (List.append_nil _).symm
        (fun _ hevent => absurd hevent List.not_mem_nil) fun id hold => ?_
      obtain ⟨row, hrow, hsettled⟩ := hold
      obtain ⟨⟨movement, hmovement, hsource⟩, rfl⟩ := advance_ok hadvance
      have hid : id ≠ controller.movementId := by
        intro hid
        rw [hid, hmovement] at hrow
        cases hrow
        rw [hsource] at hsettled
        rcases hsettled with rfl | rfl <;> cases hstage
      refine ⟨row, ?_, hsettled⟩
      refine (Directory.movement?_set (by intro; rfl)).trans ?_
      rw [if_neg hid]
      exact hrow
  | activating returnEvidence =>
    cases hstep
    exact activatingStep_turn h controller returnEvidence
  | guarding movement returnEvidence =>
    cases hstep
    exact guardingStep_turn h hstage
  | placing movement returnEvidence guarded =>
    unfold World.controllerStep at hstep
    dsimp only at hstep
    split_ifs at hstep with hfree
    cases hstep
    exact placingStep_turn h hstage hfree
  | publishing movement returnEvidence =>
    cases hstep
    exact publishingStep_turn h hcall hcontroller hstage

theorem step_turn (h : WorldSound start w) (hstep : step w action = some w') : Turn start w action w' := by
  cases action with
  | begin session input =>
    unfold step at hstep
    dsimp only at hstep
    split_ifs at hstep <;> cases hstep
    · exact turn_setCall h trivial
    · exact turn_answer h _
  | resume session movementId canReturn returnToSource =>
    unfold step at hstep
    dsimp only at hstep
    split_ifs at hstep
    cases hstep
    exact turn_setCall h trivial
  | proceed session =>
    unfold step World.proceed at hstep
    dsimp only at hstep
    cases hcall : w.calls session with
    | none =>
      rw [hcall] at hstep
      cases hstep
    | some call =>
      rw [hcall] at hstep
      cases call with
      | begin input stage => exact beginStep_turn h (h.call session _ hcall) hstep
      | controller controller => exact controllerStep_turn h hcall hstep
  | drive session outcome =>
    unfold step World.drive at hstep
    dsimp only at hstep
    split at hstep
    · split at hstep
      · split at hstep <;> cases hstep
        · exact turn_answer h _
        · exact turn_goOn h trivial
      · cases hstep
    · cases hstep
  | lose session =>
    unfold step World.lose at hstep
    dsimp only at hstep
    split at hstep <;> cases hstep
    exact .silent (h.advisory _) goesOn_self (List.append_nil _).symm (fun _ hevent => absurd hevent List.not_mem_nil)
      fun _ hsettled => hsettled
  | notice session =>
    unfold step World.notice at hstep
    dsimp only at hstep
    split at hstep
    · rename_i controller hcall
      cases hstep
      have hstage : StageSound w session controller.stage := h.call session _ hcall
      exact turn_setCall h hstage
    · cases hstep
  | crash session =>
    cases hstep
    exact turn_answer h _

end Steps

end AvenOS.Provisioner
