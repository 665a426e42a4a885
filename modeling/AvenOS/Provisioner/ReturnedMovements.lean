import AvenOS.Provisioner.MovementDirectory
import Mathlib.Data.List.Induction

/-! # Movements that were told to return

The directory keeps its invariant in every run. A movement that was granted its return is not published to its
destination, exactly if every activation that commits finds the phase it has looked at. -/
namespace AvenOS.Provisioner
open KeyedTable LabelledRun

/-! ## The invariant -/

/-- Customers that have never been moved, and nobody at work. -/
structure World.Fresh (w : World) : Prop where
  environments : Keyed Environment.id w.directory.environments
  unmoved : ∀ environment ∈ w.directory.environments, environment.movementId = none
  movements : w.directory.movements = []
  calls : ∀ session, w.calls session = none
  events : w.events = []

structure DirectoryInvariant (start w : World) : Prop where
  /-- A movement before its publication is the one that its environment names. -/
  named : ∀ id movement environment, w.directory.movement? id = some movement →
    w.directory.environment? movement.environmentId = some environment →
    (movement.phase.pending = true ↔ environment.movementId = some id)
  target : ∀ environmentId environment id, w.directory.environment? environmentId = some environment →
    environment.movementId = some id →
    ∃ movement, w.directory.movement? id = some movement ∧ movement.environmentId = environmentId
  single : ∀ id other movement movement', w.directory.movement? id = some movement →
    w.directory.movement? other = some movement' → movement.environmentId = movement'.environmentId →
    movement.phase.pending = true → movement'.phase.pending = true → id = other
  /-- The generations of a customer rise, and the directory shows the last one with its runtime. -/
  placed : ∀ environmentId environment, w.directory.environment? environmentId = some environment →
    ∃ origin, start.directory.environment? environmentId = some origin ∧
      ((placements origin (publications w.events)).map Prod.fst).Pairwise (· < ·) ∧
      (placements origin (publications w.events)).getLast? =
        some (environment.routingGeneration, environment.runtimeId)
  oneRuntime : ∀ publication ∈ publications w.events, ∀ other ∈ publications w.events,
    publication.environmentId = other.environmentId → publication.generation = other.generation →
    publication.runtimeId = other.runtimeId
  once : (publications w.events).map Publication.movementId |>.Nodup
  outcome : ∀ publication ∈ publications w.events, ∃ movement,
    w.directory.movement? publication.movementId = some movement ∧ Outcome publication movement
  /-- Named no longer, and published: one commit does both. -/
  published : ∀ id movement environment, w.directory.movement? id = some movement →
    w.directory.environment? movement.environmentId = some environment →
    (environment.movementId ≠ some id ↔ ∃ publication ∈ publications w.events, publication.movementId = id)

theorem eq_of_rising {α : Type} {values : List (ℕ × α)} (h : (values.map Prod.fst).Pairwise (· < ·))
    {one other : ℕ × α} (hone : one ∈ values) (hother : other ∈ values) (hsame : one.1 = other.1) :
    one = other := by
  have hnodup : (values.map Prod.fst).Nodup := h.imp fun hlt => Nat.ne_of_lt hlt
  exact List.inj_on_of_nodup_map hnodup hone hother hsame

variable {start : World} {events more : List Event}

theorem WorldSound.invariant {w : World} (h : WorldSound start.directory w) : DirectoryInvariant start w where
  named := h.directory.named
  target := h.directory.target
  single id other movement movement' hid hother hsame hpending hpending' :=
    h.directory.active id other movement movement' hid hother hsame (MovementPhase.active_of_pending hpending)
      (MovementPhase.active_of_pending hpending')
  placed := h.directory.placed
  oneRuntime publication hpublication other hother hplace hgeneration := by
    obtain ⟨movement, hmovement, houtcome⟩ := h.directory.outcome publication hpublication
    obtain ⟨environment, henvironment⟩ := h.directory.environment _ movement hmovement
    obtain ⟨origin, horigin, hrising, -⟩ := h.directory.placed _ environment henvironment
    have hid : publication.environmentId = origin.id :=
      houtcome.environmentId.trans (Directory.environment?_id horigin).symm
    have hmem : ∀ published ∈ publications w.events, published.environmentId = origin.id →
        (published.generation, published.runtimeId) ∈ placements origin (publications w.events) :=
      fun published hpublished hhere => List.mem_cons_of_mem _ (List.mem_map.mpr
        ⟨published, List.mem_filter.mpr ⟨hpublished, decide_eq_true hhere⟩, rfl⟩)
    exact congrArg Prod.snd (eq_of_rising hrising (hmem publication hpublication hid)
      (hmem other hother (hplace.symm.trans hid)) hgeneration)
  once := h.directory.once
  outcome := h.directory.outcome
  published id movement environment hmovement henvironment := by
    rw [Ne, ← not_congr (h.directory.named id movement environment hmovement henvironment), Bool.not_eq_true]
    refine ⟨h.directory.ended id movement hmovement, fun ⟨publication, hpublication, hid⟩ => ?_⟩
    obtain ⟨other, hother, houtcome⟩ := h.directory.outcome publication hpublication
    rw [hid, hmovement] at hother
    cases hother
    exact houtcome.not_pending

theorem World.Fresh.sound (h : start.Fresh) : WorldSound start.directory start := by
  have hnone : ∀ id, start.directory.movement? id = none := by
    intro id
    rw [Directory.movement?, h.movements]
    rfl
  have hnever : ∀ {P : Prop} {id : String} {movement : Movement}, start.directory.movement? id = some movement → P := by
    intro P id movement hmovement
    rw [hnone] at hmovement
    cases hmovement
  refine ⟨?_, fun session call hcall => ?_⟩
  · rw [h.events]
    refine ⟨h.environments, ?_, fun _ _ hmovement => hnever hmovement, fun _ _ _ hmovement => hnever hmovement,
      fun _ environment _ henvironment hnamed => ?_, fun _ _ _ _ hmovement => hnever hmovement,
      fun _ _ hmovement => hnever hmovement, fun environmentId environment henvironment => ?_, List.nodup_nil,
      fun _ hpublication => absurd hpublication List.not_mem_nil, fun _ _ hmovement => hnever hmovement,
      fun _ _ _ hmovement => hnever hmovement, fun _ _ _ hmovement => hnever hmovement⟩
    · rw [h.movements]
      exact Keyed.nil
    · rw [h.unmoved environment (lookup_some henvironment).1] at hnamed
      cases hnamed
    · exact ⟨environment, henvironment, List.pairwise_singleton _ _, rfl⟩
  · rw [h.calls session] at hcall
    cases hcall

/-! ## Returns -/

def ReturnsKept (events : List Event) : Prop :=
  ∀ before id after, events = before ++ .returned id :: after →
    ∀ publication, .published publication ∈ after → publication.movementId = id → publication.returning = true

/-- An activation is about to commit whose movement is not any more in the phase it has looked at. -/
def Overtaken (w : World) (session : ℕ) : Prop :=
  ∃ movement, Committing w session movement none ∧
    ∃ row, w.directory.movement? movement.id = some row ∧ row.phase ≠ .verified

def Undisturbed (start : World) (actions : List Action) : Prop :=
  ∀ before session after w, actions = before ++ .proceed session :: after → run step start before = some w →
    ¬Overtaken w session

theorem ReturnsKept.prefix (h : ReturnsKept (events ++ more)) : ReturnsKept events := by
  intro before id after hsplit publication hpublication
  exact h before id (after ++ more) (by rw [hsplit, List.append_assoc, List.cons_append]) publication
    (List.mem_append_left _ hpublication)

theorem ReturnsKept.concat (h : ReturnsKept events) {event : Event}
    (hevent : ∀ publication, event = .published publication → publication.returning = false →
      .returned publication.movementId ∉ events) : ReturnsKept (events ++ [event]) := by
  intro before id after hsplit publication hpublication hid
  rcases concat_split hsplit with ⟨-, -, rfl⟩ | ⟨rest, rfl, hevents⟩
  · exact absurd hpublication List.not_mem_nil
  · rcases List.mem_append.mp hpublication with hold | hlast
    · exact h before id rest hevents publication hold hid
    · by_contra hforth
      refine hevent publication (List.mem_singleton.mp hlast).symm (Bool.not_eq_true _ |>.mp hforth) ?_
      rw [hevents, hid]
      exact List.mem_append_right _ List.mem_cons_self

theorem ReturnsKept.append_silent (h : ReturnsKept events) (hsilent : ∀ event ∈ more, event.silent = true) :
    ReturnsKept (events ++ more) := by
  induction more generalizing events with
  | nil =>
    rw [List.append_nil]
    exact h
  | cons event more ih =>
    have hfirst := hsilent event List.mem_cons_self
    rw [List.append_cons]
    refine ih (h.concat fun publication heq => ?_) fun other hother => hsilent other (List.mem_cons_of_mem _ hother)
    rw [heq] at hfirst
    cases hfirst

/-- What was granted is on its way, as long as nothing is overtaken. -/
def ReturnsSettle (w : World) : Prop := ∀ id, .returned id ∈ w.events → Settled w id

section Runs
variable {start w w' : World} {action : Action}

theorem ReturnsSettle.turn (h : ReturnsSettle w) (hturn : Turn start.directory w action w')
    (hundisturbed : ∀ session, action = .proceed session → ¬Overtaken w session) (hkept : ReturnsKept w.events) :
    ReturnsSettle w' ∧ ReturnsKept w'.events := by
  cases hturn with
  | @silent more hnext hgoes hevents hsilent hsettled =>
    rw [hevents]
    refine ⟨fun id hreturned => hsettled id (h id ?_), hkept.append_silent hsilent⟩
    rw [hevents] at hreturned
    refine (List.mem_append.mp hreturned).resolve_right fun hmore => ?_
    cases hsilent _ hmore
  | @returned returnedId hnext hgoes hevents hsettled hnew =>
    rw [hevents]
    refine ⟨fun id hreturned => ?_, hkept.concat fun publication heq => by cases heq⟩
    rw [hevents] at hreturned
    rcases List.mem_append.mp hreturned with hold | hlast
    · exact hsettled id (h id hold)
    · cases List.mem_singleton.mp hlast
      exact hnew
  | @published session movement returnEvidence hnext hgoes haction hcommitting hevents hsettled hback =>
    have hfresh : returnEvidence.isSome = false → .returned movement.id ∉ w.events := by
      intro hforth hreturned
      obtain ⟨row, hrow, hphase⟩ := h movement.id hreturned
      cases returnEvidence with
      | some evidence => cases hforth
      | none =>
        refine hundisturbed session haction ⟨movement, hcommitting, row, hrow, fun hverified => ?_⟩
        rw [hverified] at hphase
        rcases hphase with hphase | hphase <;> cases hphase
    rw [hevents]
    refine ⟨fun id hreturned => ?_, hkept.concat fun publication heq hforth => ?_⟩
    · rw [hevents] at hreturned
      have hold := (List.mem_append.mp hreturned).resolve_right fun hlast => by
        cases List.mem_singleton.mp hlast
      by_cases hid : id = movement.id
      · rw [hid] at hold ⊢
        refine hback ?_
        by_contra hforth
        exact hfresh (Bool.not_eq_true _ |>.mp hforth) hold
      · exact hsettled id hid (h id hold)
    · cases heq
      exact hfresh hforth

variable {session : ℕ} {actions : List Action}

theorem Overtaken.returned (hsound : WorldSound start.directory w) (h : Overtaken w session) :
    ∃ movement, Committing w session movement none ∧ .returned movement.id ∈ w.events := by
  obtain ⟨movement, hcommitting, row, hrow, hphase⟩ := h
  obtain ⟨controller, hcall, hcontroller⟩ := hcommitting.stage
  have hstage : StageSound w session controller.stage := hsound.call session _ hcall
  rw [hcontroller] at hstage
  obtain ⟨⟨other, hother, hbound⟩, ⟨-, environment, hhome, hactivatable⟩, hguarded⟩ := hstage
  rw [hrow] at hother
  cases hother
  refine ⟨movement, hcommitting, ?_⟩
  obtain ⟨other, hother, hguard⟩ := hguarded rfl
  rw [hrow] at hother
  cases hother
  have hpending : row.phase.pending = true :=
    (hsound.directory.named _ row environment hrow (hbound.environmentId ▸ hhome)).mpr
      (of_decide_eq_true hactivatable).1
  refine (hguard.resolve_left hphase).resolve_left fun hover => ?_
  rw [hpending] at hover
  cases hover

theorem Committing.publishes {movement : Movement} {returnEvidence : Option Actors.Record}
    (h : Committing w session movement returnEvidence) (hstep : step w (.proceed session) = some w') :
    w'.events = w.events ++ [.published (publishedAs movement returnEvidence.isSome)] := by
  obtain ⟨controller, hcall, hcontroller⟩ := h.stage
  unfold step World.proceed at hstep
  dsimp only at hstep
  rw [hcall] at hstep
  dsimp only at hstep
  rw [hcontroller] at hstep
  unfold World.controllerStep at hstep
  dsimp only at hstep
  cases hstep
  unfold World.publishingStep
  have hcomponents := h.components
  cases hverified : verifiedComponents movement.evidence (w.directory.requiredComponents movement.environmentId) with
  | error message =>
    rw [hverified] at hcomponents
    cases hcomponents
  | ok components => rfl

theorem run_sound (hstart : start.Fresh) (hrun : run step start actions = some w) : WorldSound start.directory w :=
  run_invariant (I := WorldSound start.directory) (P := fun _ => True)
    (fun _ _ _ _ hsound hstep => (step_turn hsound hstep).sound) (fun _ _ => trivial) hstart.sound hrun

theorem run_grows (hsound : WorldSound start.directory w) (hrun : run step w actions = some w') :
    ∃ more, w'.events = w.events ++ more := by
  refine run_relates (I := WorldSound start.directory) (P := fun _ => True)
    (R := fun w w' => ∃ more, w'.events = w.events ++ more)
    (fun _ _ _ _ hsound hstep => (step_turn hsound hstep).sound) (fun _ => ⟨[], (List.append_nil _).symm⟩)
    (fun _ _ _ ⟨one, hone⟩ ⟨other, hother⟩ => ⟨one ++ other, by rw [hother, hone, List.append_assoc]⟩)
    (fun _ _ _ _ hsound hstep => (step_turn hsound hstep).grows) (fun _ _ => trivial) hsound hrun

theorem run_settles (hstart : start.Fresh) (hrun : run step start actions = some w)
    (hundisturbed : Undisturbed start actions) : ReturnsSettle w ∧ ReturnsKept w.events := by
  induction actions using List.reverseRecOn generalizing w with
  | nil =>
    cases hrun
    rw [ReturnsSettle, hstart.events]
    exact ⟨fun _ hreturned => absurd hreturned List.not_mem_nil, fun before id after hsplit => by
      cases before <;> cases hsplit⟩
  | append_singleton actions action ih =>
    obtain ⟨before, hbefore, hstep⟩ := run_snoc hrun
    have hsound := run_sound hstart hbefore
    obtain ⟨hsettle, hkept⟩ := ih hbefore fun earlier session after mid hsplit =>
      hundisturbed earlier session (after ++ [action]) mid (by rw [hsplit, List.append_assoc, List.cons_append])
    refine hsettle.turn (step_turn hsound hstep) (fun session haction => ?_) hkept
    exact hundisturbed actions session [] before (by rw [haction]) hbefore

/-- The directory keeps its invariant in every run; and no movement that was granted its return is published to
its destination, if and only if no activation commits over a phase that has changed since it looked. -/
theorem movement_directory {actions : List Action} (hstart : start.Fresh)
    (hrun : run step start actions = some w) :
    DirectoryInvariant start w ∧ (ReturnsKept w.events ↔ Undisturbed start actions) := by
  refine ⟨(run_sound hstart hrun).invariant, fun hkept before session after mid hsplit hmid hovertaken => ?_,
    fun hundisturbed => (run_settles hstart hrun hundisturbed).2⟩
  obtain ⟨movement, hcommitting, hreturned⟩ := hovertaken.returned (run_sound hstart hmid)
  rw [hsplit, run_append, hmid] at hrun
  obtain ⟨next, hnext, hrest⟩ := run_cons hrun
  have hsound := (step_turn (run_sound hstart hmid) hnext).sound
  obtain ⟨more, hmore⟩ := run_grows hsound hrest
  obtain ⟨earlier, later, hevents⟩ := List.append_of_mem hreturned
  rw [hmore, hcommitting.publishes hnext] at hkept
  have hback := hkept.prefix earlier movement.id (later ++ [.published (publishedAs movement false)])
    (by rw [hevents, List.append_assoc, List.cons_append]; rfl) (publishedAs movement false)
    (List.mem_append_right _ (List.mem_singleton_self _)) rfl
  cases hback

end Runs

/-! ## A return in between -/

def oneCustomer : World where
  directory :=
    { runtimes := [⟨"a", some "release-a", false⟩, ⟨"b", some "release-b", false⟩]
      environments := [⟨"customer", "a", 1, none, .ready, .ready⟩]
      movements := []
      components := []
      operations := [] }
  advisory := fun _ => none
  locked := fun _ => none
  calls := fun _ => none
  events := []

theorem oneCustomer_fresh : oneCustomer.Fresh where
  environments := List.nodup_singleton _
  unmoved environment henvironment := by rw [List.mem_singleton.mp henvironment]
  movements := rfl
  calls _ := rfl
  events := rfl

def verifiedCore : Actors.Record :=
  [("verifiedComponents", .arr [.obj [("component_ref", .str "core"), ("schema_version", .num 1),
    ("migration_set_digest", .str "0000000000000000000000000000000000000000000000000000000000000000")]])]

/-- One round of the loop: read, drive, check the signal, and the statement that follows. -/
def oneRound (session : ℕ) (evidence : Actors.Record) : List Action :=
  [.proceed session, .drive session (.ok evidence), .proceed session, .proceed session]

def moveUntilPlaced : List Action :=
  .begin 0 ⟨"move", "customer", "a", "b", 1, none, false⟩ :: List.replicate 4 (.proceed 0) ++
    [.resume 1 "move" true false, .proceed 1] ++ oneRound 1 [] ++ oneRound 1 [] ++ oneRound 1 verifiedCore ++
    oneRound 1 [] ++ [.proceed 1, .proceed 1]

/-- The controller has lost its lock, another one is granted the return, and the first one commits. -/
def overtakenReturn : List Action :=
  moveUntilPlaced ++ [.lose 1, .resume 2 "move" true true, .proceed 2, .proceed 2, .proceed 1]

theorem movement_directory_published :
    ∃ w, run step oneCustomer (moveUntilPlaced ++ [.proceed 1]) = some w ∧ DirectoryInvariant oneCustomer w ∧
      (ReturnsKept w.events ↔ Undisturbed oneCustomer (moveUntilPlaced ++ [.proceed 1])) := by
  have hruns : (run step oneCustomer (moveUntilPlaced ++ [.proceed 1])).isSome = true := by decide +kernel
  obtain ⟨w, hw⟩ := Option.isSome_iff_exists.mp hruns
  exact ⟨w, hw, movement_directory oneCustomer_fresh hw⟩

/-- A movement whose return has been granted is published to its destination. -/
theorem return_overtaken : ∃ w, run step oneCustomer overtakenReturn = some w ∧ ¬ReturnsKept w.events := by
  have hevents : (run step oneCustomer overtakenReturn).map World.events =
      some [.began "move", .answered 0 (.ok "move"), .returned "move",
        .published ⟨"move", "customer", "b", 2, false⟩] := by decide +kernel
  obtain ⟨w, hw, hlog⟩ := Option.map_eq_some_iff.mp hevents
  refine ⟨w, hw, fun hkept => ?_⟩
  rw [hlog] at hkept
  have hback := hkept [.began "move", .answered 0 (.ok "move")] "move"
    [.published ⟨"move", "customer", "b", 2, false⟩] rfl ⟨"move", "customer", "b", 2, false⟩
    (List.mem_singleton_self _) rfl
  cases hback

end AvenOS.Provisioner
