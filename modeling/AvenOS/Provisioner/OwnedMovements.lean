import AvenOS.Provisioner.MovementDirectory

/-! # Controllers that keep their lock

As long as no directory connection is lost, nobody but the controller changes its movement. -/
namespace AvenOS.Provisioner
open KeyedTable

/-! ## Facts -/

def Shows (w : World) (movementId : String) (phase : MovementPhase) : Prop :=
  ∃ row, w.directory.movement? movementId = some row ∧ row.phase = phase

def Reads (w : World) (movementId : String) (movement : Movement) : Prop :=
  w.directory.movement? movementId = some movement ∧ movement.phase.active = true

def StageOwns (w : World) (session : ℕ) (movementId : String) : ControllerStage → Prop
  | .claiming => True
  | .asking => w.advisory movementId = some session
  | .reading => w.advisory movementId = some session
  | .driving movement => w.advisory movementId = some session ∧ Reads w movementId movement
  | .driven movement _ => w.advisory movementId = some session ∧ Reads w movementId movement
  | .advancing source _ _ => w.advisory movementId = some session ∧ Shows w movementId source
  | .activating returnEvidence =>
    w.advisory movementId = some session ∧ Shows w movementId (guardedPhase returnEvidence)
  | .guarding movement returnEvidence => w.advisory movementId = some session ∧
    Shows w movementId (guardedPhase returnEvidence) ∧ movement.id = movementId
  | .placing movement returnEvidence _ => w.advisory movementId = some session ∧
    Shows w movementId (guardedPhase returnEvidence) ∧ movement.id = movementId
  | .publishing movement returnEvidence => w.advisory movementId = some session ∧
    Shows w movementId (guardedPhase returnEvidence) ∧ movement.id = movementId

def CallOwns (w : World) (session : ℕ) : Call → Prop
  | .begin _ (.recording (some retained)) => w.advisory retained.id = some session
  | .begin _ _ => True
  | .controller controller => StageOwns w session controller.movementId controller.stage

def WorldOwned (w : World) : Prop := ∀ session call, w.calls session = some call → CallOwns w session call

/-- A step of one call takes no lock from the others, and changes no movement that they have locked. -/
structure Leaves (session : ℕ) (w w' : World) : Prop where
  advisory : ∀ other, other ≠ session → ∀ id, w.advisory id = some other → w'.advisory id = some other
  movements : ∀ other, other ≠ session → ∀ id, w.advisory id = some other →
    ∀ row, w.directory.movement? id = some row → w'.directory.movement? id = some row

section Others
variable {w w' : World} {session other : ℕ}

theorem Shows.left (hleaves : Leaves session w w') (hother : other ≠ session) {id : String}
    (hlock : w.advisory id = some other) {phase : MovementPhase} (h : Shows w id phase) : Shows w' id phase := by
  obtain ⟨row, hrow, hphase⟩ := h
  exact ⟨row, hleaves.movements other hother id hlock row hrow, hphase⟩

theorem Reads.left (hleaves : Leaves session w w') (hother : other ≠ session) {id : String}
    (hlock : w.advisory id = some other) {movement : Movement} (h : Reads w id movement) : Reads w' id movement :=
  ⟨hleaves.movements other hother id hlock movement h.1, h.2⟩

theorem StageOwns.left {id : String} {stage : ControllerStage} (h : StageOwns w other id stage)
    (hleaves : Leaves session w w') (hother : other ≠ session) : StageOwns w' other id stage := by
  have hlock := hleaves.advisory other hother id
  cases stage with
  | claiming => trivial
  | asking => exact hlock h
  | reading => exact hlock h
  | driving movement => exact ⟨hlock h.1, h.2.left hleaves hother h.1⟩
  | driven movement evidence => exact ⟨hlock h.1, h.2.left hleaves hother h.1⟩
  | advancing source target evidence => exact ⟨hlock h.1, h.2.left hleaves hother h.1⟩
  | activating returnEvidence => exact ⟨hlock h.1, h.2.left hleaves hother h.1⟩
  | guarding movement returnEvidence => exact ⟨hlock h.1, h.2.1.left hleaves hother h.1, h.2.2⟩
  | placing movement returnEvidence guarded => exact ⟨hlock h.1, h.2.1.left hleaves hother h.1, h.2.2⟩
  | publishing movement returnEvidence => exact ⟨hlock h.1, h.2.1.left hleaves hother h.1, h.2.2⟩

variable {call : Call}

theorem CallOwns.left (h : CallOwns w other call) (hleaves : Leaves session w w') (hother : other ≠ session) :
    CallOwns w' other call := by
  cases call with
  | controller controller => exact StageOwns.left h hleaves hother
  | begin input stage =>
    cases stage with
    | recording retained =>
      cases retained with
      | none => trivial
      | some retained => exact hleaves.advisory other hother _ h
    | locking => trivial
    | looking environment => trivial
    | checking => trivial
    | retaining => trivial
    | claiming retained => trivial

theorem WorldOwned.next (h : WorldOwned w) (session : ℕ) (hleaves : Leaves session w w')
    (hcalls : ∀ other, other ≠ session → w'.calls other = w.calls other)
    (hown : ∀ call, w'.calls session = some call → CallOwns w' session call) : WorldOwned w' := by
  intro other call hcall
  by_cases hother : other = session
  · rw [hother] at hcall ⊢
    exact hown call hcall
  · rw [hcalls other hother] at hcall
    exact (h other call hcall).left hleaves hother

theorem WorldOwned.answer (h : WorldOwned w) (outcome : Except String String) : WorldOwned (w.answer session outcome) :=
  h.next session ⟨fun _ hother _ hlock => release_other hother hlock, fun _ _ _ _ _ hrow => hrow⟩
    (fun _ hother => update_other hother) fun call hcall => by
      rw [answer_calls] at hcall
      cases hcall

theorem WorldOwned.setCall (h : WorldOwned w) (hcall : CallOwns w session call) :
    WorldOwned (w.setCall session call) := by
  refine h.next session ⟨fun _ _ _ hlock => hlock, fun _ _ _ _ _ hrow => hrow⟩
    (fun _ hother => update_other hother) fun call' hcall' => ?_
  rw [setCall_calls] at hcall'
  cases hcall'
  exact hcall

theorem WorldOwned.lockRow (h : WorldOwned w) {id : String} (hcall : CallOwns w session call) :
    WorldOwned ((w.lockRow session id).setCall session call) :=
  h.setCall hcall

theorem WorldOwned.lockMovement (h : WorldOwned w) {id : String} (hfree : World.free session w.advisory id)
    (hcall : CallOwns (w.lockMovement session id) session call) :
    WorldOwned ((w.lockMovement session id).setCall session call) := by
  refine h.next session ⟨fun _ hother _ => locked_other hfree hother, fun _ _ _ _ _ hrow => hrow⟩
    (fun _ hother => update_other hother) fun call' hcall' => ?_
  rw [setCall_calls] at hcall'
  cases hcall'
  exact hcall

theorem WorldOwned.reading (h : WorldOwned w) {controller : Controller}
    (hlock : w.advisory controller.movementId = some session) (hadvisory : w'.advisory = w.advisory)
    (hmovements : ∀ id, id ≠ controller.movementId → w'.directory.movement? id = w.directory.movement? id)
    (hcalls : w'.calls = w.calls) : WorldOwned (w'.goOn session controller .reading) := by
  refine h.next session ⟨fun _ _ _ hother => ?_, fun other hother id hheld row hrow => ?_⟩
    (fun other hother => ?_) fun call hcall => ?_
  · change w'.advisory _ = _
    rw [hadvisory]
    exact hother
  · have hid : id ≠ controller.movementId := by
      intro hid
      rw [hid, hlock] at hheld
      exact hother (Option.some.inj hheld).symm
    exact (hmovements id hid).trans hrow
  · exact (update_other hother).trans (congrFun hcalls other)
  · rw [World.goOn, setCall_calls] at hcall
    cases hcall
    change w'.advisory _ = _
    rw [hadvisory]
    exact hlock

end Others

/-! ## Steps -/

section Steps
variable {start : Directory} {w w' : World} {session : ℕ}

variable {input : BeginInput} {movement : Movement}

theorem WorldOwned.recording (h : WorldOwned w) {retained : Option Movement} {d' : Directory}
    (hown : CallOwns w session (.begin input (.recording retained)))
    (hplace : w.directory.place input retained = .ok d') (events : List Event) (outcome : Except String String) :
    WorldOwned ((w.commit session d' events).answer session outcome) := by
  obtain ⟨inserted, hinserted, rfl⟩ := place_ok hplace
  obtain ⟨hnew, -, rfl⟩ := insertMovement_ok hinserted
  refine h.next session ⟨fun _ hother _ hlock => release_other hother hlock,
    fun other hother id hlock row hrow => ?_⟩ (fun _ hother => update_other hother) fun call hcall => ?_
  · have hkept : (w.directory.supersede retained).movement? id = some row := by
      cases retained with
      | none => exact hrow
      | some retained =>
        have hid : id ≠ retained.id := by
          intro hid
          rw [hid, show w.advisory retained.id = some session from hown] at hlock
          exact hother (Option.some.inj hlock).symm
        unfold Directory.supersede
        dsimp only
        split_ifs
        · rw [Directory.movement?_set fun row => congrArg Route.id (superseded_route row), if_neg hid]
          exact hrow
        · exact hrow
    refine (movement?_insert hnew id).trans ((if_neg fun hid => ?_).trans hkept)
    rw [hid, hnew] at hkept
    cases hkept
  · rw [answer_calls] at hcall
    cases hcall

theorem beginStep_owned (h : WorldOwned w) {stage : BeginStage} (hown : CallOwns w session (.begin input stage))
    (hstep : w.beginStep session input stage = some w') : WorldOwned w' := by
  cases stage with
  | locking =>
    unfold World.beginStep at hstep
    dsimp only at hstep
    split_ifs at hstep
    cases hrow : w.directory.environment? input.environmentId with
    | none =>
      rw [hrow] at hstep
      cases hstep
      exact h.setCall trivial
    | some environment =>
      rw [hrow] at hstep
      cases hstep
      exact h.lockRow trivial
  | looking environment =>
    cases hstep
    unfold World.lookingStep
    split
    · split_ifs
      · exact h.answer _
      · exact h.answer _
    · split
      · exact h.answer _
      · split_ifs
        · exact h.setCall trivial
        · exact h.answer _
  | checking =>
    cases hstep
    unfold World.checkingStep
    split_ifs
    · exact h.answer _
    · exact h.answer _
    · exact h.setCall trivial
    · exact h.answer _
    · exact h.setCall trivial
  | retaining =>
    cases hstep
    unfold World.retainingStep
    split
    · exact h.setCall trivial
    · exact h.answer _
  | claiming retained =>
    unfold World.beginStep at hstep
    dsimp only at hstep
    split_ifs at hstep with hfree <;> cases hstep
    · exact h.lockMovement hfree (Function.update_self _ _ _)
    · exact h.answer _
  | recording retained =>
    unfold World.beginStep at hstep
    dsimp only at hstep
    cases hplace : w.directory.place input retained with
    | error message =>
      rw [hplace] at hstep
      cases hstep
      exact h.answer _
    | ok directory =>
      rw [hplace] at hstep
      cases hstep
      exact h.recording hown hplace _ _

theorem movement?_set_other {d : Directory} {id other : String} {f : Movement → Movement}
    (hf : ∀ row, (f row).id = row.id) (hother : other ≠ id) :
    (d.setMovement id f).movement? other = d.movement? other := by
  rw [Directory.movement?_set hf, if_neg hother]

theorem afterDriver_owned {movementId : String} {evidence : Actors.Record}
    (hlock : w.advisory movementId = some session) (hreads : Reads w movementId movement) :
    StageOwns w session movementId (World.afterDriver movement.phase evidence) := by
  obtain ⟨hrow, hactive⟩ := hreads
  unfold World.afterDriver
  cases hphase : movement.phase <;> rw [hphase] at hactive
  case paused => exact ⟨hlock, movement, hrow, hphase⟩
  case fenced => exact ⟨hlock, movement, hrow, hphase⟩
  case copied => exact ⟨hlock, movement, hrow, hphase⟩
  case verified => exact ⟨hlock, movement, hrow, hphase⟩
  case returning => exact ⟨hlock, movement, hrow, hphase⟩
  case activated => exact ⟨hlock, movement, hrow, hphase⟩
  case completed => cases hactive
  case cancelled => cases hactive
  case superseded => cases hactive

theorem open_phase {row : Movement} {returnEvidence : Option Actors.Record}
    (h : openActivation row returnEvidence = .ok movement) : movement.id = row.id := (bound_open h).id

theorem controllerStep_owned (h : WorldOwned w) {controller : Controller}
    (hown : StageOwns w session controller.movementId controller.stage)
    (hstep : w.controllerStep session controller controller.stage = some w') : WorldOwned w' := by
  generalize hcontroller : controller.stage = stage at hstep hown
  cases stage with
  | claiming =>
    unfold World.controllerStep at hstep
    dsimp only at hstep
    split_ifs at hstep with hfree <;> cases hstep
    · exact h.lockMovement hfree (Function.update_self _ _ _)
    · exact h.answer _
    · exact h.lockMovement hfree (Function.update_self _ _ _)
    · exact h.answer _
  | asking =>
    unfold World.controllerStep at hstep
    dsimp only at hstep
    cases hreturn : w.directory.requestReturn controller.movementId with
    | error message =>
      rw [hreturn] at hstep
      cases hstep
      exact h.answer _
    | ok directory =>
      rw [hreturn] at hstep
      cases hstep
      obtain ⟨-, rfl⟩ := requestReturn_ok hreturn
      refine h.reading hown rfl (fun id hid => ?_) rfl
      exact movement?_set_other (by intro; rfl) hid
  | reading =>
    cases hstep
    unfold World.readingStep
    split_ifs
    · exact h.answer _
    · cases hmovement : w.directory.movement? controller.movementId with
      | none => exact h.answer _
      | some movement =>
        dsimp only
        split_ifs with hactive
        · exact h.answer _
        · exact h.setCall ⟨hown, hmovement, hactive⟩
        · exact h.answer _
  | driving movement => cases hstep
  | driven movement evidence =>
    unfold World.controllerStep at hstep
    dsimp only at hstep
    split_ifs at hstep <;> cases hstep
    · exact h.answer _
    · exact h.setCall (afterDriver_owned hown.1 hown.2)
  | advancing source target evidence =>
    unfold World.controllerStep at hstep
    dsimp only at hstep
    cases hadvance : w.directory.advance controller.movementId source target evidence with
    | error message =>
      rw [hadvance] at hstep
      cases hstep
      exact h.answer _
    | ok directory =>
      rw [hadvance] at hstep
      cases hstep
      obtain ⟨-, rfl⟩ := advance_ok hadvance
      refine h.reading hown.1 rfl (fun id hid => ?_) rfl
      exact movement?_set_other (by intro; rfl) hid
  | activating returnEvidence =>
    cases hstep
    unfold World.activatingStep
    cases hmovement : w.directory.movement? controller.movementId with
    | none => exact h.answer _
    | some row =>
      dsimp only
      cases hopen : openActivation row returnEvidence with
      | error message => exact h.answer _
      | ok movement =>
        exact h.setCall ⟨hown.1, hown.2, (open_phase hopen).trans (Directory.movement?_id hmovement)⟩
  | guarding movement returnEvidence =>
    cases hstep
    exact h.setCall hown
  | placing movement returnEvidence guarded =>
    unfold World.controllerStep at hstep
    dsimp only at hstep
    split_ifs at hstep
    cases hstep
    unfold World.placingStep
    split_ifs
    · exact h.lockRow hown
    · exact h.answer _
  | publishing movement returnEvidence =>
    cases hstep
    unfold World.publishingStep
    cases verifiedComponents movement.evidence (w.directory.requiredComponents movement.environmentId) with
    | error message => exact h.answer _
    | ok components =>
      refine h.reading hown.1 rfl (fun id hid => ?_) rfl
      exact (publish_movement? w.directory movement returnEvidence components id).trans
        (if_neg fun hsame => hid (hsame.trans hown.2.2))

/-- Not the loss of a directory connection. -/
def Action.connected : Action → Bool
  | .lose _ => false
  | _ => true

theorem step_owned (h : WorldOwned w) {action : Action} (hconnected : action.connected = true)
    (hstep : step w action = some w') : WorldOwned w' := by
  cases action with
  | begin session input =>
    unfold step at hstep
    dsimp only at hstep
    split_ifs at hstep <;> cases hstep
    · exact h.setCall trivial
    · exact h.answer _
  | resume session movementId canReturn returnToSource =>
    unfold step at hstep
    dsimp only at hstep
    split_ifs at hstep
    cases hstep
    exact h.setCall trivial
  | proceed session =>
    unfold step World.proceed at hstep
    dsimp only at hstep
    cases hcall : w.calls session with
    | none =>
      rw [hcall] at hstep
      cases hstep
    | some call =>
      rw [hcall] at hstep
      cases call with
      | begin input stage => exact beginStep_owned h (h session _ hcall) hstep
      | controller controller => exact controllerStep_owned h (h session _ hcall) hstep
  | drive session outcome =>
    unfold step World.drive at hstep
    dsimp only at hstep
    split at hstep
    · rename_i controller hcall
      have hown : StageOwns w session controller.movementId controller.stage := h session _ hcall
      split at hstep
      · rename_i movement hstage
        rw [hstage] at hown
        split at hstep <;> cases hstep
        · exact h.answer _
        · exact h.setCall hown
      · cases hstep
    · cases hstep
  | lose session => cases hconnected
  | notice session =>
    unfold step World.notice at hstep
    dsimp only at hstep
    split at hstep
    · rename_i controller hcall
      cases hstep
      have hown : StageOwns w session controller.movementId controller.stage := h session _ hcall
      exact h.setCall hown
    · cases hstep
  | crash session =>
    cases hstep
    exact h.answer _

end Steps

end AvenOS.Provisioner
