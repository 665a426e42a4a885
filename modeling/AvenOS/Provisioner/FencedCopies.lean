import AvenOS.Provisioner.CustomerCopies
import AvenOS.Provisioner.ReturnedMovements

/-! # Fenced copies

What is known of the copies while the calls move: whatever may execute is where the directory says, and the
source of a movement between its fence and its publication is paused. -/
namespace AvenOS.Provisioner
open LabelledRun

/-! ## Facts -/

/-- Whatever may execute is where the directory says, for the generation it says. -/
def Live (directory : Directory) (databases : Databases) : Prop :=
  ∀ runtimeId environmentId copy, databases.copies runtimeId environmentId = some copy →
    copy.executionEnabled = true → ∃ environment, directory.environment? environmentId = some environment ∧
      environment.runtimeId = runtimeId ∧ environment.routingGeneration = copy.routingGeneration

def SourcePaused (databases : Databases) (movement : Movement) : Prop :=
  Paused databases movement.sourceRuntimeId movement.environmentId

def MovementPaused (directory : Directory) (databases : Databases) (movementId : String) : Prop :=
  ∃ row, directory.movement? movementId = some row ∧ SourcePaused databases row

def MovementPhase.fencing : MovementPhase → Bool
  | .fenced | .copied | .verified => true
  | _ => false

theorem MovementPhase.fencing_active {phase : MovementPhase} (h : phase.fencing = true) : phase.active = true := by
  cases phase <;> cases h <;> rfl

/-- How far a driver has come in its program, and what is known from there on. -/
def DriverSound (databases : Databases) (movement : Movement) (ops : List DriverOp) : Prop :=
  ∃ n, ops = (driverProgram movement).drop n ∧
    (movement.phase = .paused → 2 ≤ n → SourcePaused databases movement) ∧
    (movement.phase = .copied → 2 ≤ n → (databases.copy? movement true).isSome = true) ∧
    (movement.phase = .returning → 5 ≤ n → SourcePaused databases movement)

def StageDriven (directory : Directory) (databases : Databases) (ops : List DriverOp) (movementId : String) :
    ControllerStage → Prop
  | .driving movement => DriverSound databases movement ops
  | .driven movement _ => movement.phase = .paused ∨ movement.phase = .returning → SourcePaused databases movement
  | .advancing source _ _ => source = .paused → MovementPaused directory databases movementId
  | .activating returnEvidence => returnEvidence.isSome = true → MovementPaused directory databases movementId
  | .guarding _ returnEvidence => returnEvidence.isSome = true → MovementPaused directory databases movementId
  | .placing _ returnEvidence _ => returnEvidence.isSome = true → MovementPaused directory databases movementId
  | .publishing _ returnEvidence => returnEvidence.isSome = true → MovementPaused directory databases movementId
  | _ => True

structure CustomerSound (start : Directory) (w : CustomerWorld) : Prop where
  sound : WorldSound start w.world
  owned : WorldOwned w.world
  live : Live w.world.directory w.databases
  archives : ∀ id archive, w.databases.archives id = some archive → archive.executionEnabled = false
  fenced : ∀ id row, w.world.directory.movement? id = some row → row.phase.fencing = true →
    SourcePaused w.databases row
  call : ∀ session controller, w.world.calls session = some (.controller controller) →
    StageDriven w.world.directory w.databases (w.work session) controller.movementId controller.stage

/-! ## Steps of the directory -/

variable {databases : Databases} {d : Directory} {id : String}

theorem SourcePaused.goesOn {movement next : Movement} (h : SourcePaused databases movement)
    (hroute : next.route = movement.route) : SourcePaused databases next := by
  have hsource : next.sourceRuntimeId = movement.sourceRuntimeId := congrArg Route.sourceRuntimeId hroute
  have henvironment : next.environmentId = movement.environmentId := congrArg Route.environmentId hroute
  rw [SourcePaused, hsource, henvironment]
  exact h

theorem MovementPaused.goesOn {d' : Directory}
    (h : MovementPaused d databases id) (hgoes : GoesOn d d') : MovementPaused d' databases id := by
  obtain ⟨row, hrow, hpaused⟩ := h
  obtain ⟨next, hnext, hroute⟩ := hgoes id row hrow
  exact ⟨next, hnext, hpaused.goesOn hroute⟩

theorem StageDriven.goesOn {d' : Directory} {ops : List DriverOp}
    {stage : ControllerStage} (h : StageDriven d databases ops id stage) (hgoes : GoesOn d d') :
    StageDriven d' databases ops id stage := by
  cases stage with
  | claiming => trivial
  | asking => trivial
  | reading => trivial
  | driving movement => exact h
  | driven movement evidence => exact h
  | advancing source target evidence => exact fun hpaused => (h hpaused).goesOn hgoes
  | activating returnEvidence => exact fun hback => (h hback).goesOn hgoes
  | guarding movement returnEvidence => exact fun hback => (h hback).goesOn hgoes
  | placing movement returnEvidence guarded => exact fun hback => (h hback).goesOn hgoes
  | publishing movement returnEvidence => exact fun hback => (h hback).goesOn hgoes

theorem superseded_from {retained : Option Movement} {next : Movement}
    (h : (d.supersede retained).movement? id = some next) :
    ∃ row, d.movement? id = some row ∧ next.route = row.route ∧
      (next.phase.fencing = true → next.phase = row.phase) := by
  rcases supersede_cases d retained with hsame | ⟨other, hset⟩
  · rw [hsame] at h
    exact ⟨next, h, rfl, fun _ => rfl⟩
  · rw [hset, Directory.movement?_set fun row => congrArg Route.id (superseded_route row)] at h
    by_cases hid : id = other
    · rw [if_pos hid] at h
      obtain ⟨row, hrow, rfl⟩ := Option.map_eq_some_iff.mp h
      refine ⟨row, hid ▸ hrow, superseded_route row, fun hfencing => ?_⟩
      by_cases hactivated : row.phase = .activated
      · rw [if_pos hactivated] at hfencing
        cases hfencing
      · rw [if_neg hactivated]
    · rw [if_neg hid] at h
      exact ⟨next, h, rfl, fun _ => rfl⟩

section Directory
variable {start : Directory} {w : CustomerWorld} {world : World} {session : ℕ}

variable {other : ℕ} {controller : Controller} {movement : Movement} {events : List Event}

theorem driving?_other (hcalls : world.calls other = w.world.calls other) :
    world.driving? other = w.world.driving? other := by
  unfold World.driving?
  rw [hcalls]

theorem driving?_eq {w : World}
    (hcall : w.calls session = some (.controller controller)) (hstage : controller.stage = .driving movement) :
    w.driving? session = some movement := by
  unfold World.driving?
  rw [hcall]
  dsimp only
  rw [hstage]

theorem driving?_some {w : World} (h : w.driving? session = some movement) :
    ∃ controller, w.calls session = some (.controller controller) ∧ controller.stage = .driving movement := by
  unfold World.driving? at h
  split at h
  · rename_i controller hcall
    split at h
    · rename_i found hstage
      cases h
      exact ⟨controller, hcall, hstage⟩
    · cases h
  · cases h

theorem follow_going {next : Movement}
    (hcall : w.world.calls other = some (.controller controller)) (hstage : controller.stage = .driving movement)
    (hnow : world.driving? other = some next) : (w.follow world).work other = w.work other := by
  unfold CustomerWorld.follow
  dsimp only
  rw [hnow, driving?_eq hcall hstage]
  rfl

theorem follow_work (hcalls : world.calls other = w.world.calls other)
    (hcall : w.world.calls other = some (.controller controller)) (hstage : controller.stage = .driving movement) :
    (w.follow world).work other = w.work other :=
  follow_going hcall hstage ((driving?_other hcalls).trans (driving?_eq hcall hstage))

theorem follow_start (hbefore : w.world.driving? session = none) (hnow : world.driving? session = some movement) :
    (w.follow world).work session = driverProgram movement := by
  unfold CustomerWorld.follow
  dsimp only
  rw [hnow, hbefore]
  rfl

theorem StageDriven.work {d : Directory} {databases : Databases} {ops ops' : List DriverOp} {id : String}
    {stage : ControllerStage} (h : StageDriven d databases ops id stage)
    (hsame : ∀ movement, stage = .driving movement → ops' = ops) : StageDriven d databases ops' id stage := by
  cases stage with
  | driving movement =>
    rw [hsame movement rfl]
    exact h
  | claiming => trivial
  | asking => trivial
  | reading => trivial
  | driven movement evidence => exact h
  | advancing source target evidence => exact h
  | activating returnEvidence => exact h
  | guarding movement returnEvidence => exact h
  | placing movement returnEvidence guarded => exact h
  | publishing movement returnEvidence => exact h

section
variable (h : CustomerSound start w)
include h

theorem CustomerSound.next (session : ℕ) (hsound : WorldSound start world)
    (howned : WorldOwned world) (hgoes : GoesOn w.world.directory world.directory)
    (hlive : Live world.directory w.databases)
    (hfenced : ∀ id row, world.directory.movement? id = some row → row.phase.fencing = true →
      SourcePaused w.databases row)
    (hcalls : ∀ other, other ≠ session → world.calls other = w.world.calls other)
    (hown : ∀ controller, world.calls session = some (.controller controller) →
      StageDriven world.directory w.databases ((w.follow world).work session) controller.movementId
        controller.stage) : CustomerSound start (w.follow world) := by
  refine ⟨hsound, howned, hlive, h.archives, hfenced, fun other controller hcall => ?_⟩
  by_cases hother : other = session
  · rw [hother] at hcall ⊢
    exact hown controller hcall
  · have hold : w.world.calls other = some (.controller controller) := (hcalls other hother).symm.trans hcall
    exact ((h.call other controller hold).goesOn hgoes).work fun movement hstage =>
      follow_work (hcalls other hother) hold hstage

theorem CustomerSound.still (session : ℕ) (hsound : WorldSound start world)
    (howned : WorldOwned world) (hdirectory : world.directory = w.world.directory)
    (hcalls : ∀ other, other ≠ session → world.calls other = w.world.calls other)
    (hown : ∀ controller, world.calls session = some (.controller controller) →
      StageDriven w.world.directory w.databases ((w.follow world).work session) controller.movementId
        controller.stage) : CustomerSound start (w.follow world) := by
  refine h.next session hsound howned ?_ ?_ ?_ hcalls ?_
  · rw [hdirectory]
    exact goesOn_self
  · rw [hdirectory]
    exact h.live
  · rw [hdirectory]
    exact h.fenced
  · rw [hdirectory]
    exact hown

theorem CustomerSound.answer {outcome : Except String String}
    (hsound : WorldSound start (w.world.answer session outcome))
    (howned : WorldOwned (w.world.answer session outcome)) :
    CustomerSound start (w.follow (w.world.answer session outcome)) :=
  h.still session hsound howned rfl (fun _ hother => update_other hother) fun controller hcall => by
    rw [answer_calls] at hcall
    cases hcall

theorem CustomerSound.setCall (next : World) {call : Call}
    (hdirectory : next.directory = w.world.directory) (hcalls : next.calls = w.world.calls)
    (hsound : WorldSound start (next.setCall session call)) (howned : WorldOwned (next.setCall session call))
    (hown : ∀ controller, call = .controller controller →
      StageDriven w.world.directory w.databases ((w.follow (next.setCall session call)).work session)
        controller.movementId controller.stage) :
    CustomerSound start (w.follow (next.setCall session call)) := by
  refine h.still session hsound howned hdirectory (fun other hother => ?_) fun controller hcall => ?_
  · exact (update_other hother).trans (congrFun hcalls other)
  · rw [setCall_calls] at hcall
    exact hown controller (Option.some.inj hcall)

theorem CustomerSound.recording {input : BeginInput} {retained : Option Movement}
    {d' : Directory} (hplace : w.world.directory.place input retained = .ok d') {outcome : Except String String}
    (hsound : WorldSound start ((w.world.commit session d' events).answer session outcome))
    (howned : WorldOwned ((w.world.commit session d' events).answer session outcome)) :
    CustomerSound start (w.follow ((w.world.commit session d' events).answer session outcome)) := by
  have hgoes := place_goesOn hplace
  obtain ⟨inserted, hinserted, rfl⟩ := place_ok hplace
  have hsuperseded := superseded_supersede start w.world.directory retained
  obtain ⟨hnew, -, rfl⟩ := insertMovement_ok hinserted
  refine h.next session hsound howned hgoes ?_ ?_ (fun _ hother => update_other hother) fun controller hcall => ?_
  · intro runtimeId environmentId copy hcopy hon
    obtain ⟨environment, henvironment, hplaced⟩ := h.live runtimeId environmentId copy hcopy hon
    have hold : (w.world.directory.supersede retained).environment? environmentId = some environment := by
      rw [Directory.environment?, hsuperseded.environments]
      exact henvironment
    refine ⟨if environmentId = input.environmentId then { environment with movementId := some input.id }
      else environment, ?_, ?_⟩
    · refine (Directory.environment?_set (by intro; rfl)).trans ?_
      by_cases hhere : environmentId = input.environmentId
      · rw [if_pos hhere, if_pos hhere]
        rw [hhere] at hold
        exact congrArg (Option.map _) hold
      · rw [if_neg hhere, if_neg hhere]
        exact hold
    · split_ifs <;> exact hplaced
  · intro id row hrow hfencing
    have hfound : (if id = input.id then some (Directory.newMovement input) else
        (w.world.directory.supersede retained).movement? id) = some row :=
      (movement?_insert hnew id).symm.trans hrow
    split_ifs at hfound
    · cases hfound
      cases hfencing
    · obtain ⟨old, hold, hroute, hphase⟩ := superseded_from hfound
      exact (h.fenced id old hold (by rw [← hphase hfencing]; exact hfencing)).goesOn hroute
  · rw [answer_calls] at hcall
    cases hcall

theorem CustomerSound.change {f : Movement → Movement} (hf : ∀ row, (f row).route = row.route)
    (hfencing : ∀ row, w.world.directory.movement? controller.movementId = some row →
      (f row).phase.fencing = true → SourcePaused w.databases row)
    (hsound : WorldSound start ({ w.world with
      directory := w.world.directory.setMovement controller.movementId f
      events := events }.goOn session controller .reading))
    (howned : WorldOwned ({ w.world with
      directory := w.world.directory.setMovement controller.movementId f
      events := events }.goOn session controller .reading)) :
    CustomerSound start (w.follow ({ w.world with
      directory := w.world.directory.setMovement controller.movementId f
      events := events }.goOn session controller .reading)) := by
  refine h.next session hsound howned (goesOn_change hf) h.live (fun id row hrow hphase => ?_)
    (fun _ hother => update_other hother) fun other hcall => ?_
  · have hfound := (Directory.movement?_set fun row => congrArg Route.id (hf row)).symm.trans hrow
    by_cases hid : id = controller.movementId
    · rw [if_pos hid] at hfound
      obtain ⟨old, hold, rfl⟩ := Option.map_eq_some_iff.mp hfound
      exact (hfencing old hold hphase).goesOn (hf old)
    · rw [if_neg hid] at hfound
      exact h.fenced id row hfound hphase
  · rw [World.goOn, setCall_calls] at hcall
    cases hcall
    trivial

theorem CustomerSound.publishing
    {returnEvidence : Option Actors.Record} {components : List VerifiedComponent}
    (hstage : StageSound w.world session (.publishing movement returnEvidence))
    (hpaused : MovementPaused w.world.directory w.databases movement.id)
    (hsound : WorldSound start ((w.world.commit session (w.world.directory.publish movement returnEvidence
      components) events).goOn session controller .reading))
    (howned : WorldOwned ((w.world.commit session (w.world.directory.publish movement returnEvidence
      components) events).goOn session controller .reading)) :
    CustomerSound start (w.follow ((w.world.commit session (w.world.directory.publish movement returnEvidence
      components) events).goOn session controller .reading)) := by
  obtain ⟨⟨row, hrow, hbound⟩, ⟨-, environment, hhome, hactivatable⟩, -⟩ := hstage
  obtain ⟨-, hruntime, -⟩ := of_decide_eq_true hactivatable
  obtain ⟨other, hother, hsource⟩ := hpaused
  rw [hrow] at hother
  cases hother
  refine h.next session hsound howned (publish_goesOn _ _ _ _) ?_ (fun id next hnext hphase => ?_)
    (fun _ hother => update_other hother) fun other hcall => ?_
  · intro runtimeId environmentId copy hcopy hon
    obtain ⟨home, hfound, hthere, hgeneration⟩ := h.live runtimeId environmentId copy hcopy hon
    have hplace := publish_environment? w.world.directory movement returnEvidence components environmentId
    by_cases hhere : environmentId = movement.environmentId
    · rw [hhere, hhome] at hfound
      cases hfound
      have hoff := hsource.notEnabled copy (by
        rw [← hbound.environmentId, ← hbound.sourceRuntimeId, ← hruntime, hthere, ← hhere]
        exact hcopy)
      rw [hon] at hoff
      cases hoff
    · exact ⟨home, hplace.trans ((if_neg hhere).trans hfound), hthere, hgeneration⟩
  · have hfind := (publish_movement? w.world.directory movement returnEvidence components id).symm.trans hnext
    by_cases hid : id = movement.id
    · rw [if_pos hid, hrow] at hfind
      cases hfind
      dsimp only at hphase
      split_ifs at hphase <;> cases hphase
    · rw [if_neg hid] at hfind
      exact h.fenced id next hfind hphase
  · rw [World.goOn, setCall_calls] at hcall
    cases hcall
    trivial

end

end Directory

/-! ## The calls -/

section Calls
variable {start : Directory} {w : CustomerWorld} {world : World} {session : ℕ}

theorem CustomerSound.beginStep (h : CustomerSound start w) {input : BeginInput} {stage : BeginStage}
    (hstep : w.world.beginStep session input stage = some world) (hsound : WorldSound start world)
    (howned : WorldOwned world) : CustomerSound start (w.follow world) := by
  cases stage with
  | locking =>
    unfold World.beginStep at hstep
    dsimp only at hstep
    split_ifs at hstep
    cases hrow : w.world.directory.environment? input.environmentId with
    | none =>
      rw [hrow] at hstep
      cases hstep
      exact h.setCall _ rfl rfl hsound howned fun _ hcall => nomatch hcall
    | some environment =>
      rw [hrow] at hstep
      cases hstep
      exact h.setCall (w.world.lockRow session input.environmentId) rfl rfl hsound howned fun _ hcall => nomatch hcall
  | looking environment =>
    cases hstep
    revert hsound howned
    unfold World.lookingStep
    split
    · split_ifs
      · exact h.answer
      · exact h.answer
    · split
      · exact h.answer
      · split_ifs
        · exact fun hsound howned => h.setCall _ rfl rfl hsound howned fun _ hcall => nomatch hcall
        · exact h.answer
  | checking =>
    cases hstep
    revert hsound howned
    unfold World.checkingStep
    split_ifs
    · exact h.answer
    · exact h.answer
    · exact fun hsound howned => h.setCall _ rfl rfl hsound howned fun _ hcall => nomatch hcall
    · exact h.answer
    · exact fun hsound howned => h.setCall _ rfl rfl hsound howned fun _ hcall => nomatch hcall
  | retaining =>
    cases hstep
    revert hsound howned
    unfold World.retainingStep
    split
    · exact fun hsound howned => h.setCall _ rfl rfl hsound howned fun _ hcall => nomatch hcall
    · exact h.answer
  | claiming retained =>
    unfold World.beginStep at hstep
    dsimp only at hstep
    split_ifs at hstep <;> cases hstep
    · exact h.setCall (w.world.lockMovement session retained.id) rfl rfl hsound howned fun _ hcall => nomatch hcall
    · exact h.answer hsound howned
  | recording retained =>
    unfold World.beginStep at hstep
    dsimp only at hstep
    cases hplace : w.world.directory.place input retained with
    | error message =>
      rw [hplace] at hstep
      cases hstep
      exact h.answer hsound howned
    | ok directory =>
      rw [hplace] at hstep
      cases hstep
      exact h.recording hplace hsound howned

variable {controller : Controller}

theorem CustomerSound.goOn (h : CustomerSound start w) (next : World)
    {stage : ControllerStage} (hdirectory : next.directory = w.world.directory)
    (hcalls : next.calls = w.world.calls)
    (hstage : ∀ ops, StageDriven w.world.directory w.databases ops controller.movementId stage)
    (hsound : WorldSound start (next.goOn session controller stage))
    (howned : WorldOwned (next.goOn session controller stage)) :
    CustomerSound start (w.follow (next.goOn session controller stage)) :=
  h.setCall next hdirectory hcalls hsound howned fun other hcall => by
    cases hcall
    exact hstage _

theorem afterDriver_driven {movement : Movement} {evidence : Actors.Record}
    (hreads : Reads w.world controller.movementId movement)
    (hdriven : movement.phase = .paused ∨ movement.phase = .returning → SourcePaused w.databases movement)
    (ops : List DriverOp) : StageDriven w.world.directory w.databases ops controller.movementId
      (World.afterDriver movement.phase evidence) := by
  unfold World.afterDriver
  cases hsuccessor : successor movement.phase with
  | some target => exact fun hpaused => ⟨movement, hreads.1, hdriven (.inl hpaused)⟩
  | none =>
    intro hback
    by_cases hreturning : movement.phase = .returning
    · exact ⟨movement, hreads.1, hdriven (.inr hreturning)⟩
    · rw [if_neg hreturning] at hback
      cases hback

theorem advanced_fencing {source target : MovementPhase} (h : successor source = some target)
    (htarget : target.fencing = true) : source = .paused ∨ source.fencing = true := by
  cases source <;> cases h
  · exact .inl rfl
  · exact .inr rfl
  · exact .inr rfl
  · cases htarget

theorem driverSound_start (databases : Databases) (movement : Movement) :
    DriverSound databases movement (driverProgram movement) := by
  refine ⟨0, rfl, fun _ hn => ?_, fun _ hn => ?_, fun _ hn => ?_⟩
  · cases hn
  · cases hn
  · cases hn

theorem CustomerSound.controllerStep (h : CustomerSound start w)
    (hcall : w.world.calls session = some (.controller controller))
    (hstep : w.world.controllerStep session controller controller.stage = some world)
    (hsound : WorldSound start world) (howned : WorldOwned world) : CustomerSound start (w.follow world) := by
  have hstage : StageSound w.world session controller.stage := h.sound.call session _ hcall
  have hown : StageOwns w.world session controller.movementId controller.stage := h.owned session _ hcall
  have hdriven := h.call session controller hcall
  have hidle : (∀ movement, controller.stage ≠ .driving movement) → w.world.driving? session = none := by
    intro hnot
    cases hdriving : w.world.driving? session with
    | none => rfl
    | some movement =>
      obtain ⟨other, hother, hphase⟩ := driving?_some hdriving
      rw [hcall] at hother
      cases hother
      exact absurd hphase (hnot movement)
  generalize hcontroller : controller.stage = stage at hstep hstage hown hdriven hidle
  cases stage with
  | claiming =>
    unfold World.controllerStep at hstep
    dsimp only at hstep
    split_ifs at hstep <;> cases hstep
    · exact h.goOn (w.world.lockMovement session controller.movementId) rfl rfl (fun _ => trivial) hsound howned
    · exact h.answer hsound howned
    · exact h.goOn (w.world.lockMovement session controller.movementId) rfl rfl (fun _ => trivial) hsound howned
    · exact h.answer hsound howned
  | asking =>
    unfold World.controllerStep at hstep
    dsimp only at hstep
    cases hreturn : w.world.directory.requestReturn controller.movementId with
    | error message =>
      rw [hreturn] at hstep
      cases hstep
      exact h.answer hsound howned
    | ok directory =>
      rw [hreturn] at hstep
      cases hstep
      obtain ⟨-, rfl⟩ := requestReturn_ok hreturn
      refine h.change (by intro; rfl) (fun row _ hfencing => ?_) hsound howned
      dsimp only at hfencing
      split_ifs at hfencing with hcancelled
      · rw [hcancelled] at hfencing
        cases hfencing
      · cases hfencing
  | reading =>
    cases hstep
    revert hsound howned
    unfold World.readingStep
    split_ifs
    · exact h.answer
    · cases hmovement : w.world.directory.movement? controller.movementId with
      | none => exact h.answer
      | some movement =>
        dsimp only
        split_ifs
        · exact h.answer
        · intro hsound howned
          refine h.setCall w.world rfl rfl hsound howned fun other hother => ?_
          cases hother
          rw [follow_start (hidle fun _ hnot => nomatch hnot)
            (driving?_eq (setCall_calls _) (show _ = ControllerStage.driving movement from rfl))]
          exact driverSound_start w.databases movement
        · exact h.answer
  | driving movement => cases hstep
  | driven movement evidence =>
    unfold World.controllerStep at hstep
    dsimp only at hstep
    split_ifs at hstep <;> cases hstep
    · exact h.answer hsound howned
    · exact h.goOn w.world rfl rfl (afterDriver_driven hown.2 hdriven) hsound howned
  | advancing source target evidence =>
    unfold World.controllerStep at hstep
    dsimp only at hstep
    cases hadvance : w.world.directory.advance controller.movementId source target evidence with
    | error message =>
      rw [hadvance] at hstep
      cases hstep
      exact h.answer hsound howned
    | ok directory =>
      rw [hadvance] at hstep
      cases hstep
      obtain ⟨⟨movement, hmovement, hsource⟩, rfl⟩ := advance_ok hadvance
      refine h.change (by intro; rfl) (fun row hrow hfencing => ?_) hsound howned
      rw [hmovement] at hrow
      cases hrow
      rcases advanced_fencing hstage hfencing with hpaused | hfenced
      · obtain ⟨other, hother, hoff⟩ := hdriven hpaused
        rw [hmovement] at hother
        cases hother
        exact hoff
      · exact h.fenced _ movement hmovement (hsource ▸ hfenced)
  | activating returnEvidence =>
    cases hstep
    revert hsound howned
    unfold World.activatingStep
    cases w.world.directory.movement? controller.movementId with
    | none => exact h.answer
    | some row =>
      dsimp only
      cases openActivation row returnEvidence with
      | error message => exact h.answer
      | ok movement => exact h.goOn w.world rfl rfl fun _ => hdriven
  | guarding movement returnEvidence =>
    cases hstep
    exact h.goOn w.world rfl rfl (fun _ => hdriven) hsound howned
  | placing movement returnEvidence guarded =>
    unfold World.controllerStep at hstep
    dsimp only at hstep
    split_ifs at hstep
    cases hstep
    revert hsound howned
    unfold World.placingStep
    split_ifs
    · exact h.goOn (w.world.lockRow session movement.environmentId) rfl rfl fun _ => hdriven
    · exact h.answer
  | publishing movement returnEvidence =>
    cases hstep
    revert hsound howned
    unfold World.publishingStep
    cases verifiedComponents movement.evidence (w.world.directory.requiredComponents movement.environmentId) with
    | error message => exact h.answer
    | ok components =>
      refine h.publishing hstage ?_
      rw [hown.2.2]
      cases returnEvidence with
      | some evidence => exact hdriven rfl
      | none =>
        obtain ⟨row, hrow, hphase⟩ := hown.2.1
        exact ⟨row, hrow, h.fenced _ row hrow (by rw [hphase]; rfl)⟩

theorem CustomerSound.directory (h : CustomerSound start w) {action : Action}
    (hundriven : action.undriven = true) (hstep : step w.world action = some world) :
    CustomerSound start (w.follow world) := by
  have hsound := (step_turn h.sound hstep).sound
  have hconnected : action.connected = true := by
    cases action <;> first | rfl | cases hundriven
  have howned := step_owned h.owned hconnected hstep
  cases action with
  | begin session input =>
    unfold step at hstep
    dsimp only at hstep
    split_ifs at hstep <;> cases hstep
    · exact h.setCall w.world rfl rfl hsound howned fun _ hcall => nomatch hcall
    · exact h.answer hsound howned
  | resume session movementId canReturn returnToSource =>
    unfold step at hstep
    dsimp only at hstep
    split_ifs at hstep
    cases hstep
    refine h.setCall w.world rfl rfl hsound howned fun controller hcall => ?_
    cases hcall
    trivial
  | proceed session =>
    unfold step World.proceed at hstep
    dsimp only at hstep
    cases hcall : w.world.calls session with
    | none =>
      rw [hcall] at hstep
      cases hstep
    | some call =>
      rw [hcall] at hstep
      cases call with
      | begin input stage => exact h.beginStep hstep hsound howned
      | controller controller => exact h.controllerStep hcall hstep hsound howned
  | drive session outcome => cases hundriven
  | lose session => cases hundriven
  | notice session =>
    unfold step World.notice at hstep
    dsimp only at hstep
    split at hstep
    · rename_i controller hcall
      cases hstep
      refine h.setCall w.world rfl rfl hsound howned fun other hother => ?_
      cases hother
      refine (h.call session controller hcall).work fun movement hstage => ?_
      exact follow_going hcall hstage (driving?_eq (setCall_calls (w := w.world)
        (.controller { controller with aborted := true })) hstage)
    · cases hstep
  | crash session =>
    cases hstep
    exact h.answer hsound howned

end Calls

end AvenOS.Provisioner
