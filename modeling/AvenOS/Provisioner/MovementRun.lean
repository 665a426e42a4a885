import AvenOS.Foundations.LabelledRun
import AvenOS.Provisioner.Movements

/-! # Controllers over one directory

Any number of sessions, each in a call of `begin` or of `resumeMovement`, go on statement by statement in any
order. A controller that has lost its directory connection may not know it yet. -/
namespace AvenOS.Provisioner
open Actors (JsValue Record)

/-! ## Calls -/

/-- Where a call of `begin` is; the next statement is named. -/
inductive BeginStage
  | locking
  | looking (environment : Option Environment)
  | checking
  | retaining
  | claiming (retained : Movement)
  | recording (retained : Option Movement)

/-- Where a call of `resumeMovement` is. -/
inductive ControllerStage
  | claiming
  | asking
  | reading
  | driving (movement : Movement)
  | driven (movement : Movement) (evidence : Record)
  | advancing (source target : MovementPhase) (evidence : Record)
  | activating (returnEvidence : Option Record)
  | guarding (movement : Movement) (returnEvidence : Option Record)
  | placing (movement : Movement) (returnEvidence : Option Record) (guarded : Bool)
  | publishing (movement : Movement) (returnEvidence : Option Record)

structure Controller where
  movementId : String
  /-- Whether its driver has `returnToSource`. -/
  canReturn : Bool
  returnToSource : Bool
  aborted : Bool
  stage : ControllerStage

inductive Call
  | begin (input : BeginInput) (stage : BeginStage)
  | controller (controller : Controller)

/-- A new location of a customer, as a committed activation makes it known. -/
structure Publication where
  movementId : String
  environmentId : String
  runtimeId : String
  generation : ℕ
  returning : Bool
deriving DecidableEq

inductive Event
  | began (movementId : String)
  /-- `requestReturn` has succeeded. -/
  | returned (movementId : String)
  | published (publication : Publication)
  | answered (session : ℕ) (outcome : Except String String)
deriving DecidableEq

structure World where
  directory : Directory
  /-- Who holds the advisory lock of a movement. -/
  advisory : String → Option ℕ
  /-- Who holds the row lock of an environment. -/
  locked : String → Option ℕ
  calls : ℕ → Option Call
  events : List Event

namespace World
variable (w : World) (session : ℕ)

def setCall (call : Call) : World := { w with calls := Function.update w.calls session (some call) }

def release (locks : String → Option ℕ) (id : String) : Option ℕ :=
  if locks id = some session then none else locks id

/-- The call is over and holds nothing. -/
def answer (outcome : Except String String) : World :=
  { w with
    advisory := release session w.advisory
    locked := release session w.locked
    calls := Function.update w.calls session none
    events := w.events ++ [.answered session outcome] }

def free (locks : String → Option ℕ) (id : String) : Prop := locks id = none ∨ locks id = some session

instance (locks : String → Option ℕ) (id : String) : Decidable (free session locks id) :=
  inferInstanceAs (Decidable (_ ∨ _))

def lockRow (environmentId : String) : World :=
  { w with locked := Function.update w.locked environmentId (some session) }

def lockMovement (movementId : String) : World :=
  { w with advisory := Function.update w.advisory movementId (some session) }

def commit (directory : Directory) (events : List Event) : World :=
  { w with directory := directory, locked := release session w.locked, events := w.events ++ events }

/-! ## One statement of `begin` -/

def notReady : String := "customer placement is not ready or has changed"

def lookingStep (input : BeginInput) (environment : Option Environment) : World :=
  match w.directory.movement? input.id with
  | some prior =>
    if priorMatches input prior then w.answer session (.ok input.id)
    else w.answer session (.error "movement ID is already bound to different input")
  | none =>
    match environment with
    | none => w.answer session (.error notReady)
    | some environment =>
      if placeable input environment then w.setCall session (.begin input .checking)
      else w.answer session (.error notReady)

def checkingStep (input : BeginInput) : World :=
  if w.directory.boundRuntimes input ≠ 2 then
    w.answer session (.error "two distinct release-bound runtimes are required")
  else if w.directory.provisioning input.environmentId then
    w.answer session (.error "customer provisioning is still running")
  else if input.rollbackOf.isSome then w.setCall session (.begin input .retaining)
  else if input.acceptDivergence then
    w.answer session (.error "divergence acceptance applies only to rollback")
  else w.setCall session (.begin input (.recording none))

def retainingStep (input : BeginInput) : World :=
  match (input.rollbackOf.bind w.directory.retained?).filter (mayRollBack input) with
  | some retained => w.setCall session (.begin input (.claiming retained))
  | none => w.answer session
      (.error "rollback requires a retained customer movement and explicit divergence acceptance")

def beginStep (input : BeginInput) : BeginStage → Option World
  | .locking =>
    if free session w.locked input.environmentId then
      match w.directory.environment? input.environmentId with
      | none => some (w.setCall session (.begin input (.looking none)))
      | some environment =>
        some ((w.lockRow session input.environmentId).setCall session (.begin input (.looking (some environment))))
    else none
  | .looking environment => some (w.lookingStep session input environment)
  | .checking => some (w.checkingStep session input)
  | .retaining => some (w.retainingStep session input)
  | .claiming retained =>
    if free session w.advisory retained.id then
      some ((w.lockMovement session retained.id).setCall session (.begin input (.recording (some retained))))
    else some (w.answer session (.error
      "the previous movement controller is still active; retry rollback after it exits"))
  | .recording retained =>
    match w.directory.place input retained with
    | .error message => some (w.answer session (.error message))
    | .ok directory => some ((w.commit session directory [.began input.id]).answer session (.ok input.id))

/-! ## One statement of a controller -/

def lostLock : String := "movement controller lost its directory lock"

def noReturn : String := "this driver cannot return to the source"

def goOn (controller : Controller) (stage : ControllerStage) : World :=
  w.setCall session (.controller { controller with stage := stage })

/-- The head of the loop: the phase says what is to be done. -/
def readingStep (controller : Controller) : World :=
  if controller.aborted then w.answer session (.error lostLock)
  else
    match w.directory.movement? controller.movementId with
    | none => w.answer session (.error "customer movement does not exist")
    | some movement =>
      if movement.phase.active then
        if movement.phase = .returning ∧ !controller.canReturn then w.answer session (.error noReturn)
        else w.goOn session controller (.driving movement)
      else w.answer session (.ok controller.movementId)

def afterDriver (phase : MovementPhase) (evidence : Record) : ControllerStage :=
  match successor phase with
  | some target => .advancing phase target evidence
  | none => .activating (if phase = .returning then some evidence else none)

def activatingStep (controller : Controller) (returnEvidence : Option Record) : World :=
  match w.directory.movement? controller.movementId with
  | none => w.answer session (.error "customer movement does not exist")
  | some movement =>
    match openActivation movement returnEvidence with
    | .error message => w.answer session (.error message)
    | .ok movement => w.goOn session controller (.guarding movement returnEvidence)

/-- The subquery on the phase is answered when the statement starts, before it waits for the row. -/
def guardingStep (controller : Controller) (movement : Movement) (returnEvidence : Option Record) : World :=
  w.goOn session controller (.placing movement returnEvidence
    ((w.directory.movement? movement.id).any fun row => row.phase = guardedPhase returnEvidence))

def placingStep (controller : Controller) (movement : Movement) (returnEvidence : Option Record)
    (guarded : Bool) : World :=
  if guarded ∧ (w.directory.environment? movement.environmentId).any (activatable movement) then
    (w.lockRow session movement.environmentId).goOn session controller (.publishing movement returnEvidence)
  else w.answer session (.error "customer placement or entitlement changed; activation refused")

def publishingStep (controller : Controller) (movement : Movement) (returnEvidence : Option Record) : World :=
  match verifiedComponents movement.evidence (w.directory.requiredComponents movement.environmentId) with
  | .error message => w.answer session (.error message)
  | .ok components =>
    (w.commit session (w.directory.publish movement returnEvidence components)
      [.published ⟨movement.id, movement.environmentId, movement.destinationRuntimeId,
        movement.destinationGeneration, returnEvidence.isSome⟩]).goOn session controller .reading

def controllerStep (controller : Controller) : ControllerStage → Option World
  | .claiming =>
    if free session w.advisory controller.movementId then
      if controller.returnToSource then
        if controller.canReturn then
          some ((w.lockMovement session controller.movementId).goOn session controller .asking)
        else some (w.answer session (.error noReturn))
      else some ((w.lockMovement session controller.movementId).goOn session controller .reading)
    else some (w.answer session (.error "another controller owns this movement"))
  | .asking =>
    match w.directory.requestReturn controller.movementId with
    | .error message => some (w.answer session (.error message))
    | .ok directory =>
      some ({ w with directory := directory, events := w.events ++ [Event.returned controller.movementId] }.goOn
        session controller .reading)
  | .reading => some (w.readingStep session controller)
  | .driving _ => none
  | .driven movement evidence =>
    if controller.aborted then some (w.answer session (.error lostLock))
    else some (w.goOn session controller (afterDriver movement.phase evidence))
  | .advancing source target evidence =>
    match w.directory.advance controller.movementId source target evidence with
    | .error message => some (w.answer session (.error message))
    | .ok directory => some ({ w with directory := directory }.goOn session controller .reading)
  | .activating returnEvidence => some (w.activatingStep session controller returnEvidence)
  | .guarding movement returnEvidence => some (w.guardingStep session controller movement returnEvidence)
  | .placing movement returnEvidence guarded =>
    if free session w.locked movement.environmentId then
      some (w.placingStep session controller movement returnEvidence guarded)
    else none
  | .publishing movement returnEvidence => some (w.publishingStep session controller movement returnEvidence)

end World

/-! ## Steps -/

inductive Action
  | begin (session : ℕ) (input : BeginInput)
  | resume (session : ℕ) (movementId : String) (canReturn returnToSource : Bool)
  /-- The next statement of a call. -/
  | proceed (session : ℕ)
  /-- The driver has done its part, or has failed. -/
  | drive (session : ℕ) (outcome : Except String Record)
  /-- The directory drops the connection that holds the advisory lock. -/
  | lose (session : ℕ)
  /-- The controller hears of it. -/
  | notice (session : ℕ)
  | crash (session : ℕ)

def World.proceed (w : World) (session : ℕ) : Option World :=
  match w.calls session with
  | none => none
  | some (.begin input stage) => w.beginStep session input stage
  | some (.controller controller) => w.controllerStep session controller controller.stage

def World.drive (w : World) (session : ℕ) (outcome : Except String Record) : Option World :=
  match w.calls session with
  | some (.controller controller) =>
    match controller.stage with
    | .driving movement =>
      match outcome with
      | .error message => some (w.answer session (.error message))
      | .ok evidence => some (w.goOn session controller (.driven movement evidence))
    | _ => none
  | _ => none

def World.notice (w : World) (session : ℕ) : Option World :=
  match w.calls session with
  | some (.controller controller) =>
    some (w.setCall session (.controller { controller with aborted := true }))
  | _ => none

def World.lose (w : World) (session : ℕ) : Option World :=
  match w.calls session with
  | some (.controller _) => some { w with advisory := World.release session w.advisory }
  | _ => none

/-- `Number.isSafeInteger`, at least 1 and below the largest. -/
def validGeneration (generation : ℕ) : Bool := 1 ≤ generation && generation < maxSafeInteger

def step (w : World) : Action → Option World
  | .begin session input =>
    if w.calls session = none then
      if validGeneration input.expectedGeneration then some (w.setCall session (.begin input .locking))
      else some (w.answer session (.error "routing generation is invalid"))
    else none
  | .resume session movementId canReturn returnToSource =>
    if w.calls session = none then
      some (w.setCall session (.controller
        { movementId := movementId, canReturn := canReturn, returnToSource := returnToSource, aborted := false,
          stage := .claiming }))
    else none
  | .proceed session => w.proceed session
  | .drive session outcome => w.drive session outcome
  | .lose session => w.lose session
  | .notice session => w.notice session
  | .crash session => some (w.answer session (.error "the process has ended"))

end AvenOS.Provisioner
