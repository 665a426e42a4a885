import AvenOS.Provisioner.OwnedMovements

/-! # The driver of the customer databases

`PostgresMovementDriver` as the statements that read or write the identity of a copy: whether it may execute,
for which generation it has been prepared, and which movement has restored it. Whatever else the driver
checks can only make it fail, and it can fail before any statement. -/
namespace AvenOS.Provisioner
open LabelledRun

/-- `aven_platform.environment_identity` in one database, and the comment on that database. -/
structure Copy where
  executionEnabled : Bool
  routingGeneration : ℕ
  marker : Option String
deriving DecidableEq, Repr

/-- The copies of a runtime and an environment, and the archives of the movements. -/
structure Databases where
  copies : String → String → Option Copy
  archives : String → Option Copy

def Databases.setCopy (databases : Databases) (runtimeId environmentId : String) (copy : Copy) : Databases :=
  { databases with
    copies := Function.update databases.copies runtimeId
      (Function.update (databases.copies runtimeId) environmentId (some copy)) }

/-! ## Statements -/

inductive DriverOp
  | identify (destination : Bool)
  | pause (destination : Bool)
  | assertFenced (destination : Bool)
  | dump
  | restore
  | prepare (destination : Bool) (generation : ℕ)
  | expectGeneration (destination : Bool) (generation : ℕ)
  | enable
deriving DecidableEq, Repr

def Movement.runtimeId (movement : Movement) (destination : Bool) : String :=
  if destination then movement.destinationRuntimeId else movement.sourceRuntimeId

def Databases.copy? (databases : Databases) (movement : Movement) (destination : Bool) : Option Copy :=
  databases.copies (movement.runtimeId destination) movement.environmentId

def Databases.putCopy (databases : Databases) (movement : Movement) (destination : Bool) (copy : Copy) :
    Databases :=
  databases.setCopy (movement.runtimeId destination) movement.environmentId copy

def passedOver (movement : Movement) (destination : Bool) : Bool :=
  movement.phase = .returning && destination

/-- `assertIdentity` -/
def identifies (movement : Movement) (destination : Bool) (copy : Copy) : Bool :=
  destination || copy.routingGeneration = movement.sourceGeneration ||
    (movement.phase = .returning && copy.routingGeneration = movement.destinationGeneration + 1)

def checkCopy (databases : Databases) (movement : Movement) (destination : Bool) (check : Copy → Bool) :
    Option Databases :=
  match databases.copy? movement destination with
  | none => if passedOver movement destination then some databases else none
  | some copy => if check copy then some databases else none

/-- One statement; none where the driver throws. -/
def DriverOp.exec (movement : Movement) (databases : Databases) : DriverOp → Option Databases
  | .identify destination => checkCopy databases movement destination (identifies movement destination)
  | .pause destination =>
    match databases.copy? movement destination with
    | none => if passedOver movement destination then some databases else none
    | some copy => some (databases.putCopy movement destination { copy with executionEnabled := false })
  | .assertFenced destination => checkCopy databases movement destination fun copy => !copy.executionEnabled
  | .dump =>
    match databases.archives movement.id, databases.copy? movement false with
    | some _, _ => some databases
    | none, none => none
    | none, some copy =>
      some { databases with archives := Function.update databases.archives movement.id (some copy) }
  | .restore =>
    match databases.copy? movement true, databases.archives movement.id with
    | some copy, _ => if copy.marker = some movement.id then some databases else none
    | none, none => none
    | none, some archive => some (databases.putCopy movement true { archive with marker := some movement.id })
  | .prepare destination generation =>
    match databases.copy? movement destination with
    -- The provisioner makes a database that is missing, and a new one may execute.
    | none => some (databases.putCopy movement destination ⟨true, generation, none⟩)
    | some copy => some (databases.putCopy movement destination { copy with routingGeneration := generation })
  | .expectGeneration destination generation =>
    checkCopy databases movement destination fun copy => copy.routingGeneration = generation
  | .enable =>
    match databases.copy? movement true with
    | none => none
    | some copy =>
      if copy.routingGeneration = movement.destinationGeneration then
        some (databases.putCopy movement true { copy with executionEnabled := movement.mode ≠ .rollback })
      else none

/-! ## Programs -/

def fence : List DriverOp := [.identify false, .pause false, .assertFenced false]

def copy (movement : Movement) : List DriverOp :=
  match movement.mode with
  | .rollback => [.assertFenced false, .identify true]
  | .move => [.assertFenced false, .dump, .restore, .identify true]

def verify (movement : Movement) : List DriverOp :=
  [.assertFenced false, .identify true, .prepare true movement.destinationGeneration,
    .expectGeneration true movement.destinationGeneration, .pause true]

def beforeActivate (movement : Movement) : List DriverOp :=
  [.assertFenced false, .identify true, .expectGeneration true movement.destinationGeneration]

def afterActivate : List DriverOp := [.assertFenced false, .enable]

def returnToSource (movement : Movement) : List DriverOp :=
  [.identify true, .pause true, .assertFenced true, .identify false, .pause false, .assertFenced false,
    .prepare false (movement.destinationGeneration + 1),
    .expectGeneration false (movement.destinationGeneration + 1), .assertFenced false]

/-- What `resumeMovement` asks of the driver in each phase. -/
def driverProgram (movement : Movement) : List DriverOp :=
  match movement.phase with
  | .paused => fence
  | .fenced => copy movement
  | .copied => verify movement
  | .verified => beforeActivate movement
  | .activated => afterActivate
  | .returning => returnToSource movement
  | .completed | .cancelled | .superseded => []

/-! ## The directory and the copies -/

structure CustomerWorld where
  world : World
  databases : Databases
  /-- What is left for the driver of a session to do. -/
  work : ℕ → List DriverOp

inductive CustomerAction
  /-- A step of a call that is not with its driver. -/
  | directory (action : Action)
  /-- The next statement of a driver. -/
  | work (session : ℕ)
  | fail (session : ℕ) (message : String)
  | finish (session : ℕ) (evidence : Actors.Record)

def World.driving? (w : World) (session : ℕ) : Option Movement :=
  match w.calls session with
  | some (.controller controller) =>
    match controller.stage with
    | .driving movement => some movement
    | _ => none
  | _ => none

/-- The calls move and no driver does; the locks are kept until the call ends. -/
def Action.undriven : Action → Bool
  | .drive _ _ => false
  | .lose _ => false
  | _ => true

namespace CustomerWorld
variable (w : CustomerWorld)

/-- A driver starts when its controller has read a phase. -/
def follow (world : World) : CustomerWorld where
  world := world
  databases := w.databases
  work session :=
    match world.driving? session with
    | none => []
    | some movement => if (w.world.driving? session).isSome then w.work session else driverProgram movement

def workStep (session : ℕ) : Option CustomerWorld :=
  match w.world.driving? session, w.work session with
  | some movement, op :: rest =>
    match op.exec movement w.databases with
    | none => (w.world.drive session (.error "the driver has failed")).map w.follow
    | some databases => some { w with databases := databases, work := Function.update w.work session rest }
  | _, _ => none

end CustomerWorld

def customerStep (w : CustomerWorld) : CustomerAction → Option CustomerWorld
  | .directory action => if action.undriven then (step w.world action).map w.follow else none
  | .work session => w.workStep session
  | .fail session message => (w.world.drive session (.error message)).map w.follow
  | .finish session evidence =>
    if w.work session = [] then (w.world.drive session (.ok evidence)).map w.follow else none

end AvenOS.Provisioner
