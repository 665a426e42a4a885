import AvenOS.Foundations.LabelledRun
import AvenOS.Provisioner.Control

/-! # Workers over one directory

Any number of workers claim operations and report on what they have claimed, at any time and more than once.
Each transaction is one step: it has the rows it decides on locked until it commits. Customers are moved and
their entitlements change in between. -/
namespace AvenOS.Provisioner
open Actors (Record)
open LabelledRun

/-- An operation in the hands of the worker that has claimed it. -/
structure Attempt where
  worker : Worker
  operation : Operation
deriving DecidableEq

/-- A component as an operation has left it, or as a movement has verified it before its publication. -/
structure Success where
  environmentId : String
  componentRef : String
  routingGeneration : ℕ
  action : OperationAction
  schemaVersion : ℕ
  migrationSetDigest : String
deriving DecidableEq

structure ControlWorld where
  directory : Directory
  /-- In the order of the claims. -/
  attempts : List Attempt
  successes : List Success

inductive ControlAction
  | claim (worker : Worker) (now : ℤ) (locked : List String)
  /-- The worker of an attempt reports that it is done. -/
  | finish (attempt : ℕ)
  | fail (attempt : ℕ) (message : String)
  | queue (environmentId : String) (draw : String → String × ℤ)
  | reopen (environmentId : String)
  | entitle (environmentId : String) (desired : DesiredState) (draw : String → String)
  /-- A call of `begin` commits. -/
  | place (input : BeginInput) (retained : Option Movement)
  /-- An activation commits. -/
  | publish (movement : Movement) (returnEvidence : Option Record)

def ControlAction.reports : ControlAction → Option ℕ
  | .finish attempt => some attempt
  | .fail attempt _ => some attempt
  | _ => none

def Operation.success (operation : Operation) : Success :=
  ⟨operation.environmentId, operation.componentRef, operation.routingGeneration, operation.action,
    operation.targetSchemaVersion, operation.migrationSetDigest⟩

def VerifiedComponent.success (environmentId : String) (generation : ℕ) (component : VerifiedComponent) : Success :=
  ⟨environmentId, component.componentRef, generation, .reconcile, component.schemaVersion,
    component.migrationSetDigest⟩

def latestOf (attempts : List Attempt) (operationId : String) : Option Attempt :=
  lastWhere (fun attempt => attempt.operation.id = operationId) attempts

def lastOf (successes : List Success) (environmentId componentRef : String) (generation : ℕ) : Option Success :=
  lastWhere (fun success => success.environmentId = environmentId ∧ success.componentRef = componentRef ∧
    success.routingGeneration = generation) successes

namespace ControlWorld
variable (w : ControlWorld)

def commit (result : Except String Directory) : ControlWorld :=
  match result with
  | .error _ => w
  | .ok directory => { w with directory := directory }

def claimStep (worker : Worker) (now : ℤ) (locked : List String) : ControlWorld :=
  match w.directory.claim worker now locked with
  | none => w
  | some (operation, directory) =>
    { w with directory := directory, attempts := w.attempts ++ [⟨worker, operation⟩] }

def finishStep (attempt : Attempt) : ControlWorld :=
  match w.directory.finish attempt.worker attempt.operation with
  | .error _ => w
  | .ok directory =>
    { w with directory := directory, successes := w.successes ++ [attempt.operation.success] }

def publishStep (movement : Movement) (returnEvidence : Option Record) : ControlWorld :=
  match verifiedComponents movement.evidence (w.directory.requiredComponents movement.environmentId) with
  | .error _ => w
  | .ok components =>
    { w with
      directory := w.directory.publish movement returnEvidence components
      successes := w.successes ++
        components.map (VerifiedComponent.success movement.environmentId movement.destinationGeneration) }

end ControlWorld

def controlStep (w : ControlWorld) : ControlAction → Option ControlWorld
  | .claim worker now locked => some (w.claimStep worker now locked)
  | .finish attempt => w.attempts[attempt]?.map w.finishStep
  | .fail attempt message => w.attempts[attempt]?.map fun attempt =>
    { w with directory := w.directory.fail attempt.worker attempt.operation message }
  | .queue environmentId draw => some (w.commit (w.directory.queueCustomerReconciliation environmentId draw))
  | .reopen environmentId => some { w with directory := w.directory.reopen environmentId }
  | .entitle environmentId desired draw => some (w.commit (w.directory.acceptEntitlement environmentId desired draw))
  | .place input retained => some (w.commit (w.directory.place input retained))
  | .publish movement returnEvidence => some (w.publishStep movement returnEvidence)

/-! ## Older attempts -/

def ControlWorld.older (w : ControlWorld) (attempt : ℕ) : Bool :=
  (w.attempts[attempt]?).any fun claimed =>
    (w.attempts.drop (attempt + 1)).any fun later => later.operation.id = claimed.operation.id

def ControlWorld.steady (w : ControlWorld) (action : ControlAction) : Bool :=
  action.reports.all fun attempt => !w.older attempt ||
    (w.attempts[attempt]?).all fun claimed => (latestOf w.attempts claimed.operation.id).all fun latest =>
      latest.worker.instanceId ≠ claimed.worker.instanceId

def steadyRun : ControlWorld → List ControlAction → Bool
  | _, [] => true
  | w, action :: rest => w.steady action && (controlStep w action).all fun next => steadyRun next rest

end AvenOS.Provisioner
