import AvenOS.Actors.Portable
import AvenOS.Foundations.KeyedTable

/-! # The directory of customer environments

The tables of the control database that placement, movement and provisioning share. -/
namespace AvenOS.Provisioner
open Actors (JsValue Record)
open KeyedTable

/-! ## Rows -/

inductive DesiredState
  | ready | suspended
deriving DecidableEq, Repr

inductive ObservedState
  | pending | reconciling | ready | suspended | failed | unknown
deriving DecidableEq, Repr

inductive MovementPhase
  | paused | fenced | copied | verified | returning | activated | completed | cancelled | superseded
deriving DecidableEq, Repr

inductive MovementMode
  | move | rollback
deriving DecidableEq, Repr

inductive OperationAction
  | reconcile | suspend
deriving DecidableEq, Repr

inductive OperationStatus
  | queued | running | succeeded | failed | unknown
deriving DecidableEq, Repr

/-- `customer_runtimes` -/
structure Runtime where
  id : String
  releaseSha : Option String
  retired : Bool
deriving DecidableEq, Repr

/-- `customer_environments` -/
structure Environment where
  id : String
  runtimeId : String
  routingGeneration : ℕ
  movementId : Option String
  desiredState : DesiredState
  observedState : ObservedState
deriving DecidableEq, Repr

/-- `customer_movements` -/
structure Movement where
  id : String
  environmentId : String
  sourceRuntimeId : String
  destinationRuntimeId : String
  sourceGeneration : ℕ
  destinationGeneration : ℕ
  phase : MovementPhase
  mode : MovementMode
  rollbackOf : Option String
  acceptDivergence : Bool
  evidence : Record

/-- `customer_environment_components` -/
structure Component where
  environmentId : String
  componentRef : String
  desiredState : DesiredState
  observedState : ObservedState
  targetSchemaVersion : ℕ
  observedSchemaVersion : Option ℕ
  migrationSetDigest : String
  observedMigrationSetDigest : Option String
  routingGeneration : ℕ
  lastOperationId : Option String
  lastError : Option String
deriving DecidableEq, Repr

/-- `customer_component_operations`, by the time and the order of their creation -/
structure OperationRow where
  id : String
  environmentId : String
  componentRef : String
  action : OperationAction
  status : OperationStatus
  targetSchemaVersion : ℕ
  migrationSetDigest : String
  routingGeneration : ℕ
  attempt : ℕ
  leaseOwner : Option String
  leaseExpiresAt : Option ℤ
  lastError : Option String
deriving DecidableEq, Repr

structure Directory where
  runtimes : List Runtime
  environments : List Environment
  movements : List Movement
  components : List Component
  operations : List OperationRow

namespace Directory

def environment? (d : Directory) (id : String) : Option Environment := lookup Environment.id id d.environments

def movement? (d : Directory) (id : String) : Option Movement := lookup Movement.id id d.movements

def setEnvironment (d : Directory) (id : String) (f : Environment → Environment) : Directory :=
  { d with environments := modify Environment.id id f d.environments }

def setMovement (d : Directory) (id : String) (f : Movement → Movement) : Directory :=
  { d with movements := modify Movement.id id f d.movements }

variable {d : Directory}

theorem environment?_set {id other : String} {f : Environment → Environment} (hf : ∀ row, (f row).id = row.id) :
    (d.setEnvironment id f).environment? other =
      if other = id then (d.environment? id).map f else d.environment? other := by
  by_cases hid : other = id
  · rw [if_pos hid, hid]
    exact lookup_modify hf
  · rw [if_neg hid]
    exact lookup_modify_other hf hid

theorem movement?_set {id other : String} {f : Movement → Movement} (hf : ∀ row, (f row).id = row.id) :
    (d.setMovement id f).movement? other = if other = id then (d.movement? id).map f else d.movement? other := by
  by_cases hid : other = id
  · rw [if_pos hid, hid]
    exact lookup_modify hf
  · rw [if_neg hid]
    exact lookup_modify_other hf hid

end Directory

/-- Before the publication: what `movement_id` names. -/
def MovementPhase.pending : MovementPhase → Bool
  | .paused | .fenced | .copied | .verified | .returning => true
  | _ => false

def MovementPhase.active : MovementPhase → Bool
  | .completed | .cancelled | .superseded => false
  | _ => true

theorem MovementPhase.active_of_pending {phase : MovementPhase} (h : phase.pending = true) : phase.active = true := by
  cases phase <;> first | rfl | cases h

end AvenOS.Provisioner
