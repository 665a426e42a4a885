import AvenOS.Provisioner.Movements

/-! # Operations on the components of a customer

`ControlStore`, `queueCustomerReconciliation`, and what else writes the rows of customers, components and
operations. Every one of these transactions holds the row of its environment where it writes to it. -/
namespace AvenOS.Provisioner
open KeyedTable

/-- What a worker is given of an operation. -/
structure Operation where
  id : String
  environmentId : String
  componentRef : String
  action : OperationAction
  targetSchemaVersion : ℕ
  migrationSetDigest : String
  routingGeneration : ℕ
deriving DecidableEq, Repr

/-- The fields of a `ControlStore`. -/
structure Worker where
  instanceId : String
  leaseSeconds : ℕ
  runtimeId : String
deriving DecidableEq, Repr

def OperationRow.operation (row : OperationRow) : Operation :=
  ⟨row.id, row.environmentId, row.componentRef, row.action, row.targetSchemaVersion, row.migrationSetDigest,
    row.routingGeneration⟩

def Component.queued (component : Component) (id : String) (action : OperationAction) (generation : ℕ) :
    OperationRow where
  id := id
  environmentId := component.environmentId
  componentRef := component.componentRef
  action := action
  status := .queued
  targetSchemaVersion := component.targetSchemaVersion
  migrationSetDigest := component.migrationSetDigest
  routingGeneration := generation
  attempt := 0
  leaseOwner := none
  leaseExpiresAt := none
  lastError := none

/-- The columns of the unique constraint. -/
def OperationRow.sameWork (row other : OperationRow) : Bool :=
  row.environmentId = other.environmentId ∧ row.componentRef = other.componentRef ∧ row.action = other.action ∧
    row.routingGeneration = other.routingGeneration ∧ row.targetSchemaVersion = other.targetSchemaVersion ∧
    row.migrationSetDigest = other.migrationSetDigest

namespace Directory
variable (d : Directory)

def operation? (id : String) : Option OperationRow := lookup OperationRow.id id d.operations

def setOperation (id : String) (f : OperationRow → OperationRow) : Directory :=
  { d with operations := modify OperationRow.id id f d.operations }

/-- An update of some components of one customer. -/
def setComponents (environmentId : String) (which : Component → Bool) (f : Component → Component) : Directory :=
  { d with
    components := d.components.map fun row =>
      if row.environmentId = environmentId ∧ which row then f row else row }

def customerComponents (environmentId : String) : List Component :=
  d.components.filter fun row => row.environmentId = environmentId

def duplicateId : String := "duplicate key value violates unique constraint \"customer_component_operations_pkey\""

/-- `INSERT .. ON CONFLICT (..) DO UPDATE ..`, for a row that is not there by its work. -/
def insertOperation (row : OperationRow) : Except String Directory :=
  if (d.operation? row.id).isSome then .error duplicateId
  else .ok { d with operations := d.operations ++ [row] }

/-! ## Queueing -/

/-- `coalesce(lease_expires_at,'-infinity') <= clock_timestamp()` -/
def leaseOver (now : ℤ) (row : OperationRow) : Bool := row.leaseExpiresAt.all fun expires => expires ≤ now

def queueOperation (generation : ℕ) (component : Component) (id : String) (now : ℤ) : Except String Directory :=
  let row := component.queued id .reconcile generation
  match d.operations.find? row.sameWork with
  | some old =>
    if old.status ≠ .running ∨ leaseOver now old then
      .ok (d.setOperation old.id fun row =>
        { row with status := .queued, lastError := none, leaseOwner := none, leaseExpiresAt := none })
    else .ok d
  | none => d.insertOperation row

/-- Each selected row draws its own id and reads the clock for itself. -/
def queueCustomerReconciliation (environmentId : String) (draw : String → String × ℤ) : Except String Directory :=
  match d.environment? environmentId with
  | none => .ok d
  | some environment =>
    if environment.desiredState = .ready ∧ environment.movementId = none then
      ((d.customerComponents environmentId).filter fun row => row.desiredState = .ready).foldlM
        (fun d component => d.queueOperation environment.routingGeneration component
          (draw component.componentRef).1 (draw component.componentRef).2) d
    else .ok d

/-! ## Claims and reports -/

def claimable (worker : Worker) (now : ℤ) (row : OperationRow) (environment : Environment) : Bool :=
  environment.runtimeId = worker.runtimeId ∧ environment.movementId = none ∧
    row.routingGeneration = environment.routingGeneration ∧
    (row.status = .queued ∨ row.status = .running ∧ row.leaseExpiresAt.any fun expires => expires < now)

/-- The first operation in turn whose rows nobody has locked. -/
def nextOperation (worker : Worker) (now : ℤ) (locked : List String) : Option OperationRow :=
  d.operations.find? fun row =>
    !locked.contains row.id && !locked.contains row.environmentId &&
      (d.environment? row.environmentId).any (claimable worker now row)

def startOperation (worker : Worker) (now : ℤ) (operation : Operation) : Directory :=
  ((d.setOperation operation.id fun row =>
      { row with
        status := .running
        attempt := row.attempt + 1
        leaseOwner := some worker.instanceId
        leaseExpiresAt := some (now + worker.leaseSeconds) }).setComponents operation.environmentId
    (fun row => row.componentRef = operation.componentRef) fun row =>
      { row with observedState := .reconciling, lastOperationId := some operation.id }).setEnvironment
    operation.environmentId fun row => { row with observedState := .reconciling }

def claim (worker : Worker) (now : ℤ) (locked : List String) : Option (Operation × Directory) :=
  (d.nextOperation worker now locked).map fun row =>
    (row.operation, d.startOperation worker now row.operation)

/-- The customer is still where the operation has been claimed for. -/
def placed (worker : Worker) (operation : Operation) : Bool :=
  (d.environment? operation.environmentId).any fun environment =>
    environment.runtimeId = worker.runtimeId ∧ environment.routingGeneration = operation.routingGeneration ∧
      environment.movementId = none

def leased (worker : Worker) (operation : Operation) : Bool :=
  (d.operation? operation.id).any fun row =>
    row.status = .running ∧ row.leaseOwner = some worker.instanceId

def currentComponent (operation : Operation) (row : Component) : Bool :=
  row.componentRef = operation.componentRef ∧ row.routingGeneration = operation.routingGeneration

def observe (environment : Environment) : ObservedState :=
  if environment.desiredState = .suspended ∧
      (d.customerComponents environment.id).all fun row => row.observedState = .suspended then .suspended
  else if environment.desiredState = .ready ∧
      (d.customerComponents environment.id).all fun row => row.observedState = .ready then .ready
  else .reconciling

def succeedOperation (operation : Operation) : Directory :=
  let recorded := ((d.setOperation operation.id fun row =>
      { row with status := .succeeded, leaseOwner := none, leaseExpiresAt := none, lastError := none }).setComponents
    operation.environmentId (currentComponent operation) fun row =>
      { row with
        observedState := if operation.action = .suspend then .suspended else .ready
        observedSchemaVersion := some operation.targetSchemaVersion
        observedMigrationSetDigest := some operation.migrationSetDigest
        lastError := none })
  recorded.setEnvironment operation.environmentId fun row => { row with observedState := recorded.observe row }

def finish (worker : Worker) (operation : Operation) : Except String Directory :=
  if d.placed worker operation then
    if d.leased worker operation then .ok (d.succeedOperation operation)
    else .error "provisioning attempt is stale"
  else .error "customer placement changed during provisioning"

/-- The text of the error has been cut to its first thousand characters. -/
def fail (worker : Worker) (operation : Operation) (message : String) : Directory :=
  if d.leased worker operation then
    let recorded := d.setOperation operation.id fun row =>
      { row with status := .failed, leaseOwner := none, leaseExpiresAt := none, lastError := some message }
    if d.placed worker operation then
      (recorded.setComponents operation.environmentId (currentComponent operation) fun row =>
        { row with observedState := .failed, lastError := some message }).setEnvironment
          operation.environmentId fun row => { row with observedState := .failed }
    else recorded
  else d

/-! ## Other writers -/

/-- What `move-cli` does with a customer after it has queued its operations. -/
def reopen (environmentId : String) : Directory :=
  (d.setComponents environmentId (fun row => row.desiredState = .ready) fun row =>
    { row with observedState := .pending }).setEnvironment environmentId fun row =>
      { row with observedState := .reconciling }

/-- `INSERT .. ON CONFLICT DO NOTHING` -/
def insertAbsent (row : OperationRow) : Directory :=
  if d.operations.any row.sameWork ∨ (d.operation? row.id).isSome then d
  else { d with operations := d.operations ++ [row] }

def want (environmentId : String) (desired : DesiredState) (generation : ℕ) : Directory :=
  (d.setComponents environmentId (fun _ => true) fun row =>
    { row with desiredState := desired, observedState := .pending, routingGeneration := generation }).setEnvironment
    environmentId fun row =>
      { row with desiredState := desired, observedState := .pending, routingGeneration := generation }

/-- `acceptEntitlement`, for a customer that exists and an event that is new. -/
def acceptEntitlement (environmentId : String) (desired : DesiredState) (draw : String → String) :
    Except String Directory :=
  match d.environment? environmentId with
  | none => .error "entitlement replay has no environment"
  | some environment =>
    let generation := if environment.movementId = none then environment.routingGeneration + 1
      else environment.routingGeneration
    if (d.customerComponents environmentId).isEmpty then .error "default runtime has no component catalog"
    else .ok ((d.customerComponents environmentId).foldl (fun d component =>
      d.insertAbsent (component.queued (draw component.componentRef)
        (if desired = .ready then .reconcile else .suspend) generation)) (d.want environmentId desired generation))

end Directory

end AvenOS.Provisioner
