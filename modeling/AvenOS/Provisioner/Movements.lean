import AvenOS.Provisioner.Directory

/-! # Movements of a customer

`CustomerMovementStore` and `resumeMovement`, statement by statement. A transaction holds the row lock of its
environment from its first statement that takes it to its end; what it writes is seen when it commits. -/
namespace AvenOS.Provisioner
open Actors (JsValue Record)
open KeyedTable

def maxSafeInteger : ℕ := 9007199254740991

/-- `evidence || $4::jsonb` -/
def mergeEvidence (evidence added : Record) : Record :=
  evidence.filter (fun field => added.all fun other => other.1 != field.1) ++ added

/-! ## Evidence of components -/

structure VerifiedComponent where
  componentRef : String
  schemaVersion : ℕ
  migrationSetDigest : String
deriving DecidableEq, Repr

/-- A property of a value that may be missing; `null` has none to ask for. -/
def property (name : String) : JsValue → Except String (Option JsValue)
  | .null => .error "Cannot read properties of null"
  | .obj fields => .ok (fields.lookup name)
  | _ => .ok none

/-- Whether a `Set` holds two members of a document as one. -/
def sameMember : Option JsValue → Option JsValue → Bool
  | none, none => true
  | some .null, some .null => true
  | some (.bool one), some (.bool other) => one == other
  | some (.num one), some (.num other) => one == other
  | some (.str one), some (.str other) => one == other
  | _, _ => false

def isReference (ref : String) : Option JsValue → Bool
  | some (.str text) => text == ref
  | _ => false

def isDigest (text : String) : Bool :=
  text.length == 64 && text.toList.all fun c => c.isDigit || ('a' ≤ c && c ≤ 'f')

/-- The largest `integer` of the database. -/
def maxInteger : ℕ := 2147483647

def verifiedComponent (value : JsValue) : Except String VerifiedComponent := do
  let ref ← property "component_ref" value
  let version ← property "schema_version" value
  let digest ← property "migration_set_digest" value
  match ref, version, digest with
  | some (.str ref), some (.num version), some (.str digest) =>
    if version.den = 1 ∧ 1 ≤ version ∧ version ≤ maxSafeInteger ∧ isDigest digest then
      if version ≤ maxInteger then .ok ⟨ref, version.num.toNat, digest⟩ else .error "integer out of range"
    else .error "verified component evidence is invalid"
  | _, _, _ => .error "verified component evidence is invalid"

def verifiedComponents (evidence : Record) (required : List String) :
    Except String (List VerifiedComponent) :=
  match evidence.lookup "verifiedComponents" with
  | some (.arr (first :: rest)) => do
    let refs ← (first :: rest).mapM (property "component_ref")
    if refs.Pairwise (fun one other => sameMember one other = false) ∧
        required.all (fun ref => refs.any (isReference ref)) then
      (first :: rest).mapM verifiedComponent
    else .error "verified components do not cover the customer installation"
  | _ => .error "verified component evidence is missing"

/-! ## Statements -/

structure BeginInput where
  id : String
  environmentId : String
  sourceRuntimeId : String
  destinationRuntimeId : String
  expectedGeneration : ℕ
  rollbackOf : Option String
  acceptDivergence : Bool
deriving DecidableEq, Repr

namespace Directory
variable (d : Directory)

def boundRuntimes (input : BeginInput) : ℕ :=
  (d.runtimes.filter fun runtime => (runtime.id = input.sourceRuntimeId ∨
    runtime.id = input.destinationRuntimeId) ∧ runtime.releaseSha.isSome ∧ !runtime.retired).length

def provisioning (environmentId : String) : Bool :=
  d.operations.any fun operation => operation.environmentId = environmentId ∧ operation.status = .running

def retained? (id : String) : Option Movement :=
  (d.movement? id).filter fun movement => movement.phase = .activated ∨ movement.phase = .completed

def newMovement (input : BeginInput) : Movement where
  id := input.id
  environmentId := input.environmentId
  sourceRuntimeId := input.sourceRuntimeId
  destinationRuntimeId := input.destinationRuntimeId
  sourceGeneration := input.expectedGeneration
  destinationGeneration := input.expectedGeneration + 1
  phase := .paused
  mode := if input.rollbackOf.isSome then .rollback else .move
  rollbackOf := input.rollbackOf
  acceptDivergence := input.acceptDivergence
  evidence := []

def supersede : Option Movement → Directory
  | some retained =>
    if retained.phase = .activated then
      d.setMovement retained.id fun row => if row.phase = .activated then { row with phase := .superseded } else row
    else d
  | none => d

/-- The constraints and the unique index of `0002_customer_movement.sql`. -/
def insertMovement (input : BeginInput) : Except String Directory :=
  if (d.movement? input.id).isSome then .error "duplicate key value violates unique constraint"
  else if (d.environment? input.environmentId).isNone then .error "violates foreign key constraint"
  else if input.sourceRuntimeId = input.destinationRuntimeId ∨ input.expectedGeneration = 0 ∨
      input.rollbackOf.isSome ≠ input.acceptDivergence then .error "violates check constraint"
  else if d.movements.any fun row => row.environmentId = input.environmentId ∧ row.phase.active then
    .error "duplicate key value violates unique constraint \"customer_movement_active_idx\""
  else .ok { d with movements := d.movements ++ [newMovement input] }

/-- The statements of `begin` from the first that writes to the commit. -/
def place (input : BeginInput) (retained : Option Movement) : Except String Directory :=
  ((d.supersede retained).insertMovement input).map fun inserted =>
    inserted.setEnvironment input.environmentId fun row => { row with movementId := some input.id }

def advance (id : String) (source target : MovementPhase) (evidence : Record) : Except String Directory :=
  match d.movement? id with
  | none => .error "movement phase changed"
  | some movement =>
    if movement.phase = source then
      .ok (d.setMovement id fun row => { row with phase := target, evidence := mergeEvidence row.evidence evidence })
    else .error "movement phase changed"

/-- `phase IN ('paused','fenced','copied','verified','returning','cancelled')` -/
def returnable (movement : Movement) : Bool :=
  (movement.phase.pending || movement.phase = .cancelled) && movement.destinationGeneration < maxSafeInteger

def requestReturn (id : String) : Except String Directory :=
  match d.movement? id with
  | none => .error "return is only allowed before activation; use explicit retained rollback afterwards"
  | some movement =>
    if returnable movement then
      .ok (d.setMovement id fun row =>
        { row with phase := if row.phase = .cancelled then row.phase else .returning })
    else .error "return is only allowed before activation; use explicit retained rollback afterwards"

def putComponent (environmentId : String) (generation : ℕ) (component : VerifiedComponent) : Directory :=
  if d.components.any fun row => row.environmentId = environmentId ∧
      row.componentRef = component.componentRef then
    { d with
      components := d.components.map fun row =>
        if row.environmentId = environmentId ∧ row.componentRef = component.componentRef then
          { row with
            targetSchemaVersion := component.schemaVersion
            observedSchemaVersion := some component.schemaVersion
            migrationSetDigest := component.migrationSetDigest
            observedMigrationSetDigest := some component.migrationSetDigest
            routingGeneration := generation
            observedState := .ready }
        else row }
  else
    { d with
      components := d.components ++
        [{ environmentId := environmentId
           componentRef := component.componentRef
           desiredState := .ready
           observedState := .ready
           targetSchemaVersion := component.schemaVersion
           observedSchemaVersion := some component.schemaVersion
           migrationSetDigest := component.migrationSetDigest
           observedMigrationSetDigest := some component.migrationSetDigest
           routingGeneration := generation
           lastOperationId := none
           lastError := none }] }

def requiredComponents (environmentId : String) : List String :=
  (d.components.filter fun row => row.environmentId = environmentId).map Component.componentRef

/-- What `activate` has written when it commits. -/
def publish (movement : Movement) (returnEvidence : Option Record) (components : List VerifiedComponent) :
    Directory :=
  (components.foldl (fun d component => d.putComponent movement.environmentId movement.destinationGeneration
      component)
    (d.setEnvironment movement.environmentId fun row =>
      { row with
        runtimeId := movement.destinationRuntimeId
        routingGeneration := movement.destinationGeneration
        movementId := none
        observedState := .ready })).setMovement movement.id fun row =>
    { row with
      phase := if returnEvidence.isSome then .cancelled else .activated
      evidence := mergeEvidence row.evidence (returnEvidence.getD []) }

end Directory

/-! ## Checks -/

def priorMatches (input : BeginInput) (prior : Movement) : Bool :=
  prior.environmentId = input.environmentId ∧ prior.sourceRuntimeId = input.sourceRuntimeId ∧
    prior.destinationRuntimeId = input.destinationRuntimeId ∧
    prior.sourceGeneration = input.expectedGeneration ∧ prior.rollbackOf = input.rollbackOf ∧
    prior.acceptDivergence = input.acceptDivergence

/-- The customer is where the caller believes, and nothing is under way. -/
def placeable (input : BeginInput) (environment : Environment) : Bool :=
  environment.runtimeId = input.sourceRuntimeId ∧ environment.routingGeneration = input.expectedGeneration ∧
    environment.movementId = none ∧ environment.desiredState = .ready ∧ environment.observedState = .ready

def mayRollBack (input : BeginInput) (retained : Movement) : Bool :=
  input.acceptDivergence ∧ retained.environmentId = input.environmentId ∧
    retained.sourceRuntimeId = input.destinationRuntimeId ∧
    retained.destinationRuntimeId = input.sourceRuntimeId

def successor : MovementPhase → Option MovementPhase
  | .paused => some .fenced
  | .fenced => some .copied
  | .copied => some .verified
  | .activated => some .completed
  | _ => none

def returned (movement : Movement) (evidence : Record) : Movement :=
  { movement with
    destinationRuntimeId := movement.sourceRuntimeId
    destinationGeneration := movement.destinationGeneration + 1
    evidence := mergeEvidence movement.evidence evidence }

def openActivation (movement : Movement) : Option Record → Except String Movement
  | none => .ok movement
  | some evidence =>
    if movement.phase = .returning then .ok (returned movement evidence)
    else .error "movement is not returning"

def guardedPhase (returnEvidence : Option Record) : MovementPhase :=
  if returnEvidence.isSome then .returning else .verified

def activatable (movement : Movement) (environment : Environment) : Bool :=
  environment.movementId = some movement.id ∧ environment.runtimeId = movement.sourceRuntimeId ∧
    environment.routingGeneration = movement.sourceGeneration ∧ environment.desiredState = .ready

end AvenOS.Provisioner
