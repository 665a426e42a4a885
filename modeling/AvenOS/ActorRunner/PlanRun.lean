import AvenOS.Actors.Registry

/-! # Plan runs

The record of a run, its states, its continuations and checkpoints, and what the result of an executor
does to a record. A record is a mutable object of the source: a function that throws has changed it up
to the throw, so it returns the record along with its outcome. -/
namespace AvenOS.ActorRunner
open Actors

/-! ## States -/

inductive PlanRunState
  | accepted
  | planning
  | running
  | waitingForInput
  | succeeded
  | failed
  | cancelled
deriving DecidableEq, Repr

def PlanRunState.text : PlanRunState → String
  | .accepted => "accepted"
  | .planning => "planning"
  | .running => "running"
  | .waitingForInput => "waiting_for_input"
  | .succeeded => "succeeded"
  | .failed => "failed"
  | .cancelled => "cancelled"

def transitions : PlanRunState → List PlanRunState
  | .accepted => [.planning, .cancelled, .failed]
  | .planning => [.running, .waitingForInput, .cancelled, .failed]
  | .running => [.planning, .waitingForInput, .succeeded, .cancelled, .failed]
  | .waitingForInput => [.planning, .running, .cancelled, .failed]
  | .succeeded => []
  | .failed => [.planning, .cancelled]
  | .cancelled => []

def assertPlanRunTransition (source target : PlanRunState) : Except String Unit :=
  if source = target ∨ target ∈ transitions source then .ok ()
  else .error ("invalid plan run transition " ++ source.text ++ " -> " ++ target.text)

/-! ## Requests -/

/-- An admitted command; its material is kept as JSON. -/
structure PlanRunStartRequest where
  protocol : String
  requestId : String
  idempotencyKey : String
  requestedAt : String
  skillRef : String
  executionEnvironment : ExecutionEnvironment
  ingredients : JsValue
  goals : JsValue
  /-- Absent preserves version 1 exact-goal behavior. -/
  goalSpec : Option Record
  parameters : Record
  /-- `security.principal.subjectId`. -/
  subjectId : String
  security : Record

/-- `portableRunClone` of a request; what is text is portable. -/
def PlanRunStartRequest.portable (request : PlanRunStartRequest) : Except String Unit :=
  assertPortableRunValue (.obj
    ([("ingredients", request.ingredients), ("goals", request.goals)] ++
      (request.goalSpec.map fun goalSpec => ("goalSpec", JsValue.obj goalSpec)).toList ++
      [("parameters", .obj request.parameters), ("security", .obj request.security)])) "$"

/-! ## Records -/

inductive ContinuationKind
  | input
  | secret
  | approval
  | assurance
deriving DecidableEq, Repr

inductive Persistence
  | metadataOnly
  | artifact
deriving DecidableEq, Repr

inductive ContinuationState
  | «open»
  | postponed
  | resolved
  | cancelled
deriving DecidableEq, Repr

structure PlanRunContinuation where
  continuationId : String
  kind : ContinuationKind
  schema : String
  subject : Option String
  prompt : String
  /-- Secrets are never persisted; only this request metadata is durable. -/
  persistence : Persistence
  state : ContinuationState
deriving DecidableEq, Repr

/-- A continuation that can still be answered. -/
def PlanRunContinuation.pending (continuation : PlanRunContinuation) : Bool :=
  continuation.state = .«open» || continuation.state = .postponed

structure PlanRunCheckpoint where
  checkpointId : String
  ordinal : ℕ
  committedAt : String
  completedStepIds : List String
  artifactIds : List String
  remainingGoals : List String
  registryRevision : ℕ
  policyDecisionIds : List String
  output : Option Record

structure PlanRunFailure where
  code : String
  message : String
  retryable : Bool
deriving DecidableEq, Repr

structure PlanRunRecord where
  request : PlanRunStartRequest
  runId : String
  revision : ℕ
  state : PlanRunState
  createdAt : String
  updatedAt : String
  checkpoints : List PlanRunCheckpoint
  /-- Latest application progress; informational. -/
  progress : Option Record
  continuations : List PlanRunContinuation
  failure : Option PlanRunFailure

structure PlanRunHandle where
  runId : String
  revision : ℕ
  state : PlanRunState
  executionEnvironment : ExecutionEnvironment
deriving DecidableEq, Repr

def handle (record : PlanRunRecord) : PlanRunHandle :=
  ⟨record.runId, record.revision, record.state, record.request.executionEnvironment⟩

structure PlanRunExecutionResult where
  artifactIds : Option (List String)
  completedStepIds : Option (List String)
  remainingGoals : Option (List String)
  registryRevision : Option ℕ
  policyDecisionIds : Option (List String)
  output : Option Record
  /-- A durable request for information which the executor cannot obtain itself. -/
  continuation : Option PlanRunContinuation

inductive PlanRunContinuationSubmission
  | postpone (requestId continuationId : String)
  | submit (requestId continuationId : String) (kind : ContinuationKind) (value : JsValue)

def PlanRunContinuationSubmission.continuationId : PlanRunContinuationSubmission → String
  | .postpone _ continuationId => continuationId
  | .submit _ continuationId _ _ => continuationId

def PlanRunContinuationSubmission.portable : PlanRunContinuationSubmission → Except String Unit
  | .postpone _ _ => .ok ()
  | .submit _ _ _ value => assertPortableRunValue (.obj [("value", value)]) "$"

/-! ## Results -/

def newRecord (request : PlanRunStartRequest) (runId now : String) : PlanRunRecord where
  request := request
  runId := runId
  revision := 1
  state := .accepted
  createdAt := now
  updatedAt := now
  checkpoints := []
  progress := none
  continuations := []
  failure := none

/-- Where the continuation is that a submission answers. -/
def requiredContinuation (record : PlanRunRecord) (continuationId : String) : Except String ℕ :=
  match record.continuations.findIdx? fun candidate =>
      candidate.continuationId == continuationId && candidate.pending with
  | none => .error "continuation is not open"
  | some index => .ok index

def assertContinuation (continuation : PlanRunContinuation) : Except String Unit :=
  if continuation.state ≠ .«open» then .error "executor continuation must be open"
  else if continuation.kind = .secret ∧ continuation.persistence ≠ .metadataOnly then
    .error "secret continuation metadata cannot request artifact persistence"
  else .ok ()

def upsertContinuation (continuations : List PlanRunContinuation)
    (continuation : PlanRunContinuation) : List PlanRunContinuation :=
  match continuations.findIdx? fun candidate =>
      candidate.continuationId == continuation.continuationId with
  | none => continuations ++ [continuation]
  | some index => continuations.set index continuation

/-- `continuation.state = state` for the continuation at a position. -/
def setContinuationState (continuations : List PlanRunContinuation) (index : ℕ)
    (state : ContinuationState) : List PlanRunContinuation :=
  continuations.modify index fun continuation => { continuation with state := state }

def checkpoint (record : PlanRunRecord) (result : PlanRunExecutionResult)
    (checkpointId now : String) : Except String PlanRunCheckpoint :=
  match assertPortableRunValue (.obj (result.output.getD [])) "$" with
  | .error e => .error e
  | .ok _ => .ok
    { checkpointId := checkpointId
      ordinal := record.checkpoints.length
      committedAt := now
      completedStepIds := result.completedStepIds.getD []
      artifactIds := result.artifactIds.getD []
      remainingGoals := result.remainingGoals.getD []
      registryRevision := result.registryRevision.getD 0
      policyDecisionIds := result.policyDecisionIds.getD []
      output := result.output }

def resolveAnswered (record : PlanRunRecord) (resolved : Option ℕ) (again : Option String) :
    List PlanRunContinuation :=
  match resolved with
  | none => record.continuations
  | some index =>
    if (record.continuations[index]?.map PlanRunContinuation.continuationId) = again then
      record.continuations
    else setContinuationState record.continuations index .resolved

def pushCheckpoint (record : PlanRunRecord) (result : PlanRunExecutionResult)
    (checkpointId now : String) : PlanRunRecord × Except String Unit :=
  match checkpoint record result checkpointId now with
  | .error e => (record, .error e)
  | .ok pushed => ({ record with checkpoints := record.checkpoints ++ [pushed] }, .ok ())

def applyResult (record : PlanRunRecord) (result : PlanRunExecutionResult) (resolved : Option ℕ)
    (checkpointId now : String) : PlanRunRecord × Except String Unit :=
  let remainingGoals := result.remainingGoals.getD []
  match result.continuation with
  | some continuation =>
    match assertContinuation continuation with
    | .error e => (record, .error e)
    | .ok _ =>
      if remainingGoals = [] then
        (record, .error "a continuation must retain at least one unfinished goal")
      else
        let continuations := resolveAnswered record resolved (some continuation.continuationId)
        pushCheckpoint
          { record with
            continuations := upsertContinuation continuations continuation
            state := .waitingForInput } result checkpointId now
  | none =>
    if remainingGoals ≠ [] then
      (record, .error ("executor left unmet goals: " ++ ", ".intercalate remainingGoals))
    else
      pushCheckpoint
        { record with
          continuations := resolveAnswered record resolved none
          state := .succeeded } result checkpointId now

end AvenOS.ActorRunner
