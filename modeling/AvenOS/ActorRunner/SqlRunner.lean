import AvenOS.ActorRunner.PlanRun
import AvenOS.Foundations.LabelledRun

/-! # Runners over one table

Any number of runner processes over one runs table. A call of `start`, `execute`, `resume` or `cancel`
is a session that takes one SQL statement at a time; between two statements every other session may
take some. The per-run lock is a session lock of the database, and the executor is whatever it likes:
it reports progress, waiting for each report, and then answers or throws. -/
namespace AvenOS.ActorRunner
open Actors

/-! ## The database -/

structure Row where
  subjectId : String
  idempotencyKey : String
  materialHash : String
  state : PlanRunState
  revision : ℕ
  record : PlanRunRecord

/-- What makes the runner call its executor. -/
inductive Attempt
  | accepted
  /-- The continuation that is answered, its kind, and the revision it was read at. -/
  | resumed (continuation : ℕ) (kind : ContinuationKind) (expectedRevision : ℕ)
deriving DecidableEq, Repr

def Attempt.resolved : Attempt → Option ℕ
  | .accepted => none
  | .resumed continuation _ _ => some continuation

inductive Answer
  | handle (handle : PlanRunHandle)
  | executed (updated : Bool)
  | failed (message : String)
deriving DecidableEq, Repr

inductive Purpose
  | execute
  | resume (submission : PlanRunContinuationSubmission)

/-- A call, at the statement it takes next. -/
inductive Call
  | starting (request : PlanRunStartRequest)
  | inserting (request : PlanRunStartRequest)
  | replaying (request : PlanRunStartRequest)
  | fencing (runId : String) (purpose : Purpose)
  | claiming (runId : String) (purpose : Purpose)
  | loading (runId : String) (purpose : Purpose)
  | marking (record : PlanRunRecord) (attempt : Attempt)
  | executing (record : PlanRunRecord) (attempt : Attempt)
  | saving (record : PlanRunRecord) (attempt : Attempt)
  | postponing (record : PlanRunRecord) (expectedRevision : ℕ)
  | settling (runId : String) (answer : Answer)
  | releasing (runId : String) (answer : Answer)
  | cancelling (runId : String)
  | withdrawing (record : PlanRunRecord)

/-- What has been seen of the calls. -/
inductive Event
  | answered (request : PlanRunStartRequest) (answer : Answer)
  | entered (session : ℕ) (runId : String) (attempt : Attempt)
  | returned (session : ℕ) (runId : String) (answer : Answer)

structure World where
  /-- The ids of the table, in the order they were inserted. -/
  ids : List String
  runs : String → Option Row
  executionEnabled : Bool
  executionUnsettled : List String
  locks : ℤ → Option ℕ
  calls : ℕ → Option Call
  sessions : ℕ
  log : List Event

/-- An empty table. -/
def World.start : World := ⟨[], fun _ => none, true, [], fun _ => none, fun _ => none, 0, []⟩

namespace World
variable (w : World)

def setRun (runId : String) (row : Row) : World :=
  { w with runs := Function.update w.runs runId (some row) }

def setCall (session : ℕ) (call : Call) : World :=
  { w with calls := Function.update w.calls session (some call) }

def endCall (session : ℕ) : World := { w with calls := Function.update w.calls session none }

def setLock (key : ℤ) (holder : Option ℕ) : World :=
  { w with locks := Function.update w.locks key holder }

def setUnsettled (unsettled : List String) : World := { w with executionUnsettled := unsettled }

def record (event : Event) : World := { w with log := w.log ++ [event] }

def openCall (call : Call) : World :=
  { w.setCall w.sessions call with sessions := w.sessions + 1 }

def priorRun (request : PlanRunStartRequest) : Option Row :=
  w.ids.findSome? fun runId => (w.runs runId).filter fun row =>
    row.subjectId == request.subjectId && row.idempotencyKey == request.idempotencyKey

def insertRun (runId : String) (row : Row) : World :=
  { w.setRun runId row with ids := w.ids ++ [runId] }

end World

/-! ## Calls -/

/-- What the processes have in common. -/
structure Runner where
  materialHash : PlanRunStartRequest → String
  /-- `hashtext('aven_actor_run'), hashtext(runId)`. -/
  lockKey : String → ℤ
  customerExecutionBarrier : Bool

/-- The clock, a new id, and a new checkpoint id. -/
structure Tick where
  now : String
  uuid : String

def conflict (message : String) : Answer := .failed message

def pausedMessage : String := "Work is paused while this workspace is recovered."

def unsettledMessage : String :=
  "customer execution is paused or a previous attempt requires reconciliation"

def changedMessage : String := "the actor run changed concurrently"

def admitted (request : PlanRunStartRequest) : Except String Unit := do
  request.portable
  if request.executionEnvironment = .server then .ok ()
  else .error "the server runner accepts only server placement"

def newRow (runner : Runner) (request : PlanRunStartRequest) (runId now : String) : Row where
  subjectId := request.subjectId
  idempotencyKey := request.idempotencyKey
  materialHash := runner.materialHash request
  state := .accepted
  revision := 1
  record := newRecord request runId now

/-- `UPDATE runs SET state, revision, record`. -/
def Row.write (row : Row) (record : PlanRunRecord) : Row :=
  { row with state := record.state, revision := record.revision, record := record }

/-- The answer of a call that never took its lock. -/
def refused (purpose : Purpose) (message : String) : Answer :=
  match purpose with
  | .execute => .executed false
  | .resume _ => .failed message

def Attempt.failureMessage (attempt : Attempt) (message : String) : String :=
  match attempt with
  | .resumed _ .secret _ => "Secret continuation execution failed."
  | _ => message

def failRecord (record : PlanRunRecord) (attempt : Attempt) (message : String) : PlanRunRecord :=
  { record with
    state := .failed
    failure := some ⟨"EXECUTION_FAILED", attempt.failureMessage message, false⟩ }

def touch (record : PlanRunRecord) (now : String) : PlanRunRecord :=
  { record with revision := record.revision + 1, updatedAt := now }

/-- The record that is saved after the executor has answered or thrown. -/
def conclude (record : PlanRunRecord) (attempt : Attempt)
    (outcome : Except String PlanRunExecutionResult) (tick : Tick) : PlanRunRecord :=
  match outcome with
  | .error message => touch (failRecord record attempt message) tick.now
  | .ok result =>
    match applyResult record result attempt.resolved tick.uuid tick.now with
    | (record, .error message) => touch (failRecord record attempt message) tick.now
    | (record, .ok _) => touch record tick.now

def reported (record : PlanRunRecord) (progress : Record) (now : String) : PlanRunRecord :=
  touch { record with progress := some progress } now

def postponed (record : PlanRunRecord) (index : ℕ) (now : String) : PlanRunRecord :=
  touch { record with
    continuations := setContinuationState record.continuations index .postponed } now

def withdrawn (record : PlanRunRecord) (now : String) : PlanRunRecord :=
  touch { record with state := .cancelled } now

/-- What `resume` does with the row it has read. -/
def prepareResume (record : PlanRunRecord) (submission : PlanRunContinuationSubmission)
    (now : String) : Except String Call := do
  let index ← requiredContinuation record submission.continuationId
  match submission with
  | .postpone _ _ => .ok (.postponing (postponed record index now) record.revision)
  | .submit _ _ kind _ =>
    match record.continuations[index]? with
    | none => .error "continuation is not open"
    | some continuation =>
      if kind ≠ continuation.kind then .error "continuation kind mismatch"
      else .ok (.marking record (.resumed index continuation.kind record.revision))

/-- `assertPlanRunTransition(record.state, 'running')`, which `execute` does not ask for. -/
def mayRun (record : PlanRunRecord) : Attempt → Except String Unit
  | .accepted => .ok ()
  | .resumed _ _ _ => assertPlanRunTransition record.state .running

section Step
variable (runner : Runner) (w : World) (session : ℕ) (tick : Tick)

def World.answer (request : PlanRunStartRequest) (answer : Answer) : World :=
  (w.endCall session).record (.answered request answer)

/-- A call of `execute`, `resume` or `cancel` that is over. -/
def World.give (runId : String) (answer : Answer) : World :=
  (w.endCall session).record (.returned session runId answer)

def startingStep (request : PlanRunStartRequest) : World :=
  match admitted request with
  | .error message => w.answer session request (.failed message)
  | .ok _ =>
    if runner.customerExecutionBarrier && !w.executionEnabled then
      w.answer session request (.failed pausedMessage)
    else w.setCall session (.inserting request)

/-- A new row starts its own execution. -/
def insertingStep (request : PlanRunStartRequest) : Option World :=
  match w.priorRun request with
  | some _ => some (w.setCall session (.replaying request))
  | none =>
    if (w.runs tick.uuid).isSome then none
    else
      let row := newRow runner request tick.uuid tick.now
      some (((w.insertRun tick.uuid row).answer session request (.handle (handle row.record))).openCall
        (.fencing tick.uuid .execute))

def replayingStep (request : PlanRunStartRequest) : World :=
  match w.priorRun request with
  | some prior =>
    if prior.materialHash = runner.materialHash request then
      w.answer session request (.handle (handle prior.record))
    else w.answer session request
      (conflict "the idempotency key is already bound to another command")
  | none => w.answer session request
      (conflict "the idempotency key is already bound to another command")

def fencingStep (runId : String) (purpose : Purpose) : World :=
  if runner.customerExecutionBarrier && !w.executionEnabled then
    w.give session runId (refused purpose pausedMessage)
  else w.setCall session (.claiming runId purpose)

def claimingStep (runId : String) (purpose : Purpose) : World :=
  match w.locks (runner.lockKey runId) with
  | some _ => w.give session runId (refused purpose "the Actor run is already executing")
  | none => (w.setLock (runner.lockKey runId) (some session)).setCall session (.loading runId purpose)

def loadingStep (runId : String) : Purpose → World
  | .execute =>
    match (w.runs runId).filter fun row => row.state = .accepted with
    | none => w.setCall session (.releasing runId (.executed false))
    | some row => w.setCall session (.marking row.record .accepted)
  | .resume submission =>
    match submission.portable with
    | .error message => w.setCall session (.releasing runId (.failed message))
    | .ok _ =>
      match (w.runs runId).filter fun row => row.state = .waitingForInput with
      | none => w.setCall session (.releasing runId (.failed "the run is not waiting for input"))
      | some row =>
        match prepareResume row.record submission tick.now with
        | .error message => w.setCall session (.releasing runId (.failed message))
        | .ok call => w.setCall session call

/-- The mark of `beginExecution`, unless it is refused. -/
def World.beginExecution (runId : String) : Option World :=
  if runner.customerExecutionBarrier then
    if w.executionEnabled && !w.executionUnsettled.contains runId then
      some (w.setUnsettled (w.executionUnsettled ++ [runId]))
    else none
  else some w

def markingStep (record : PlanRunRecord) (attempt : Attempt) : World :=
  match w.beginExecution runner record.runId with
  | none => w.setCall session (.releasing record.runId (conflict unsettledMessage))
  | some marked =>
    match mayRun record attempt with
    | .error message =>
      marked.setCall session (.saving (touch (failRecord record attempt message) tick.now) attempt)
    | .ok _ =>
      (marked.setCall session (.executing record attempt)).record
        (.entered session record.runId attempt)

def savable (row : Row) : Attempt → Bool
  | .accepted => row.state = .accepted
  | .resumed _ _ expectedRevision =>
    row.state = .waitingForInput && row.revision = expectedRevision

def savedAnswer (record : PlanRunRecord) : Attempt → Answer
  | .accepted => .executed true
  | .resumed _ _ _ => .handle (handle record)

def overtakenAnswer : Attempt → Answer
  | .accepted => .executed false
  | .resumed _ _ _ => conflict changedMessage

def savingStep (record : PlanRunRecord) (attempt : Attempt) : World :=
  match (w.runs record.runId).filter fun row => savable row attempt with
  | none => w.setCall session (.releasing record.runId (overtakenAnswer attempt))
  | some row =>
    (w.setRun record.runId (row.write record)).setCall session
      (.settling record.runId (savedAnswer record attempt))

def postponingStep (record : PlanRunRecord) (expectedRevision : ℕ) : World :=
  match (w.runs record.runId).filter fun row =>
      row.state = .waitingForInput && row.revision = expectedRevision with
  | none => w.setCall session (.releasing record.runId (conflict changedMessage))
  | some row =>
    (w.setRun record.runId (row.write record)).setCall session
      (.releasing record.runId (.handle (handle record)))

/-- `endExecution`. -/
def settlingStep (runId : String) (answer : Answer) : World :=
  let settled := if runner.customerExecutionBarrier then
      w.setUnsettled (w.executionUnsettled.filter (· ≠ runId)) else w
  settled.setCall session (.releasing runId answer)

def releasingStep (runId : String) (answer : Answer) : World :=
  (w.setLock (runner.lockKey runId) none).give session runId answer

def cancellingStep (runId : String) : World :=
  match w.runs runId with
  | none => w.give session runId (.failed "run not found")
  | some row =>
    if row.record.state = .cancelled then w.give session runId (.handle (handle row.record))
    else
      match assertPlanRunTransition row.record.state .cancelled with
      | .error message => w.give session runId (.failed message)
      | .ok _ => w.setCall session (.withdrawing (withdrawn row.record tick.now))

def withdrawingStep (record : PlanRunRecord) : World :=
  match (w.runs record.runId).filter fun row => row.revision = record.revision - 1 with
  | none => w.give session record.runId (conflict changedMessage)
  | some row =>
    (w.setRun record.runId (row.write record)).give session record.runId (.handle (handle record))

/-- The next statement of a call; the executor moves on its own. -/
def advance : Call → Option World
  | .starting request => some (startingStep runner w session request)
  | .inserting request => insertingStep runner w session tick request
  | .replaying request => some (replayingStep runner w session request)
  | .fencing runId purpose => some (fencingStep runner w session runId purpose)
  | .claiming runId purpose => some (claimingStep runner w session runId purpose)
  | .loading runId purpose => some (loadingStep w session tick runId purpose)
  | .marking record attempt => some (markingStep runner w session tick record attempt)
  | .executing _ _ => none
  | .saving record attempt => some (savingStep w session record attempt)
  | .postponing record expectedRevision => some (postponingStep w session record expectedRevision)
  | .settling runId answer => some (settlingStep runner w session runId answer)
  | .releasing runId answer => some (releasingStep runner w session runId answer)
  | .cancelling runId => some (cancellingStep w session tick runId)
  | .withdrawing record => some (withdrawingStep w session record)

/-- `reportProgress`: the record in memory moves on even if the row is no longer active. -/
def reportingStep (progress : Record) : Call → Option World
  | .executing record .accepted =>
    match assertPortableRunValue (.obj progress) "$" with
    | .error _ => some w
    | .ok _ =>
      let next := reported record progress tick.now
      match (w.runs record.runId).filter fun row => row.state = .accepted with
      | none => some (w.setCall session (.executing next .accepted))
      | some row =>
        some ((w.setRun record.runId
          { row with revision := next.revision, record := next }).setCall session
            (.executing next .accepted))
  | _ => none

def finishingStep (outcome : Except String PlanRunExecutionResult) : Call → Option World
  | .executing record attempt =>
    some (w.setCall session (.saving (conclude record attempt outcome tick) attempt))
  | _ => none

end Step

/-! ## The machine -/

inductive Action
  | start (request : PlanRunStartRequest)
  /-- An execution that the recovery of accepted runs issues. -/
  | execute (runId : String)
  | resume (runId : String) (submission : PlanRunContinuationSubmission)
  | cancel (runId : String)
  /-- The controller closes or reopens the fence. -/
  | setEnabled (enabled : Bool)
  | advance (session : ℕ) (tick : Tick)
  | report (session : ℕ) (tick : Tick) (progress : Record)
  | finish (session : ℕ) (tick : Tick) (outcome : Except String PlanRunExecutionResult)
  /-- The process of a session is gone, and its locks with it. -/
  | crash (session : ℕ)

def crashed (w : World) (session : ℕ) : World :=
  { w.endCall session with
    locks := fun key => if w.locks key = some session then none else w.locks key }

def step (runner : Runner) (w : World) : Action → Option World
  | .start request => some (w.openCall (.starting request))
  | .execute runId => some (w.openCall (.fencing runId .execute))
  | .resume runId submission => some (w.openCall (.fencing runId (.resume submission)))
  | .cancel runId => some (w.openCall (.cancelling runId))
  | .setEnabled enabled => some { w with executionEnabled := enabled }
  | .advance session tick => (w.calls session).bind (advance runner w session tick)
  | .report session tick progress => (w.calls session).bind (reportingStep w session tick progress)
  | .finish session tick outcome => (w.calls session).bind (finishingStep w session tick outcome)
  | .crash session => some (crashed w session)

end AvenOS.ActorRunner
