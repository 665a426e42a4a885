import AvenOS.Foundations.KeyedTable
import AvenOS.Foundations.LabelledRun
import AvenOS.Foundations.StableSort
import Mathlib.Data.Rat.Floor

/-! # The email queue and its workers

`enqueueSystemEmail`, `recoverExpiredLeases`, `claimEmails` and the ticks of `EmailWorker`. A claim is one
transaction that locks what it takes; recovery, success and failure are one statement each. -/
namespace AvenOS.Checkout
open KeyedTable LabelledRun StableSort

inductive EmailStatus
  | queued
  | retryWait
  | sending
  | sent
  | dead
deriving DecidableEq, Repr

/-- A row of `email_queue`; times are in milliseconds. -/
structure EmailRow where
  id : String
  templateKey : String
  toAddress : String
  payloadEncrypted : Option String
  status : EmailStatus
  priority : ℤ
  attempts : ℕ
  maxAttempts : ℕ
  availableAt : ℕ
  leaseOwner : Option String
  leaseExpiresAt : Option ℕ
  idempotencyKey : Option String
  lastErrorCode : Option String
  createdAt : ℕ
deriving DecidableEq, Repr

structure EnqueueSystemEmailInput where
  template : String
  toAddress : String
  payloadEncrypted : String
  idempotencyKey : Option String
  priority : Option ℤ
  availableAt : Option ℕ
deriving DecidableEq, Repr

def EnqueueSystemEmailInput.row (input : EnqueueSystemEmailInput) (id : String) (maxAttempts now : ℕ) :
    EmailRow where
  id := id
  templateKey := input.template
  toAddress := input.toAddress
  payloadEncrypted := some input.payloadEncrypted
  status := .queued
  priority := input.priority.getD 0
  attempts := 0
  maxAttempts := maxAttempts
  availableAt := input.availableAt.getD now
  leaseOwner := none
  leaseExpiresAt := none
  idempotencyKey := input.idempotencyKey
  lastErrorCode := none
  createdAt := now

/-- `ON CONFLICT (idempotency_key) DO NOTHING`. -/
def enqueueSystemEmail (rows : List EmailRow) (input : EnqueueSystemEmailInput) (id : String)
    (maxAttempts now : ℕ) : List EmailRow :=
  if input.idempotencyKey.isSome ∧ ∃ row ∈ rows, row.idempotencyKey = input.idempotencyKey then rows
  else rows ++ [input.row id maxAttempts now]

/-! ## Statements of the worker -/

namespace EmailRow
variable (row : EmailRow)

def expired (now : ℕ) : Bool := row.status = .sending ∧ row.leaseExpiresAt.any (· < now)

def recovered (now : ℕ) : EmailRow :=
  { row with status := .retryWait, leaseOwner := none, leaseExpiresAt := none, availableAt := now }

/-- The condition under which a claim takes an email. -/
def claimable (now : ℕ) : Bool :=
  (row.status = .queued ∨ row.status = .retryWait) ∧ row.availableAt ≤ now ∧
    row.leaseExpiresAt.all (· < now) ∧ row.payloadEncrypted.isSome

def leased (owner : String) (lease : ℕ) : EmailRow :=
  { row with
    status := .sending, leaseOwner := some owner, leaseExpiresAt := some lease, attempts := row.attempts + 1 }

def sent : EmailRow :=
  { row with
    status := .sent, payloadEncrypted := none, leaseOwner := none, leaseExpiresAt := none
    lastErrorCode := none }

def abandoned (errorCode : String) : EmailRow :=
  { row with status := .dead, leaseOwner := none, leaseExpiresAt := none, lastErrorCode := some errorCode }

def retried (nextAttemptAt : ℕ) : EmailRow :=
  { row with
    status := .retryWait, availableAt := nextAttemptAt, leaseOwner := none, leaseExpiresAt := none
    lastErrorCode := some "EMAIL_TRANSIENT_FAILURE" }

end EmailRow

def recoverExpiredLeases (rows : List EmailRow) (now : ℕ) : List EmailRow :=
  rows.map fun row => if row.expired now then row.recovered now else row

/-- `ORDER BY priority DESC, created_at ASC`. -/
def claimOrder (row other : EmailRow) : Ordering :=
  (compare other.priority row.priority).then (compare row.createdAt other.createdAt)

structure EmailWorkerConfig where
  batchSize : ℕ
  leaseSeconds : ℕ
  retryBaseSeconds : ℕ
  retryMaxSeconds : ℕ
deriving DecidableEq, Repr

/-- What a claim returns of an email; the attempt it returns counts itself. -/
structure ClaimedEmail where
  id : String
  templateKey : String
  toAddress : String
  payloadEncrypted : Option String
  attempts : ℕ
  maxAttempts : ℕ
deriving DecidableEq, Repr

def EmailRow.claimed (row : EmailRow) : ClaimedEmail :=
  ⟨row.id, row.templateKey, row.toAddress, row.payloadEncrypted, row.attempts + 1, row.maxAttempts⟩

/-- `skipped` are the emails that other transactions hold. -/
def claimBatch (config : EmailWorkerConfig) (rows : List EmailRow) (now : ℕ) (skipped : List String) :
    List EmailRow :=
  (sortBy claimOrder (rows.filter fun row => row.claimable now && !skipped.contains row.id)).take config.batchSize

def claimEmails (config : EmailWorkerConfig) (rows : List EmailRow) (owner : String) (now : ℕ)
    (skipped : List String) : List EmailRow × List ClaimedEmail :=
  let batch := claimBatch config rows now skipped
  (rows.map fun row =>
      if row.id ∈ batch.map EmailRow.id then row.leased owner (now + config.leaseSeconds * 1000) else row,
    batch.map EmailRow.claimed)

def updateLeased (rows : List EmailRow) (id owner : String) (change : EmailRow → EmailRow) : List EmailRow :=
  rows.map fun row => if row.id = id ∧ row.leaseOwner = some owner then change row else row

inductive SmtpFailureKind
  | retry
  | dead
deriving DecidableEq, Repr

/-- `random` is what `Math.random` gives. -/
def retryDelaySeconds (attempt base maximum : ℕ) (random : ℚ) : ℕ :=
  let delay := min (base * 2 ^ (attempt - 1)) maximum
  delay + ⌊random * min (delay / 4 : ℚ) 60⌋.toNat

/-- What a failed delivery writes. -/
def failureChange (config : EmailWorkerConfig) (email : ClaimedEmail) (kind : SmtpFailureKind) (now : ℕ)
    (random : ℚ) (row : EmailRow) : EmailRow :=
  if kind = .dead ∨ email.maxAttempts ≤ email.attempts then
    row.abandoned (if kind = .dead then "EMAIL_PERMANENT_FAILURE" else "EMAIL_ATTEMPTS_EXHAUSTED")
  else
    row.retried (now + retryDelaySeconds email.attempts config.retryBaseSeconds config.retryMaxSeconds random * 1000)

/-! ## Workers -/

/-- A worker, whether a tick of it is under way, and how many ticks have claimed. -/
structure WorkerState where
  owner : String
  active : Bool
  batch : ℕ
deriving DecidableEq, Repr

inductive DeliveryStage
  | delivering
  | failing (kind : SmtpFailureKind)
  | ended
deriving DecidableEq, Repr

/-- A call of `deliver`. The end of its lease is known to nobody. -/
structure EmailDelivery where
  owner : String
  batch : ℕ
  email : ClaimedEmail
  lease : ℕ
  stage : DeliveryStage
deriving DecidableEq, Repr

/-- Whether a statement takes effect, and whether its reply arrives. -/
inductive StatementEnd
  | answered
  | lost
  | failed
deriving DecidableEq, Repr

/-- `claims` are the ids that claims have taken, in order. -/
structure EmailWorld where
  now : ℕ
  rows : List EmailRow
  workers : List WorkerState
  deliveries : List EmailDelivery
  claims : List String
deriving Repr

def EmailWorld.empty : EmailWorld := ⟨0, [], [], [], []⟩

inductive EmailAction
  | wait (milliseconds : ℕ)
  | enqueue (input : EnqueueSystemEmailInput) (id : String) (maxAttempts readAt : ℕ)
  | start (owner : String)
  | crash (owner : String)
  | recover (readAt : ℕ)
  | claim (owner : String) (readAt : ℕ) (skipped : List String) (answered : Bool)
  | sent (delivery : ℕ) (statement : StatementEnd) (kind : SmtpFailureKind)
  | fails (delivery : ℕ) (kind : SmtpFailureKind)
  | close (delivery readAt : ℕ) (random : ℚ) (statement : StatementEnd)
  | tickEnds (owner : String)

namespace EmailWorld
variable (w : EmailWorld)

def row? (id : String) : Option EmailRow := lookup EmailRow.id id w.rows

def worker? (owner : String) : Option WorkerState := lookup WorkerState.owner owner w.workers

def stand (k : ℕ) (delivery : EmailDelivery) (stage : DeliveryStage) : List EmailDelivery :=
  w.deliveries.set k { delivery with stage := stage }

/-- A tick is over where a delivery of its batch throws. -/
def rejected (delivery : EmailDelivery) : List WorkerState :=
  modify WorkerState.owner delivery.owner
    (fun worker => if worker.batch = delivery.batch then { worker with active := false } else worker) w.workers

def pending (worker : WorkerState) : Bool :=
  w.deliveries.any fun delivery =>
    delivery.owner = worker.owner ∧ delivery.batch = worker.batch ∧ delivery.stage ≠ .ended

end EmailWorld

def emailStep (config : EmailWorkerConfig) (w : EmailWorld) : EmailAction → Option EmailWorld
  | .wait milliseconds => some { w with now := w.now + milliseconds }
  | .enqueue input id maxAttempts readAt =>
    if (w.row? id).isNone ∧ 0 < maxAttempts ∧ readAt ≤ w.now then
      some { w with rows := enqueueSystemEmail w.rows input id maxAttempts readAt }
    else none
  | .start owner =>
    if (w.worker? owner).isNone ∧ ∀ delivery ∈ w.deliveries, delivery.owner ≠ owner then
      some { w with workers := w.workers ++ [⟨owner, false, 0⟩] }
    else none
  | .crash owner =>
    some { w with
      workers := w.workers.filter (·.owner ≠ owner)
      deliveries := w.deliveries.map fun delivery =>
        if delivery.owner = owner then { delivery with stage := .ended } else delivery }
  | .recover readAt =>
    if readAt ≤ w.now then some { w with rows := recoverExpiredLeases w.rows readAt } else none
  | .claim owner readAt skipped answered =>
    (w.worker? owner).bind fun worker =>
      if worker.active = false ∧ readAt ≤ w.now then
        let taken := claimEmails config w.rows owner readAt skipped
        some { w with
          rows := taken.1
          workers := modify WorkerState.owner owner
            (fun worker => { worker with active := answered, batch := worker.batch + 1 }) w.workers
          deliveries := w.deliveries ++ if answered then
            taken.2.map (⟨owner, worker.batch + 1, ·, readAt + config.leaseSeconds * 1000, .delivering⟩) else []
          claims := w.claims ++ taken.2.map (·.id) }
      else none
  | .sent k statement kind =>
    (w.deliveries[k]?).bind fun delivery =>
      if delivery.stage = .delivering then
        some { w with
          rows := if statement = .failed then w.rows
            else updateLeased w.rows delivery.email.id delivery.owner EmailRow.sent
          deliveries := w.stand k delivery (if statement = .answered then .ended else .failing kind) }
      else none
  | .fails k kind =>
    (w.deliveries[k]?).bind fun delivery =>
      if delivery.stage = .delivering then some { w with deliveries := w.stand k delivery (.failing kind) } else none
  | .close k readAt random statement =>
    (w.deliveries[k]?).bind fun delivery =>
      match delivery.stage with
      | .failing kind =>
        if readAt ≤ w.now then
          some { w with
            rows := if statement = .failed then w.rows
              else updateLeased w.rows delivery.email.id delivery.owner
                (failureChange config delivery.email kind readAt random)
            workers := if statement = .answered then w.workers else w.rejected delivery
            deliveries := w.stand k delivery .ended }
        else none
      | _ => none
  | .tickEnds owner =>
    (w.worker? owner).bind fun worker =>
      if worker.active = true ∧ w.pending worker = false then
        some { w with
          workers := modify WorkerState.owner owner (fun worker => { worker with active := false }) w.workers }
      else none

end AvenOS.Checkout
