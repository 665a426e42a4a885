import AvenOS.Foundations.LabelledRun
import Mathlib.Logic.Function.Basic

/-! # The ledger of webhook deliveries

`PolarWebhookDeliveryStore` and the route that uses it. A delivery has one row under the id that the provider
gave it; a handler claims the row, works, and writes how it went. A claim is up to three statements, with a
reading of the clock between the second and the third. -/
namespace AvenOS.Checkout
open LabelledRun

/-! ## Rows and statements -/

inductive DeliveryState
  | processing
  | processed
  | failed
deriving DecidableEq, Repr

structure PolarWebhookDelivery (Payload : Type) where
  deliveryId : String
  eventId : Option String
  eventType : String
  payload : Payload
  headers : List (String × Option String)

/-- A row of `polar_webhook_deliveries`; times are in milliseconds. -/
structure DeliveryRow (Payload : Type) where
  eventId : Option String
  eventType : String
  payload : Payload
  headers : List (String × Option String)
  state : DeliveryState
  attemptCount : ℕ
  processingError : Option String
  receivedAt : ℕ
  lastAttemptAt : ℕ
  processedAt : Option ℕ

variable {Payload : Type}

/-- The row that `INSERT` writes. -/
def PolarWebhookDelivery.inserted (delivery : PolarWebhookDelivery Payload) (now : ℕ) : DeliveryRow Payload where
  eventId := delivery.eventId
  eventType := delivery.eventType
  payload := delivery.payload
  headers := delivery.headers
  state := .processing
  attemptCount := 1
  processingError := none
  receivedAt := now
  lastAttemptAt := now
  processedAt := none

/-- `5 * 60_000`. -/
def attemptLease : ℕ := 300000

inductive ClaimVerdict
  | conflict
  | processed
  | inFlight
  | reclaim (staleBefore : ℕ)
deriving DecidableEq, Repr

def PolarWebhookDelivery.judge [DecidableEq Payload] (delivery : PolarWebhookDelivery Payload)
    (existing : Option (DeliveryRow Payload)) (now : ℕ) : ClaimVerdict :=
  match existing with
  | none => .conflict
  | some row =>
    if row.eventId ≠ delivery.eventId ∨ row.eventType ≠ delivery.eventType ∨ row.payload ≠ delivery.payload then
      .conflict
    else if row.state = .processed then .processed
    else if row.state = .processing ∧ now - attemptLease ≤ row.lastAttemptAt then .inFlight
    else .reclaim (now - attemptLease)

namespace DeliveryRow
variable (row : DeliveryRow Payload)

/-- The condition of the `UPDATE` that takes a delivery over. -/
def reclaimable (staleBefore : ℕ) : Bool :=
  row.state = .failed ∨ row.state = .processing ∧ row.lastAttemptAt < staleBefore

def reclaimed (now : ℕ) : DeliveryRow Payload :=
  { row with
    state := .processing, attemptCount := row.attemptCount + 1, processingError := none, lastAttemptAt := now }

def processed (now : ℕ) : DeliveryRow Payload :=
  { row with state := .processed, processingError := none, processedAt := some now }

/-- `error` is the text as it is cut to 2,000 characters. -/
def failed (error : String) : DeliveryRow Payload :=
  { row with state := .failed, processingError := some error, processedAt := none }

end DeliveryRow

/-! ## Handlers -/

inductive DeliveryAnswer
  | received
  | replay
  | inFlight
  | conflict
  | failed
deriving DecidableEq, Repr

/-- Where a handler is. The number of its attempt and the time of its claim are known to nobody else. -/
inductive HandlerStage (Payload : Type)
  | inserting
  | selecting
  | judging (existing : Option (DeliveryRow Payload))
  | reclaiming (staleBefore : ℕ)
  | working (attempt since : ℕ)
  | ended (answer : Option DeliveryAnswer)

inductive HandlerAct
  | insert
  | select
  | judge
  | reclaim
  | processed
  | failed (error : String)
  | dies
deriving DecidableEq, Repr

/-- One act of a handler: what becomes of the row of its delivery, and where the handler is then. A statement
that fails, or whose reply is lost, is followed by `dies`. -/
def PolarWebhookDelivery.advance [DecidableEq Payload] (delivery : PolarWebhookDelivery Payload) (now : ℕ)
    (row : Option (DeliveryRow Payload)) :
    HandlerStage Payload → HandlerAct → Option (Option (DeliveryRow Payload) × HandlerStage Payload)
  | .inserting, .insert =>
    match row with
    | none => some (some (delivery.inserted now), .working 1 now)
    | some _ => some (row, .selecting)
  | .selecting, .select => some (row, .judging row)
  | .judging existing, .judge =>
    match delivery.judge existing now with
    | .conflict => some (row, .ended (some .conflict))
    | .processed => some (row, .ended (some .replay))
    | .inFlight => some (row, .ended (some .inFlight))
    | .reclaim staleBefore => some (row, .reclaiming staleBefore)
  | .reclaiming staleBefore, .reclaim =>
    match row with
    | none => some (none, .ended (some .inFlight))
    | some existing =>
      if existing.reclaimable staleBefore then
        some (some (existing.reclaimed now), .working (existing.attemptCount + 1) now)
      else some (row, .ended (some .inFlight))
  | .working _ _, .processed => some (row.map (·.processed now), .ended (some .received))
  | .working _ _, .failed error => some (row.map (·.failed error), .ended (some .failed))
  | .ended _, .dies => none
  | _, .dies => some (row, .ended none)
  | _, _ => none

structure Handler (Payload : Type) where
  delivery : PolarWebhookDelivery Payload
  stage : HandlerStage Payload

structure DeliveryLedger (Payload : Type) where
  now : ℕ
  rows : String → Option (DeliveryRow Payload)
  handlers : List (Handler Payload)

def DeliveryLedger.empty : DeliveryLedger Payload := ⟨0, fun _ => none, []⟩

inductive DeliveryAction (Payload : Type)
  | wait (milliseconds : ℕ)
  | receive (delivery : PolarWebhookDelivery Payload)
  | act (handler : ℕ) (act : HandlerAct)

variable [DecidableEq Payload]

def deliveryStep (w : DeliveryLedger Payload) : DeliveryAction Payload → Option (DeliveryLedger Payload)
  | .wait milliseconds => some { w with now := w.now + milliseconds }
  | .receive delivery => some { w with handlers := w.handlers ++ [⟨delivery, .inserting⟩] }
  | .act k act =>
    (w.handlers[k]?).bind fun handler =>
      (handler.delivery.advance w.now (w.rows handler.delivery.deliveryId) handler.stage act).map fun next =>
        { w with
          rows := Function.update w.rows handler.delivery.deliveryId next.1
          handlers := w.handlers.set k ⟨handler.delivery, next.2⟩ }

end AvenOS.Checkout
