import AvenOS.Checkout.Customers
import AvenOS.Foundations.LabelledRun

/-! # The registry of names

`NameService`: requests, reservations, and what paid and refunded orders do. Every transaction on a name holds the
advisory lock of the name; a transaction is one step, and `now()` is its start. -/
namespace AvenOS.Checkout
open KeyedTable LabelledRun

/-! ## Names -/

/-- `/^[a-z0-9](?:[a-z0-9-]{1,30}[a-z0-9])$/`. -/
def namePattern (value : List Char) : Bool :=
  let inner (c : Char) : Bool := c.isLower || c.isDigit || c = '-'
  let outer (c : Char) : Bool := c.isLower || c.isDigit
  3 ≤ value.length && value.length ≤ 32 && value.head?.any outer && value.getLast?.any outer && value.all inner

def reservedNames : List String :=
  ["admin", "administrator", "api", "app", "aven", "billing", "dashboard", "help", "id", "login", "logout", "mail",
    "name", "names", "official", "pay", "payment", "root", "security", "signup", "smtp", "staff", "status",
    "support", "system", "tasks", "test", "webmail", "www"]

inductive NameRefusal
  | invalid
  | reserved
  | taken
  | locked
  | held
deriving DecidableEq, Repr

def NameRefusal.code : NameRefusal → String
  | .invalid => "NAME_INVALID"
  | .reserved => "NAME_RESERVED"
  | .taken => "NAME_TAKEN"
  | .locked => "NAME_LOCKED"
  | .held => "NAME_HELD"

def validateName (value : String) : Option NameRefusal :=
  if namePattern value.toList = false then some .invalid
  else if value ∈ reservedNames then some .reserved
  else none

/-- What the service is given. `toLowerCase` leaves what has no upper case, and `trim` what has no blanks. -/
structure NamePlatform where
  toLowerCase : String → String
  trim : String → String
  sha256Hex : String → String
  isBearerToken : String → Bool
  provisionAccount : String → Option CheckoutCustomer
  reservationTtlMinutes : ℕ
  holdTtlHours : ℕ
  lower_plain : ∀ value, namePattern value.toList = true → toLowerCase value = value
  trim_plain : ∀ value, namePattern value.toList = true → trim value = value

def NamePlatform.normalizeName (platform : NamePlatform) (value : String) : String :=
  platform.toLowerCase (platform.trim value)

/-! ## Tables -/

/-- A row of `name_holds`; times are in milliseconds. -/
structure NameHold where
  id : String
  name : String
  email : String
  claimTokenHash : String
  successTokenHash : String
  checkoutId : Option String
  checkoutUrl : Option String
  emailConfirmedAt : Option ℕ
  reservedUntil : Option ℕ
  expiresAt : ℕ
deriving DecidableEq, Repr

inductive NameStatus
  | owned
  | revoked
deriving DecidableEq, Repr

structure NameRow where
  name : String
  ownerUserId : String
  status : NameStatus
  checkoutId : Option String
  orderId : Option String
  revokeReason : Option String
deriving DecidableEq, Repr

/-- A row of `payment_events`. -/
structure PaymentRecord where
  id : String
  eventType : String
  checkoutId : Option String
deriving DecidableEq, Repr

/-- The audit of an order that lost its name. -/
structure PurchaseConflict where
  name : String
  eventId : String
  checkoutId : Option String
  email : Option String
deriving DecidableEq, Repr

structure NameRegistry where
  holds : List NameHold
  names : List NameRow
  paymentEvents : List PaymentRecord
  customers : List CheckoutCustomer
  conflicts : List PurchaseConflict
deriving DecidableEq, Repr

def NameRegistry.empty : NameRegistry := ⟨[], [], [], [], []⟩

structure PaymentEvent where
  id : String
  type : String
  checkoutId : Option String
  orderId : Option String
  email : Option String
  metadataName : Option String
  metadataHoldId : Option String
deriving DecidableEq, Repr

/-- The fields of an order or a refund in a webhook body. -/
structure PolarOrder where
  id : Option String
  checkoutId : Option String
  orderId : Option String
  customerEmail : Option String
  dataCustomerEmail : Option String
  metadataName : Option String
  metadataHoldId : Option String
deriving DecidableEq, Repr

def parsePolarEvent (type : String) (data : PolarOrder) : PaymentEvent where
  id := data.id.getD ""
  type := type
  checkoutId := data.checkoutId
  orderId := if "order.".isPrefixOf type then data.id else data.orderId
  email := data.customerEmail.or data.dataCustomerEmail
  metadataName := data.metadataName
  metadataHoldId := data.metadataHoldId

/-! ## Requests and reservations -/

namespace NameHold
variable (hold : NameHold)

def reserved (now : ℕ) : Bool := hold.reservedUntil.any (now ≤ ·)

/-- The row after the `UPDATE` of a claim. -/
def claimed (platform : NamePlatform) (checkoutId checkoutUrl successHash : String) (now : ℕ) : NameHold :=
  { hold with
    checkoutId := hold.checkoutId.or (some checkoutId)
    checkoutUrl := hold.checkoutUrl.or (some checkoutUrl)
    successTokenHash := if hold.successTokenHash = "" then successHash else hold.successTokenHash
    emailConfirmedAt := hold.emailConfirmedAt.or (some now)
    reservedUntil := some (now + platform.reservationTtlMinutes * 60000) }

def checkout? : Option (String × String) :=
  match hold.checkoutId.filter (· ≠ ""), hold.checkoutUrl.filter (· ≠ "") with
  | some id, some url => some (id, url)
  | _, _ => none

end NameHold

namespace NameRegistry
variable (platform : NamePlatform) (r : NameRegistry)

def name? (name : String) : Option NameRow := lookup NameRow.name name r.names

def hold? (id : String) : Option NameHold := lookup NameHold.id id r.holds

def recorded (id : String) : Bool := r.paymentEvents.any (·.id = id)

/-- The statement that `availability` begins with. -/
def deleteExpired (name : String) (now : ℕ) : NameRegistry :=
  { r with holds := r.holds.filter fun hold => !(hold.name = name && hold.expiresAt < now) }

/-- What `availability` finds when nothing has been said against the name itself. -/
def unavailable (name : String) (now : ℕ) : Option NameRefusal :=
  match r.name? name with
  | some row => some (if row.status = .owned then .taken else .locked)
  | none => if r.holds.any fun hold => hold.name = name && hold.reserved now then some .held else none

def availability (raw : String) (now : ℕ) : NameRegistry × Option NameRefusal :=
  let name := platform.normalizeName raw
  match validateName name with
  | some refusal => (r, some refusal)
  | none =>
    let r := r.deleteExpired name now
    (r, r.unavailable name now)

def emailOwnsName (email : String) : Bool :=
  match r.customers.find? fun customer => platform.toLowerCase customer.email = platform.toLowerCase email with
  | none => false
  | some customer => r.names.any fun row => row.ownerUserId = customer.subjectId && row.status = .owned

/-- The transaction of `secure`. -/
def request (name email tokenHash holdId : String) (now : ℕ) : NameRegistry :=
  let mine (hold : NameHold) : Bool :=
    hold.name = name && platform.toLowerCase hold.email = platform.toLowerCase email && now ≤ hold.expiresAt
  if r.holds.any mine then
    { r with holds := r.holds.map fun hold => if mine hold then { hold with claimTokenHash := tokenHash } else hold }
  else
    { r with
      holds := r.holds ++
        [⟨holdId, name, email, tokenHash, "", none, none, none, none, now + platform.holdTtlHours * 3600000⟩] }

inductive ClaimRefusal
  | malformed
  | expired
  | purchased
  | limitReached
  | held
deriving DecidableEq, Repr

def ClaimRefusal.code : ClaimRefusal → ℕ × String × String
  | .malformed => (400, "CLAIM_TOKEN_INVALID", "The claim link is malformed.")
  | .expired => (410, "CLAIM_LINK_EXPIRED", "This claim link is no longer valid.")
  | .purchased => (410, "NAME_UNAVAILABLE", "This name has been purchased in the meantime.")
  | .limitReached => (410, "NAME_LIMIT_REACHED", "This email already owns a name.")
  | .held => (410, "NAME_HELD", "Someone else is completing a purchase for this name right now.")

/-- What `claim` reads before it asks for a checkout. -/
def claimHold (token : String) (now : ℕ) : Except ClaimRefusal NameHold :=
  if platform.isBearerToken token then
    match r.holds.find? fun hold => hold.claimTokenHash = platform.sha256Hex token && now ≤ hold.expiresAt with
    | none => .error .expired
    | some hold => .ok hold
  else .error .malformed

/-- The transaction of `claim`, with the hold as it was read. -/
def reserve (hold : NameHold) (checkoutId checkoutUrl successHash : String) (now : ℕ) :
    Except ClaimRefusal NameRegistry :=
  if (r.name? hold.name).isSome then .error .purchased
  else if r.emailOwnsName platform hold.email then .error .limitReached
  else if r.holds.any fun other => other.name = hold.name && other.id ≠ hold.id && other.reserved now then
    .error .held
  else if r.holds.any fun other => other.id = hold.id && now ≤ other.expiresAt then
    .ok { r with
      holds := modify NameHold.id hold.id (·.claimed platform checkoutId checkoutUrl successHash now) r.holds }
  else .error .expired

/-! ## Paid and refunded orders -/

def holdOf (event : PaymentEvent) (name : String) : Option NameHold :=
  (r.hold? (event.metadataHoldId.getD "")).or (r.holds.find? fun hold => hold.name = name)

def buyerEmail (event : PaymentEvent) (name : String) : String :=
  platform.toLowerCase ((event.email.or ((r.holdOf event name).map NameHold.email)).getD "")

def record (event : PaymentEvent) : NameRegistry :=
  { r with paymentEvents := r.paymentEvents ++ [⟨event.id, event.type, event.checkoutId⟩] }

/-- One transaction; `none` where it is rolled back. -/
def grantFromEvent (event : PaymentEvent) : Option (NameRegistry × Bool) :=
  let name := platform.normalizeName (event.metadataName.getD "")
  if name = "" ∨ event.id = "" then none
  else if r.recorded event.id then some (r, false)
  else
    match r.name? name with
    | some existing =>
      if existing.checkoutId ≠ event.checkoutId then
        some ({ r.record event with
          conflicts := r.conflicts ++
            [⟨name, event.id, event.checkoutId, event.email.or ((r.holdOf event name).map NameHold.email)⟩] }, false)
      else some (r.record event, false)
    | none =>
      if r.buyerEmail platform event name = "" then none
      else
        (platform.provisionAccount (r.buyerEmail platform event name)).bind fun user =>
          (upsertCheckoutCustomer r.customers user).map fun customers =>
            ({ r.record event with
              customers := customers
              names := r.names ++ [⟨name, user.subjectId, .owned, event.checkoutId, event.orderId, none⟩]
              holds := r.holds.filter fun hold => hold.name ≠ name }, true)

/-- The rows that a refund finds. -/
def refundable (event : PaymentEvent) (row : NameRow) : Bool :=
  let metadataName := platform.normalizeName (event.metadataName.getD "")
  row.status = .owned &&
    (metadataName ≠ "" && row.name = metadataName ||
      event.checkoutId.isSome && row.checkoutId = event.checkoutId ||
      event.orderId.isSome && row.orderId = event.orderId)

/-- One transaction; `pick` says which of the rows comes first. -/
def revokeFromEvent (event : PaymentEvent) (pick : ℕ) : Option (NameRegistry × Bool) :=
  if event.id = "" then none
  else if r.recorded event.id then some (r, false)
  else
    match r.names.filter (refundable platform event) with
    | [] => some (r.record event, false)
    | first :: rest =>
      let row := ((first :: rest)[pick]?).getD first
      some ({ r.record event with
        names := modify NameRow.name row.name
          (fun row => { row with status := .revoked, revokeReason := some event.type }) r.names }, true)

end NameRegistry

/-! ## The provider, and the calls under way -/

/-- A checkout that a claim has asked for. -/
structure NameCheckout where
  id : String
  name : String
  email : String
  holdId : String
deriving DecidableEq, Repr

structure NameOrder where
  id : String
  checkoutId : String
  email : Option String
deriving DecidableEq, Repr

/-- A refund names its order; what else it says of the order is up to the provider. -/
structure NameRefund where
  id : String
  orderId : String
  checkoutId : Option String
  metadataName : Option String
deriving DecidableEq, Repr

def NameOrder.event (order : NameOrder) (checkout : NameCheckout) : PaymentEvent :=
  parsePolarEvent "order.paid"
    ⟨some order.id, some order.checkoutId, none, order.email, none, some checkout.name, some checkout.holdId⟩

def NameRefund.event (refund : NameRefund) : PaymentEvent :=
  parsePolarEvent "refund.created"
    ⟨some refund.id, refund.checkoutId, some refund.orderId, none, none, refund.metadataName, none⟩

/-- A call of `secure` that has passed its checks. -/
structure RequestCall where
  name : String
  email : String
  tokenHash : String
deriving DecidableEq, Repr

inductive ClaimStage
  | reading
  | ready (checkoutId checkoutUrl successHash : String)
  | ended
deriving DecidableEq, Repr

/-- A call of `claim`, with the hold that it has read. -/
structure ClaimCall where
  hold : NameHold
  stage : ClaimStage
deriving DecidableEq, Repr

structure NameWorld where
  now : ℕ
  registry : NameRegistry
  requests : List RequestCall
  claims : List ClaimCall
  checkouts : List NameCheckout
  orders : List NameOrder
  refunds : List NameRefund
deriving DecidableEq, Repr

def NameWorld.empty : NameWorld := ⟨0, .empty, [], [], [], [], []⟩

inductive NameAction
  | wait (milliseconds : ℕ)
  | availability (raw : String)
  | secure (raw email token : String)
  | request (call : ℕ) (holdId : String) (startedAt : ℕ)
  | claim (token : String)
  | checkout (call : ℕ) (checkoutId checkoutUrl successHash : String)
  | reserve (call startedAt : ℕ)
  | pays (checkoutId orderId : String) (email : Option String)
  | refunds (orderId refundId : String) (withCheckout : Bool) (metadataName : Option String)
  | paid (orderId : String)
  | refunded (refundId : String) (pick : ℕ)
deriving DecidableEq, Repr

namespace NameWorld
variable (w : NameWorld)

def checkout? (id : String) : Option NameCheckout := lookup NameCheckout.id id w.checkouts

def order? (id : String) : Option NameOrder := lookup NameOrder.id id w.orders

def refund? (id : String) : Option NameRefund := lookup NameRefund.id id w.refunds

/-- The provider gives every thing an id of its own. -/
def fresh (id : String) : Bool :=
  id ≠ "" && (w.checkout? id).isNone && (w.order? id).isNone && (w.refund? id).isNone

def freshHold (id : String) : Bool :=
  (w.registry.hold? id).isNone && w.claims.all (·.hold.id ≠ id) && w.checkouts.all (·.holdId ≠ id)

def paidEvent (orderId : String) : Option (NameCheckout × PaymentEvent) :=
  (w.order? orderId).bind fun order =>
    (w.checkout? order.checkoutId).map fun checkout => (checkout, order.event checkout)

end NameWorld

/-- A checkout is paid once; a delivery whose transaction fails changes nothing. -/
def nameStep (platform : NamePlatform) (w : NameWorld) : NameAction → Option NameWorld
  | .wait milliseconds => some { w with now := w.now + milliseconds }
  | .availability raw => some { w with registry := (w.registry.availability platform raw w.now).1 }
  | .secure raw email token =>
    let checked := w.registry.availability platform raw w.now
    if (checked.2 = none ∨ checked.2 = some .held) ∧ checked.1.emailOwnsName platform email = false then
      some { w with
        registry := checked.1
        requests := w.requests ++ [⟨platform.normalizeName raw, email, platform.sha256Hex token⟩] }
    else some { w with registry := checked.1 }
  | .request k holdId startedAt =>
    (w.requests[k]?).bind fun call =>
      if w.freshHold holdId ∧ startedAt ≤ w.now then
        some { w with
          registry := w.registry.request platform call.name call.email call.tokenHash holdId startedAt }
      else none
  | .claim token =>
    match w.registry.claimHold platform token w.now with
    | .error _ => some w
    | .ok hold =>
      let stage := match hold.checkout? with
        | some (id, url) => .ready id url ""
        | none => .reading
      some { w with claims := w.claims ++ [⟨hold, stage⟩] }
  | .checkout k checkoutId checkoutUrl successHash =>
    (w.claims[k]?).bind fun call =>
      if call.stage = .reading ∧ w.fresh checkoutId then
        some { w with
          claims := w.claims.set k { call with stage := .ready checkoutId checkoutUrl successHash }
          checkouts := w.checkouts ++ [⟨checkoutId, call.hold.name, call.hold.email, call.hold.id⟩] }
      else none
  | .reserve k startedAt =>
    (w.claims[k]?).bind fun call =>
      match call.stage with
      | .ready checkoutId checkoutUrl successHash =>
        if startedAt ≤ w.now then
          match w.registry.reserve platform call.hold checkoutId checkoutUrl successHash startedAt with
          | .error _ => some { w with claims := w.claims.set k { call with stage := .ended } }
          | .ok registry =>
            some { w with registry := registry, claims := w.claims.set k { call with stage := .ended } }
        else none
      | _ => none
  | .pays checkoutId orderId email =>
    (w.checkout? checkoutId).bind fun _ =>
      if w.fresh orderId ∧ ∀ order ∈ w.orders, order.checkoutId ≠ checkoutId then
        some { w with orders := w.orders ++ [⟨orderId, checkoutId, email⟩] }
      else none
  | .refunds orderId refundId withCheckout metadataName =>
    (w.order? orderId).bind fun order =>
      if w.fresh refundId then
        some { w with
          refunds := w.refunds ++
            [⟨refundId, orderId, if withCheckout then some order.checkoutId else none, metadataName⟩] }
      else none
  | .paid orderId =>
    (w.paidEvent orderId).map fun found =>
      match w.registry.grantFromEvent platform found.2 with
      | none => w
      | some (registry, _) => { w with registry := registry }
  | .refunded refundId pick =>
    (w.refund? refundId).map fun refund =>
      match w.registry.revokeFromEvent platform refund.event pick with
      | none => w
      | some (registry, _) => { w with registry := registry }

end AvenOS.Checkout
