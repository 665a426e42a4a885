import AvenOS.Checkout.Customers
import AvenOS.Foundations.LabelledRun
import Mathlib.Data.Int.Notation

/-! # Subscriptions as the webhook mirrors them

The mapping of the provider's events, `applyEvent`, and the count that `subscribe` weighs. -/
namespace AvenOS.Checkout
open KeyedTable LabelledRun

/-! ## Events -/

structure SubscriptionEvent where
  id : String
  type : String
  providerSubscriptionId : String
  providerCustomerId : Option String
  email : Option String
  userId : Option String
  tier : Option String
  status : String
  currentPeriodEnd : Option String
  cancelAtPeriodEnd : Bool
  pauseAtPeriodEnd : Option Bool
  priceCents : Option ℤ
deriving DecidableEq, Repr

structure PolarCustomer where
  id : Option String
  email : Option String
  externalId : Option String
deriving DecidableEq, Repr

/-- The fields of a subscription in a webhook body. A `pause_at_period_end` of `null` is `some none`. -/
structure PolarSubscription where
  id : Option String
  status : Option String
  customer : PolarCustomer
  customerId : Option String
  metadataUserId : Option String
  metadataTier : Option String
  productTier : Option String
  currentPeriodEnd : Option String
  cancelAtPeriodEnd : Option Bool
  pauseAtPeriodEnd : Option (Option Bool)
  amount : Option ℤ
deriving DecidableEq, Repr

/-- The `data` of a body with a type that starts with `subscription.`. -/
def parsePolarSubscriptionEvent (type : String) (data : PolarSubscription) : Option SubscriptionEvent :=
  if "subscription.".isPrefixOf type then
    let subscriptionId := data.id.getD ""
    if subscriptionId = "" then none
    else
      some {
        id := subscriptionId
        type := type
        providerSubscriptionId := subscriptionId
        providerCustomerId := data.customer.id.or data.customerId
        email := data.customer.email
        userId := data.metadataUserId.or data.customer.externalId
        tier := data.metadataTier.or data.productTier
        status := data.status.getD ""
        currentPeriodEnd := data.currentPeriodEnd
        cancelAtPeriodEnd := data.cancelAtPeriodEnd.getD false
        pauseAtPeriodEnd := data.pauseAtPeriodEnd.map (·.getD false)
        priceCents := data.amount }
  else none

def parsePolarCustomerState (type : String) (data : PolarCustomer) (activeSubscriptions : List PolarSubscription) :
    List SubscriptionEvent :=
  if type = "customer.state_changed" then
    (activeSubscriptions.filter fun sub => sub.id.any (· ≠ "")).map fun sub =>
      { id := sub.id.getD ""
        type := type
        providerSubscriptionId := sub.id.getD ""
        providerCustomerId := data.id
        email := data.email
        userId := data.externalId
        tier := none
        status := sub.status.getD "active"
        currentPeriodEnd := sub.currentPeriodEnd
        cancelAtPeriodEnd := sub.cancelAtPeriodEnd.getD false
        pauseAtPeriodEnd := sub.pauseAtPeriodEnd.map (·.getD false)
        priceCents := sub.amount }
  else []

/-! ## Tables -/

structure SubscriptionRow where
  userId : String
  providerSubscriptionId : String
  tier : String
  status : String
  currentPeriodEnd : Option String
  cancelAtPeriodEnd : Bool
  pauseAtPeriodEnd : Bool
  priceEurCents : ℤ
deriving DecidableEq, Repr

structure BillingCustomer where
  userId : String
  providerCustomerId : String
deriving DecidableEq, Repr

structure Billing where
  checkoutCustomers : List CheckoutCustomer
  billingCustomers : List BillingCustomer
  subscriptions : List SubscriptionRow
deriving DecidableEq, Repr

def Billing.empty : Billing := ⟨[], [], []⟩

def Billing.subscription? (b : Billing) (id : String) : Option SubscriptionRow :=
  lookup SubscriptionRow.providerSubscriptionId id b.subscriptions

/-- What the service is given: the lower case of an address, and the account that the identity service gives
for it, if it answers. -/
structure BillingPlatform where
  toLowerCase : String → String
  provisionVerifiedAccount : String → Option CheckoutCustomer

/-! ## Upserts -/

def Billing.upsertCustomer (b : Billing) (customer : CheckoutCustomer) : Option Billing :=
  (upsertCheckoutCustomer b.checkoutCustomers customer).map fun customers => { b with checkoutCustomers := customers }

def Billing.upsertBillingCustomer (b : Billing) (customer : BillingCustomer) : Billing :=
  { b with
    billingCustomers :=
      if b.billingCustomers.any (·.userId = customer.userId) then
        modify BillingCustomer.userId customer.userId (fun _ => customer) b.billingCustomers
      else b.billingCustomers ++ [customer] }

/-- The values of `INSERT INTO subscriptions`. -/
def SubscriptionEvent.row (event : SubscriptionEvent) (userId : String) : SubscriptionRow where
  userId := userId
  providerSubscriptionId := event.providerSubscriptionId
  tier := event.tier.getD ""
  status := event.status
  currentPeriodEnd := event.currentPeriodEnd
  cancelAtPeriodEnd := event.cancelAtPeriodEnd
  pauseAtPeriodEnd := event.pauseAtPeriodEnd.getD false
  priceEurCents := event.priceCents.getD 0

/-- `ON CONFLICT (provider_subscription_id) DO UPDATE`. -/
def SubscriptionRow.updated (row : SubscriptionRow) (event : SubscriptionEvent) : SubscriptionRow :=
  { row with
    status := event.status
    tier := if event.tier.getD "" = "" then row.tier else event.tier.getD ""
    currentPeriodEnd := event.currentPeriodEnd.or row.currentPeriodEnd
    cancelAtPeriodEnd := event.cancelAtPeriodEnd
    pauseAtPeriodEnd := event.pauseAtPeriodEnd.getD row.pauseAtPeriodEnd
    priceEurCents := if 0 < event.priceCents.getD 0 then event.priceCents.getD 0 else row.priceEurCents }

def Billing.upsertSubscription (b : Billing) (event : SubscriptionEvent) (userId : String) : Billing :=
  { b with
    subscriptions := match b.subscription? event.providerSubscriptionId with
      | some _ =>
        modify SubscriptionRow.providerSubscriptionId event.providerSubscriptionId (·.updated event) b.subscriptions
      | none => b.subscriptions ++ [event.row userId] }

/-! ## `applyEvent` -/

/-- The buyer of an event: none where the event names nobody, and no answer where the transaction fails. -/
def Billing.buyer (platform : BillingPlatform) (b : Billing) (event : SubscriptionEvent) :
    Option (Option String × Billing) :=
  let known := event.userId.filter fun userId => userId ≠ "" && b.checkoutCustomers.any (·.subjectId = userId)
  match known, event.email with
  | some userId, _ => some (some userId, b)
  | none, none => some (none, b)
  | none, some email =>
    if email = "" then some (none, b)
    else
      (platform.provisionVerifiedAccount (platform.toLowerCase email)).bind fun account =>
        (b.upsertCustomer account).map fun b => (some account.subjectId, b)

/-- One transaction; `none` where it is rolled back. -/
def Billing.applyEvent (platform : BillingPlatform) (b : Billing) (event : SubscriptionEvent) :
    Option (Billing × Bool) :=
  (b.buyer platform event).map fun found =>
    match found.1 with
    | none => (b, false)
    | some userId =>
      let b := match event.providerCustomerId.filter (· ≠ "") with
        | some customerId => found.2.upsertBillingCustomer ⟨userId, customerId⟩
        | none => found.2
      (b.upsertSubscription event userId, true)

/-! ## The limit -/

def endedStatuses : List String := ["canceled", "expired", "incomplete_expired", "unpaid", "revoked"]

/-- The rows that `liveCount` counts. -/
def Billing.liveRows (b : Billing) (userId tier : String) : List SubscriptionRow :=
  b.subscriptions.filter fun row => row.userId = userId ∧ row.tier = tier ∧ row.status ∉ endedStatuses

def Billing.liveCount (b : Billing) (userId tier : String) : ℕ := (b.liveRows userId tier).length

def subscriptionTiers : List String := ["aven-ceo"]

inductive SubscribeRefusal
  | unknownTier
  | subscriptionExists
deriving DecidableEq, Repr

def SubscribeRefusal.code : SubscribeRefusal → ℕ × String × String
  | .unknownTier => (400, "VALIDATION_ERROR", "Unknown subscription tier.")
  | .subscriptionExists =>
    (409, "SUBSCRIPTION_EXISTS", "You already have an active subscription for this product.")

/-- The checks of `subscribe`, before it asks the provider for a checkout. -/
def Billing.subscribe (canBuyMore : String → ℕ → Bool) (b : Billing) (userId rawTier : String) :
    Except SubscribeRefusal Unit :=
  if rawTier ∈ subscriptionTiers then
    if canBuyMore rawTier (b.liveCount userId rawTier) then .ok () else .error .subscriptionExists
  else .error .unknownTier

end AvenOS.Checkout
