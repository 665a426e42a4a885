import AvenOS.Checkout.Subscriptions
import Mathlib.Data.List.Perm.Subperm

/-! # The limit of subscriptions per account

`subscribe` weighs what the webhook has mirrored, and then asks the provider for a checkout, which the buyer
completes at any later time. -/
namespace AvenOS.Checkout
open KeyedTable LabelledRun

/-! ## Calls, checkouts and what the provider holds -/

inductive SubscribeStage
  | tested
  | created (checkoutId : String)
  | ended
deriving DecidableEq, Repr

/-- A call of `subscribe` that has passed its checks; `counted` are the subscriptions that it has counted. -/
structure SubscribeCall where
  userId : String
  tier : String
  counted : List String
  stage : SubscribeStage
deriving DecidableEq, Repr

structure ProviderCheckout where
  checkoutId : String
  userId : String
  tier : String
  counted : List String
  completed : Bool
deriving DecidableEq, Repr

structure ProviderSubscription where
  id : String
  userId : String
  tier : String
  live : Bool
deriving DecidableEq, Repr

/-- `billingCheckouts` are the rows of `billing_checkouts`. -/
structure SalesWorld where
  billing : Billing
  calls : List SubscribeCall
  billingCheckouts : List (String × String)
  checkouts : List ProviderCheckout
  subscriptions : List ProviderSubscription
deriving DecidableEq, Repr

def SalesWorld.empty : SalesWorld := ⟨.empty, [], [], [], []⟩

inductive SalesAction
  | subscribe (userId tier : String)
  | create (call : ℕ) (checkoutId : String)
  | record (call : ℕ)
  | fails (call : ℕ)
  | complete (checkoutId subscriptionId : String)
  | ends (subscriptionId : String)
  | webhook (event : SubscriptionEvent)
deriving DecidableEq, Repr

namespace SalesWorld
variable (w : SalesWorld)

def checkout? (id : String) : Option ProviderCheckout := lookup ProviderCheckout.checkoutId id w.checkouts

def held (userId tier : String) : List ProviderSubscription :=
  w.subscriptions.filter fun subscription =>
    subscription.userId = userId ∧ subscription.tier = tier ∧ subscription.live

end SalesWorld

section Steps
variable (platform : BillingPlatform) (canBuyMore : String → ℕ → Bool)

/-- A checkout is completed once, and gives a new subscription; a subscription that is over stays so. -/
def salesStep (w : SalesWorld) : SalesAction → Option SalesWorld
  | .subscribe userId tier =>
    match w.billing.subscribe canBuyMore userId tier with
    | .error _ => some w
    | .ok () =>
      some { w with
        calls := w.calls ++
          [⟨userId, tier, (w.billing.liveRows userId tier).map SubscriptionRow.providerSubscriptionId, .tested⟩] }
  | .create k checkoutId =>
    (w.calls[k]?).bind fun call =>
      if call.stage = .tested ∧ w.checkout? checkoutId = none then
        some { w with
          calls := w.calls.set k { call with stage := .created checkoutId }
          checkouts := w.checkouts ++ [⟨checkoutId, call.userId, call.tier, call.counted, false⟩] }
      else none
  | .record k =>
    (w.calls[k]?).bind fun call =>
      match call.stage with
      | .created checkoutId =>
        some { w with
          calls := w.calls.set k { call with stage := .ended }
          billingCheckouts := w.billingCheckouts ++ [(call.userId, checkoutId)] }
      | _ => none
  | .fails k => (w.calls[k]?).map fun call => { w with calls := w.calls.set k { call with stage := .ended } }
  | .complete checkoutId subscriptionId =>
    (w.checkout? checkoutId).bind fun checkout =>
      if checkout.completed = false ∧ ∀ subscription ∈ w.subscriptions, subscription.id ≠ subscriptionId then
        some { w with
          checkouts := modify ProviderCheckout.checkoutId checkoutId (fun checkout => { checkout with completed := true })
            w.checkouts
          subscriptions := w.subscriptions ++ [⟨subscriptionId, checkout.userId, checkout.tier, true⟩] }
      else none
  | .ends subscriptionId =>
    some { w with
      subscriptions := modify ProviderSubscription.id subscriptionId
        (fun subscription => { subscription with live := false }) w.subscriptions }
  | .webhook event =>
    match w.billing.applyEvent platform event with
    | none => some w
    | some (billing, _) => some { w with billing := billing }

end Steps

/-- Nobody holds more than purchases one after the other would have been allowed. -/
def WithinLimit (canBuyMore : String → ℕ → Bool) (w : SalesWorld) : Prop :=
  ∀ userId tier, ∀ held < (w.held userId tier).length, canBuyMore tier held = true

/-- What the account of a checkout holds when it is completed was counted when it was asked for. -/
def countedAll (w : SalesWorld) : SalesAction → Bool
  | .complete checkoutId _ =>
    (w.checkout? checkoutId).all fun checkout =>
      (w.held checkout.userId checkout.tier).all fun subscription => checkout.counted.contains subscription.id
  | _ => true

/-! ## What every step keeps -/

/-- Every call and every checkout has counted fewer than the limit, and subscriptions have ids of their own. -/
structure SalesSound (canBuyMore : String → ℕ → Bool) (w : SalesWorld) : Prop where
  calls : ∀ call ∈ w.calls, canBuyMore call.tier call.counted.length = true
  checkouts : ∀ checkout ∈ w.checkouts, canBuyMore checkout.tier checkout.counted.length = true
  keyed : Keyed ProviderSubscription.id w.subscriptions
  within : WithinLimit canBuyMore w

section Sound
variable {platform : BillingPlatform} {canBuyMore : String → ℕ → Bool} {w w' : SalesWorld} {action : SalesAction}

theorem salesSound_empty : SalesSound canBuyMore .empty where
  calls := nofun
  checkouts := nofun
  keyed := Keyed.nil
  within _ _ _ hheld := absurd hheld (Nat.not_lt_zero _)

variable {userId tier : String}

theorem subscribe_ok {b : Billing} (h : b.subscribe canBuyMore userId tier = .ok ()) :
    canBuyMore tier (b.liveCount userId tier) = true := by
  unfold Billing.subscribe at h
  split at h
  · split at h
    · assumption
    · cases h
  · cases h

theorem set_calls {k : ℕ} {call : SubscribeCall} {stage : SubscribeStage} (h : SalesSound canBuyMore w)
    (hcall : w.calls[k]? = some call) : ∀ other ∈ w.calls.set k { call with stage := stage },
      canBuyMore other.tier other.counted.length = true := by
  intro other hother
  rcases List.mem_or_eq_of_mem_set hother with hold | rfl
  · exact h.calls other hold
  · exact h.calls call (List.mem_of_getElem? hcall)

theorem held_counted (h : SalesSound canBuyMore w) {counted : List String}
    (hall : ∀ subscription ∈ w.held userId tier, subscription.id ∈ counted) :
    (w.held userId tier).length ≤ counted.length := by
  have hnodup : ((w.held userId tier).map ProviderSubscription.id).Nodup :=
    List.Nodup.sublist (List.filter_sublist.map _) h.keyed
  have hsubset : (w.held userId tier).map ProviderSubscription.id ⊆ counted := by
    intro id hid
    obtain ⟨subscription, hsubscription, rfl⟩ := List.mem_map.mp hid
    exact hall subscription hsubscription
  have hle := (List.subperm_of_subset hnodup hsubset).length_le
  rw [List.length_map] at hle
  exact hle

theorem ended_held {subscriptionId : String} : (SalesWorld.held { w with
      subscriptions := modify ProviderSubscription.id subscriptionId
        (fun subscription => { subscription with live := false }) w.subscriptions } userId tier).length ≤
      (w.held userId tier).length := by
  unfold SalesWorld.held KeyedTable.modify
  rw [List.filter_map, List.length_map]
  apply List.Sublist.length_le
  apply List.monotone_filter_right
  intro subscription hlive
  by_cases hid : subscription.id = subscriptionId
  · rw [Function.comp, if_pos hid] at hlive
    exact absurd (of_decide_eq_true hlive).2.2 nofun
  · rw [Function.comp, if_neg hid] at hlive
    exact hlive

theorem SalesSound.step (h : SalesSound canBuyMore w)
    (hlimit : ∀ tier held more, held ≤ more → canBuyMore tier more = true → canBuyMore tier held = true)
    (hcounted : countedAll w action = true) (hstep : salesStep platform canBuyMore w action = some w') :
    SalesSound canBuyMore w' := by
  cases action with
  | subscribe userId tier =>
    rw [salesStep] at hstep
    split at hstep
    · cases hstep
      exact h
    · rename_i hok
      cases hstep
      refine ⟨fun call hcall => ?_, h.checkouts, h.keyed, h.within⟩
      rcases List.mem_append.mp hcall with hold | hnew
      · exact h.calls call hold
      · rw [List.mem_singleton.mp hnew, List.length_map]
        exact subscribe_ok hok
  | create k checkoutId =>
    obtain ⟨call, hcall, hnext⟩ := Option.bind_eq_some_iff.mp hstep
    obtain ⟨-, rfl⟩ := guarded_some hnext
    refine ⟨set_calls h hcall, fun checkout hcheckout => ?_, h.keyed, h.within⟩
    rcases List.mem_append.mp hcheckout with hold | hnew
    · exact h.checkouts checkout hold
    · rw [List.mem_singleton.mp hnew]
      exact h.calls call (List.mem_of_getElem? hcall)
  | record k =>
    obtain ⟨call, hcall, hnext⟩ := Option.bind_eq_some_iff.mp hstep
    split at hnext
    · cases hnext
      exact ⟨set_calls h hcall, h.checkouts, h.keyed, h.within⟩
    · cases hnext
  | fails k =>
    obtain ⟨call, hcall, rfl⟩ := Option.map_eq_some_iff.mp hstep
    exact ⟨set_calls h hcall, h.checkouts, h.keyed, h.within⟩
  | complete checkoutId subscriptionId =>
    obtain ⟨checkout, hcheckout, hnext⟩ := Option.bind_eq_some_iff.mp hstep
    obtain ⟨⟨-, hnew⟩, rfl⟩ := guarded_some hnext
    refine ⟨h.calls, fun other hother => ?_, h.keyed.concat hnew, fun userId tier held hheld => ?_⟩
    · obtain ⟨old, hold, ⟨-, rfl⟩ | ⟨-, rfl⟩⟩ := mem_modify hother
      · exact h.checkouts old hold
      · exact h.checkouts other hold
    · unfold SalesWorld.held at hheld
      rw [List.filter_append, List.length_append] at hheld
      by_cases hsame : checkout.userId = userId ∧ checkout.tier = tier
      · obtain ⟨rfl, rfl⟩ := hsame
        rw [countedAll, hcheckout, Option.all_some, List.all_eq_true] at hcounted
        have hle := held_counted h fun subscription hsubscription =>
          List.contains_iff_mem.mp (hcounted subscription hsubscription)
        have hallowed := h.checkouts checkout (lookup_some hcheckout).1
        refine hlimit _ _ _ ?_ hallowed
        have hone := List.length_filter_le (fun subscription : ProviderSubscription =>
          decide (subscription.userId = checkout.userId ∧ subscription.tier = checkout.tier ∧ subscription.live))
          [⟨subscriptionId, checkout.userId, checkout.tier, true⟩]
        rw [List.length_singleton] at hone
        unfold SalesWorld.held at hle
        omega
      · have hnone : [(⟨subscriptionId, checkout.userId, checkout.tier, true⟩ : ProviderSubscription)].filter
            (fun subscription => subscription.userId = userId ∧ subscription.tier = tier ∧ subscription.live) = [] :=
          List.filter_cons_of_neg (by
            rw [decide_eq_true_iff]
            exact fun hboth => hsame ⟨hboth.1, hboth.2.1⟩)
        rw [hnone, List.length_nil, Nat.add_zero] at hheld
        exact h.within userId tier held hheld
  | ends subscriptionId =>
    cases hstep
    refine ⟨h.calls, h.checkouts, h.keyed.modify (by intro; rfl), fun userId tier held hheld => ?_⟩
    exact h.within userId tier held (Nat.lt_of_lt_of_le hheld ended_held)
  | webhook event =>
    rw [salesStep] at hstep
    split at hstep
    · cases hstep
      exact h
    · cases hstep
      exact ⟨h.calls, h.checkouts, h.keyed, h.within⟩

end Sound

/-! ## Whole runs -/

section Runs
variable {platform : BillingPlatform} {canBuyMore : String → ℕ → Bool} {maxPerAccount : String → ℕ}

/-- Where no checkout is completed beside a subscription that its call has not counted, nobody holds more than is
allowed. -/
theorem subscriptions_limited
    (hlimit : ∀ tier held, canBuyMore tier held = true ↔ held < maxPerAccount tier) {actions : List SalesAction}
    (h : along (salesStep platform canBuyMore) countedAll .empty actions = true) {w : SalesWorld}
    (hrun : run (salesStep platform canBuyMore) .empty actions = some w) : WithinLimit canBuyMore w := by
  have hantitone : ∀ tier held more, held ≤ more → canBuyMore tier more = true → canBuyMore tier held = true := by
    intro tier held more hle hmore
    exact (hlimit tier held).mpr (Nat.lt_of_le_of_lt hle ((hlimit tier more).mp hmore))
  have hsound : SalesSound canBuyMore w := along_invariant
    (fun _ _ _ hcounted hsound hstep => hsound.step hantitone hcounted hstep) h salesSound_empty hrun
  exact hsound.within

end Runs

/-! ## Two tabs -/

def oneEach (_ : String) (held : ℕ) : Bool := held < 1

def nobodyNew : BillingPlatform := ⟨id, fun _ => none⟩

/-- Two calls of one account, each with a checkout. -/
def twoTabs : List SalesAction :=
  [.subscribe "u1" "aven-ceo", .subscribe "u1" "aven-ceo", .create 0 "co_1", .record 0, .create 1 "co_2", .record 1,
    .complete "co_1" "sub_1"]

theorem subscriptions_limited_abandoned :
    ∃ w, run (salesStep nobodyNew oneEach) .empty twoTabs = some w ∧ WithinLimit oneEach w := by
  have hruns : (run (salesStep nobodyNew oneEach) .empty twoTabs).isSome = true := by decide +kernel
  obtain ⟨w, hw⟩ := Option.isSome_iff_exists.mp hruns
  have hlimit : ∀ tier held, oneEach tier held = true ↔ held < Function.const String 1 tier :=
    fun _ _ => decide_eq_true_iff
  exact ⟨w, hw, subscriptions_limited hlimit (by decide +kernel) hw⟩

/-- Both checkouts are completed. -/
theorem both_tabs_complete : ¬ ∀ platform canBuyMore (maxPerAccount : String → ℕ),
    (∀ tier held, canBuyMore tier held = true ↔ held < maxPerAccount tier) → ∀ actions w,
      run (salesStep platform canBuyMore) .empty actions = some w → WithinLimit canBuyMore w := by
  intro h
  have hruns : ((run (salesStep nobodyNew oneEach) .empty (twoTabs ++ [.complete "co_2" "sub_2"])).map fun w =>
      (w.held "u1" "aven-ceo").length) = some 2 := by decide +kernel
  obtain ⟨w, hw, hheld⟩ := Option.map_eq_some_iff.mp hruns
  have hallowed := h nobodyNew oneEach (fun _ => 1) (fun _ _ => decide_eq_true_iff) _ w hw "u1" "aven-ceo" 1
    (by rw [hheld]; decide)
  exact absurd hallowed (by decide)

end AvenOS.Checkout
