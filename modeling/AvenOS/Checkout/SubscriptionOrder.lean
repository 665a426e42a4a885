import AvenOS.Checkout.Subscriptions

/-! # Deliveries of the states of one subscription

A subscription has a state after another at the provider, and each event carries one of them, or part of it.
The upsert compares nothing of an event with what is stored. -/
namespace AvenOS.Checkout
open KeyedTable LabelledRun

/-! ## States -/

/-- What of a subscription is mirrored. -/
structure ProviderState where
  tier : String
  status : String
  currentPeriodEnd : Option String
  cancelAtPeriodEnd : Bool
  pauseAtPeriodEnd : Bool
  priceCents : ℤ
deriving DecidableEq, Repr

def SubscriptionRow.state (row : SubscriptionRow) : ProviderState :=
  ⟨row.tier, row.status, row.currentPeriodEnd, row.cancelAtPeriodEnd, row.pauseAtPeriodEnd, row.priceEurCents⟩

def SubscriptionEvent.carries (event : SubscriptionEvent) (state : ProviderState) : Prop :=
  event.status = state.status ∧ event.cancelAtPeriodEnd = state.cancelAtPeriodEnd ∧
    (∀ tier, event.tier = some tier → tier = state.tier) ∧
    (∀ periodEnd, event.currentPeriodEnd = some periodEnd → some periodEnd = state.currentPeriodEnd) ∧
    (∀ pause, event.pauseAtPeriodEnd = some pause → pause = state.pauseAtPeriodEnd) ∧
    ∀ price, event.priceCents = some price → price = state.priceCents

/-- A state with the fields of an event over it. A tier that is empty and a price that is not positive count as
absent. -/
def ProviderState.overlaid (state : ProviderState) (event : SubscriptionEvent) : ProviderState where
  tier := if event.tier.getD "" = "" then state.tier else event.tier.getD ""
  status := event.status
  currentPeriodEnd := event.currentPeriodEnd.or state.currentPeriodEnd
  cancelAtPeriodEnd := event.cancelAtPeriodEnd
  pauseAtPeriodEnd := event.pauseAtPeriodEnd.getD state.pauseAtPeriodEnd
  priceCents := if 0 < event.priceCents.getD 0 then event.priceCents.getD 0 else state.priceCents

def mirrored (event : SubscriptionEvent) : Option ProviderState → ProviderState
  | none => (event.row "").state
  | some state => state.overlaid event

/-! ## Deliveries -/

/-- `newest` is the newest state that has been delivered. -/
structure Mirror where
  billing : Billing
  processed : List String
  newest : Option ℕ
deriving Repr

def Mirror.empty : Mirror := ⟨.empty, [], none⟩

/-- An event of a delivery, with the number of the state that it carries; and the end of a delivery. -/
inductive MirrorAction
  | event (deliveryId : String) (event : SubscriptionEvent) (version : ℕ)
  | processed (deliveryId : String)
deriving Repr

/-- The newest of the states delivered before and of one more. -/
def newer (newest : Option ℕ) (version : ℕ) : ℕ := newest.elim version (max · version)

section Steps
variable (platform : BillingPlatform) (subscription : String) (states : ℕ → ProviderState)

/-- A delivery that has been processed is not applied again; a transaction that fails leaves everything. -/
def mirrorStep (w : Mirror) : MirrorAction → Option Mirror
  | .event deliveryId event version =>
    if deliveryId ∈ w.processed then some w
    else
      match w.billing.applyEvent platform event with
      | none => some w
      | some (billing, _) =>
        some { w with
          billing := billing
          newest := if event.providerSubscriptionId = subscription then some (newer w.newest version)
            else w.newest }
  | .processed deliveryId => some { w with processed := w.processed ++ [deliveryId] }

def Mirror.shows (w : Mirror) : Prop :=
  ∀ version, w.newest = some version →
    (w.billing.subscription? subscription).map SubscriptionRow.state = some (states version)

/-- What is delivered again, or late, leaves the row. -/
def Mirror.staleKept (w : Mirror) (action : MirrorAction) (w' : Mirror) : Prop :=
  ∀ deliveryId event version, action = .event deliveryId event version →
    event.providerSubscriptionId = subscription →
    (deliveryId ∈ w.processed ∨ ∃ newest, w.newest = some newest ∧ version ≤ newest) →
    w'.billing.subscription? subscription = w.billing.subscription? subscription

def Converges (actions : List MirrorAction) : Prop :=
  ∀ before after w, actions = before ++ after → run (mirrorStep platform subscription) .empty before = some w →
    w.shows subscription states ∧ ∀ action rest w', after = action :: rest →
      mirrorStep platform subscription w action = some w' → w.staleKept subscription action w'

/-- The fields of an event over the newest state delivered before are the newer one of the two states; an event
whose buyer is not found finds the newest state delivered before. -/
def inOrder (w : Mirror) : MirrorAction → Bool
  | .event deliveryId event version =>
    if deliveryId ∈ w.processed ∨ event.providerSubscriptionId ≠ subscription then true
    else
      match w.billing.buyer platform event with
      | none => true
      | some (none, _) => w.newest.map states = some (states (newer w.newest version))
      | some (some _, _) => mirrored event (w.newest.map states) = states (newer w.newest version)
  | .processed _ => true

end Steps

/-! ## What `applyEvent` does to the row -/

section Rows
variable {platform : BillingPlatform} {b b' : Billing} {event : SubscriptionEvent} {applied : Bool}

theorem upsertCustomer_subscriptions {customer : CheckoutCustomer} (h : b.upsertCustomer customer = some b') :
    b'.subscriptions = b.subscriptions := by
  obtain ⟨customers, -, rfl⟩ := Option.map_eq_some_iff.mp h
  rfl

theorem buyer_subscriptions {userId : Option String} (h : b.buyer platform event = some (userId, b')) :
    b'.subscriptions = b.subscriptions := by
  unfold Billing.buyer at h
  dsimp only at h
  split at h
  · cases h
    rfl
  · cases h
    rfl
  · split at h
    · cases h
      rfl
    · obtain ⟨account, -, hupsert⟩ := Option.bind_eq_some_iff.mp h
      obtain ⟨after, hafter, hsome⟩ := Option.map_eq_some_iff.mp hupsert
      cases hsome
      exact upsertCustomer_subscriptions hafter

theorem applyEvent_cases (h : b.applyEvent platform event = some (b', applied)) :
    (∃ found, b.buyer platform event = some (none, found) ∧ b' = b) ∨
      ∃ userId found, b.buyer platform event = some (some userId, found) ∧
        b'.subscriptions = (b.upsertSubscription event userId).subscriptions := by
  obtain ⟨⟨userId, found⟩, hbuyer, hnext⟩ := Option.map_eq_some_iff.mp h
  cases userId with
  | none =>
    cases hnext
    exact .inl ⟨found, hbuyer, rfl⟩
  | some userId =>
    refine .inr ⟨userId, found, hbuyer, ?_⟩
    have hsame := buyer_subscriptions hbuyer
    cases hnext
    cases event.providerCustomerId.filter (· ≠ "") with
    | none =>
      unfold Billing.upsertSubscription Billing.subscription?
      rw [hsame]
    | some customerId =>
      unfold Billing.upsertSubscription Billing.subscription? Billing.upsertBillingCustomer
      rw [hsame]

theorem upsert_own (userId : String) : (b.upsertSubscription event userId).subscription? event.providerSubscriptionId =
      some ((b.subscription? event.providerSubscriptionId).elim (event.row userId) (·.updated event)) := by
  unfold Billing.upsertSubscription
  cases hrow : b.subscription? event.providerSubscriptionId with
  | none =>
    have hnew : ∀ other ∈ b.subscriptions, other.providerSubscriptionId ≠ (event.row userId).providerSubscriptionId :=
      fun other hother => lookup_none hrow hother
    exact (lookup_concat_new hnew).trans (if_pos rfl)
  | some row =>
    show lookup _ _ (modify _ _ _ _) = _
    rw [lookup_modify (by intro; rfl)]
    unfold Billing.subscription? at hrow
    rw [hrow]
    rfl

theorem upsert_other (userId : String) {id : String} (hid : id ≠ event.providerSubscriptionId) :
    (b.upsertSubscription event userId).subscription? id = b.subscription? id := by
  unfold Billing.upsertSubscription
  cases hrow : b.subscription? event.providerSubscriptionId with
  | none =>
    have hnew : ∀ other ∈ b.subscriptions, other.providerSubscriptionId ≠ (event.row userId).providerSubscriptionId :=
      fun other hother => lookup_none hrow hother
    exact (lookup_concat_new hnew).trans (if_neg fun hsame => hid hsame.symm)
  | some row => exact lookup_modify_other (by intro; rfl) hid

theorem subscription_congr (h : b'.subscriptions = b.subscriptions) (id : String) :
    b'.subscription? id = b.subscription? id := by
  unfold Billing.subscription?
  rw [h]

theorem upsert_state (userId : String) : ((b.upsertSubscription event userId).subscription?
    event.providerSubscriptionId).map SubscriptionRow.state =
      some (mirrored event ((b.subscription? event.providerSubscriptionId).map SubscriptionRow.state)) := by
  rw [upsert_own]
  cases b.subscription? event.providerSubscriptionId with
  | none => rfl
  | some row => rfl

theorem updated_same {row : SubscriptionRow} (h : (row.updated event).state = row.state) : row.updated event = row := by
  unfold SubscriptionRow.state at h
  obtain ⟨htier, hstatus, hperiod, hcancel, hpause, hprice⟩ := ProviderState.mk.inj h
  cases row
  exact (SubscriptionRow.mk.injEq ..).mpr ⟨rfl, rfl, htier, hstatus, hperiod, hcancel, hpause, hprice⟩

end Rows

/-! ## One delivery -/

section Deliveries
variable {platform : BillingPlatform} {subscription : String} {states : ℕ → ProviderState} {w w' : Mirror}
  {action : MirrorAction}

theorem newer_stale {newest version : ℕ} (h : version ≤ newest) : newer (some newest) version = newest :=
  Nat.max_eq_left h

theorem mirror_event_cases {deliveryId : String} {event : SubscriptionEvent} {version : ℕ}
    (hstep : mirrorStep platform subscription w (.event deliveryId event version) = some w') :
    (w' = w ∧ (deliveryId ∈ w.processed ∨ w.billing.buyer platform event = none)) ∨
      (event.providerSubscriptionId ≠ subscription ∧ w'.newest = w.newest ∧
        w'.billing.subscription? subscription = w.billing.subscription? subscription) ∨
      (deliveryId ∉ w.processed ∧ event.providerSubscriptionId = subscription ∧
        w'.newest = some (newer w.newest version) ∧
        ((∃ found, w.billing.buyer platform event = some (none, found) ∧ w'.billing = w.billing) ∨
          ∃ userId found, w.billing.buyer platform event = some (some userId, found) ∧
            w'.billing.subscription? subscription =
              (w.billing.upsertSubscription event userId).subscription? subscription)) := by
  rw [mirrorStep] at hstep
  split at hstep
  · rename_i hdone
    cases hstep
    exact .inl ⟨rfl, .inl hdone⟩
  · rename_i hopen
    split at hstep
    · rename_i hnone
      cases hstep
      exact .inl ⟨rfl, .inr (Option.map_eq_none_iff.mp hnone)⟩
    · rename_i billing applied happlied
      cases hstep
      right
      by_cases hown : event.providerSubscriptionId = subscription
      · right
        refine ⟨hopen, hown, if_pos hown, ?_⟩
        rcases applyEvent_cases happlied with ⟨found, hbuyer, rfl⟩ | ⟨userId, found, hbuyer, hrows⟩
        · exact .inl ⟨found, hbuyer, rfl⟩
        · exact .inr ⟨userId, found, hbuyer, subscription_congr hrows subscription⟩
      · left
        refine ⟨hown, if_neg hown, ?_⟩
        rcases applyEvent_cases happlied with ⟨found, -, rfl⟩ | ⟨userId, found, -, hrows⟩
        · rfl
        · exact (subscription_congr hrows subscription).trans (upsert_other userId fun hsame => hown hsame.symm)

theorem unseen_step (h : w.newest = none → w.billing.subscription? subscription = none)
    (hstep : mirrorStep platform subscription w action = some w') :
    w'.newest = none → w'.billing.subscription? subscription = none := by
  intro hnone
  cases action with
  | processed deliveryId =>
    cases hstep
    exact h hnone
  | event deliveryId event version =>
    rcases mirror_event_cases hstep with ⟨rfl, -⟩ | ⟨-, hnewest, hrow⟩ | ⟨-, -, hnewest, -⟩
    · exact h hnone
    · rw [hrow]
      exact h (hnewest ▸ hnone)
    · rw [hnewest] at hnone
      cases hnone

def Mirror.upToDate (subscription : String) (states : ℕ → ProviderState) (w : Mirror) : Prop :=
  (w.billing.subscription? subscription).map SubscriptionRow.state = w.newest.map states

theorem upToDate_of (hunseen : w.newest = none → w.billing.subscription? subscription = none)
    (hshows : w.shows subscription states) : w.upToDate subscription states := by
  unfold Mirror.upToDate
  cases hnewest : w.newest with
  | none =>
    rw [hunseen hnewest]
    rfl
  | some version => exact hshows version hnewest

theorem Mirror.upToDate.shows (h : w.upToDate subscription states) : w.shows subscription states := by
  intro version hnewest
  rw [h, hnewest]
  rfl

theorem inOrder_iff (h : w.upToDate subscription states) (hstep : mirrorStep platform subscription w action = some w') :
    inOrder platform subscription states w action = true ↔ w'.shows subscription states := by
  cases action with
  | processed deliveryId =>
    cases hstep
    exact iff_of_true rfl h.shows
  | event deliveryId event version =>
    rw [inOrder]
    rcases mirror_event_cases hstep with ⟨rfl, hidle⟩ | ⟨hother, hnewest, hrow⟩ | ⟨hopen, hown, hnewest, hbuyer⟩
    · refine iff_of_true ?_ h.shows
      rcases hidle with hdone | hfails
      · exact if_pos (.inl hdone)
      · split
        · rfl
        · rw [hfails]
    · refine iff_of_true (if_pos (.inr hother)) fun newest hsome => ?_
      rw [hrow]
      exact h.shows newest (hnewest ▸ hsome)
    · have hshows : w'.shows subscription states ↔ (w'.billing.subscription? subscription).map SubscriptionRow.state =
            some (states (newer w.newest version)) := by
        refine ⟨fun hall => hall _ hnewest, fun hone newest hsome => ?_⟩
        rw [hnewest] at hsome
        cases hsome
        exact hone
      rw [hshows, if_neg (not_or.mpr ⟨hopen, not_not.mpr hown⟩)]
      rcases hbuyer with ⟨found, hbuyer, hbilling⟩ | ⟨userId, found, hbuyer, hrow⟩
      · rw [hbuyer, hbilling, h]
        exact decide_eq_true_iff
      · subst hown
        rw [hbuyer, hrow, upsert_state, h]
        exact decide_eq_true_iff.trans Option.some_inj.symm

theorem stale_kept (h : w.upToDate subscription states)
    (hstep : mirrorStep platform subscription w action = some w') (hafter : w'.shows subscription states) :
    w.staleKept subscription action w' := by
  rintro deliveryId event version rfl hown hstale
  rcases mirror_event_cases hstep with ⟨rfl, -⟩ | ⟨hother, -, -⟩ | ⟨hopen, -, hnewest, hbuyer⟩
  · rfl
  · exact absurd hown hother
  · obtain ⟨newest, hsome, hle⟩ := hstale.resolve_left hopen
    rw [hsome, newer_stale hle] at hnewest
    have hsame := hafter newest hnewest
    rcases hbuyer with ⟨found, -, hbilling⟩ | ⟨userId, found, -, hrow⟩
    · rw [hbilling]
    · subst hown
      rw [hrow, upsert_own] at hsame ⊢
      have hbefore := h.shows newest hsome
      cases hfound : w.billing.subscription? event.providerSubscriptionId with
      | none =>
        rw [hfound] at hbefore
        cases hbefore
      | some row =>
        rw [hfound] at hbefore hsame
        have hstate : (row.updated event).state = row.state :=
          (Option.some.inj hsame).trans (Option.some.inj hbefore).symm
        exact congrArg some (updated_same hstate)

end Deliveries

/-! ## Whole schedules -/

section Schedules
variable {platform : BillingPlatform} {subscription : String} {states : ℕ → ProviderState}

variable {w : Mirror} {actions : List MirrorAction}

theorem unseen_run (h : run (mirrorStep platform subscription) .empty actions = some w) :
    w.newest = none → w.billing.subscription? subscription = none :=
  run_invariant (P := fun _ => True) (fun _ _ _ _ hunseen hstep => unseen_step hunseen hstep)
    (fun _ _ => trivial) (fun _ => rfl) h

theorem upToDate_step {w' : Mirror} {action : MirrorAction}
    (hunseen : w'.newest = none → w'.billing.subscription? subscription = none)
    (hturn : inOrder platform subscription states w action = true) (h : w.upToDate subscription states)
    (hstep : mirrorStep platform subscription w action = some w') : w'.upToDate subscription states :=
  upToDate_of hunseen ((inOrder_iff h hstep).mp hturn)

theorem upToDate_run
    (h : along (mirrorStep platform subscription) (inOrder platform subscription states) .empty actions = true)
    (hrun : run (mirrorStep platform subscription) .empty actions = some w) : w.upToDate subscription states := by
  have hboth : (w.newest = none → w.billing.subscription? subscription = none) ∧ w.upToDate subscription states := by
    refine along_invariant (I := fun w => (w.newest = none → w.billing.subscription? subscription = none) ∧
      w.upToDate subscription states) ?_ h ⟨fun _ => rfl, rfl⟩ hrun
    intro w action w' hturn hw hstep
    have hunseen := unseen_step hw.1 hstep
    exact ⟨hunseen, upToDate_step hunseen hturn hw.2 hstep⟩
  exact hboth.2

variable (platform subscription) in
theorem mirror_total (w : Mirror) (action : MirrorAction) :
    ∃ w', mirrorStep platform subscription w action = some w' := by
  cases action with
  | processed deliveryId => exact ⟨_, rfl⟩
  | event deliveryId event version =>
    rw [mirrorStep]
    split
    · exact ⟨_, rfl⟩
    · split
      · exact ⟨_, rfl⟩
      · exact ⟨_, rfl⟩

theorem along_of_converges {before after : List MirrorAction}
    (h : Converges platform subscription states (before ++ after))
    (hrun : run (mirrorStep platform subscription) .empty before = some w) :
    along (mirrorStep platform subscription) (inOrder platform subscription states) w after = true := by
  induction after generalizing before w with
  | nil => rfl
  | cons action rest ih =>
    have hsplit : before ++ action :: rest = (before ++ [action]) ++ rest := by
      rw [List.append_assoc, List.singleton_append]
    have hnext : ∀ w', mirrorStep platform subscription w action = some w' →
        run (mirrorStep platform subscription) .empty (before ++ [action]) = some w' := by
      intro w' hstep
      rw [run_append, hrun, Option.bind_some, run, hstep]
      rfl
    have hupToDate := upToDate_of (unseen_run hrun) (h before _ w rfl hrun).1
    obtain ⟨w', hstep⟩ := mirror_total platform subscription w action
    have hshows := (h (before ++ [action]) rest w' hsplit (hnext w' hstep)).1
    rw [along, (inOrder_iff hupToDate hstep).mpr hshows, Bool.true_and, hstep, Option.all_some]
    exact ih (hsplit ▸ h) (hnext w' hstep)

/-- The row is at the newest delivered state all along, and stale deliveries leave it, exactly where every
delivery is in order. -/
theorem subscription_converges (actions : List MirrorAction) : Converges platform subscription states actions ↔
      along (mirrorStep platform subscription) (inOrder platform subscription states) .empty actions = true := by
  refine ⟨fun h => ?_, fun h => ?_⟩
  · have hall : Converges platform subscription states ([] ++ actions) := h
    exact along_of_converges hall rfl
  rintro before after w rfl hrun
  have hupToDate := upToDate_run (along_before h) hrun
  refine ⟨hupToDate.shows, fun action rest w' hrest hstep => ?_⟩
  have hturn := along_split h hrun
  rw [hrest] at hturn
  exact stale_kept hupToDate hstep ((inOrder_iff hupToDate hstep).mp (along_cons hturn).1)

end Schedules

/-! ## A late event -/

def onePerson : BillingPlatform := ⟨id, fun email => some ⟨"u1", email⟩⟩

def bookedBody : PolarSubscription where
  id := some "sub_1"
  status := some "active"
  customer := ⟨some "cus_1", some "a@b.c", none⟩
  customerId := none
  metadataUserId := none
  metadataTier := some "aven-ceo"
  productTier := none
  currentPeriodEnd := some "2026-02-01"
  cancelAtPeriodEnd := some false
  pauseAtPeriodEnd := some (some false)
  amount := some 2900

def bookedEvent (status : String) : SubscriptionEvent :=
  (parsePolarSubscriptionEvent "subscription.updated" { bookedBody with status := some status }).getD
    ⟨"", "", "", none, none, none, none, "", none, false, none, none⟩

def bookedState (status : String) : ProviderState := ⟨"aven-ceo", status, some "2026-02-01", false, false, 2900⟩

def bookedStates : ℕ → ProviderState
  | 0 => bookedState "active"
  | _ => bookedState "canceled"

theorem bookedEvent_carries (status : String) : (bookedEvent status).carries (bookedState status) := by
  have htype : "subscription.".isPrefixOf "subscription.updated" = true := by decide +kernel
  have hid : ¬ (some "sub_1").getD "" = "" := by decide
  unfold bookedEvent parsePolarSubscriptionEvent
  rw [if_pos htype]
  dsimp only [bookedBody]
  rw [if_neg hid]
  refine ⟨rfl, rfl, fun tier htier => ?_, fun periodEnd hperiod => ?_, fun pause hpause => ?_, fun price hprice => ?_⟩
  · exact (Option.some.inj htier).symm
  · exact hperiod.symm
  · exact (Option.some.inj hpause).symm
  · exact (Option.some.inj hprice).symm

def lateBooking : List MirrorAction :=
  [.event "wh_2" (bookedEvent "canceled") 1, .processed "wh_2", .event "wh_1" (bookedEvent "active") 0,
    .processed "wh_1"]

theorem late_event_overwrites : ¬ ∀ platform subscription states actions,
    (∀ deliveryId event version, MirrorAction.event deliveryId event version ∈ actions →
      event.carries (states version)) → Converges platform subscription states actions := by
  intro h
  have hcarries : ∀ deliveryId event version, MirrorAction.event deliveryId event version ∈ lateBooking →
      event.carries (bookedStates version) := by
    intro deliveryId event version hmem
    simp only [lateBooking, List.mem_cons, MirrorAction.event.injEq, reduceCtorEq, List.not_mem_nil, or_false,
      false_or] at hmem
    rcases hmem with ⟨-, rfl, rfl⟩ | ⟨-, rfl, rfl⟩
    · exact bookedEvent_carries "canceled"
    · exact bookedEvent_carries "active"
  have hruns : ((run (mirrorStep onePerson "sub_1") .empty lateBooking).map fun w =>
      decide (w.newest = some 1 ∧
        (w.billing.subscription? "sub_1").map SubscriptionRow.state ≠ some (bookedStates 1))) = some true := by
    decide +kernel
  obtain ⟨w, hw, hbroken⟩ := Option.map_eq_some_iff.mp hruns
  obtain ⟨hnewest, hstale⟩ := of_decide_eq_true hbroken
  exact hstale ((h onePerson "sub_1" bookedStates lateBooking hcarries lateBooking [] w
    (List.append_nil _).symm hw).1 1 hnewest)

end AvenOS.Checkout
