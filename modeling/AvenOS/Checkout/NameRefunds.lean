import AvenOS.Checkout.NameOwnership

/-! # Refunds of names

A paid order and its refund are two events, each recorded as done whatever it found. -/
namespace AvenOS.Checkout
open KeyedTable LabelledRun

/-! ## What is asked of refunds -/

namespace NameWorld
variable (w : NameWorld)

def RefundedRevoked : Prop :=
  ∀ refund ∈ w.refunds, w.registry.recorded refund.id = true → w.registry.recorded refund.orderId = true →
    ∀ row ∈ w.registry.names, row.orderId = some refund.orderId → row.status = .revoked

def RefundsOwn (refundId : String) (w' : NameWorld) : Prop :=
  ∀ refund, w.refund? refundId = some refund → ∀ row ∈ w.registry.names, row.orderId ≠ some refund.orderId →
    row ∈ w'.registry.names

def repeats : NameAction → Bool
  | .paid orderId => w.registry.recorded orderId
  | .refunded refundId _ => w.registry.recorded refundId
  | _ => false

end NameWorld

/-- At every point of a run, and for whatever follows it. -/
def RefundsKept (platform : NamePlatform) (actions : List NameAction) : Prop :=
  ∀ before after w w', actions = before ++ after → run (nameStep platform) .empty before = some w →
    run (nameStep platform) w after = some w' → w.RefundedRevoked ∧ w.KeepsOwners w' ∧
      ∀ action rest next, after = action :: rest → nameStep platform w action = some next →
        (w.repeats action = true → next = w) ∧
          ∀ refundId pick, action = .refunded refundId pick → w.RefundsOwn refundId next

/-- A paid order whose refund has been recorded finds its name registered, and a refund finds the name of its own
order only. -/
def refundsInTurn (platform : NamePlatform) (w : NameWorld) : NameAction → Bool
  | .paid orderId =>
    w.registry.recorded orderId ||
      !(w.refunds.any fun refund => refund.orderId = orderId && w.registry.recorded refund.id) ||
        (w.paidEvent orderId).all fun found => (w.registry.name? found.1.name).isSome
  | .refunded refundId _ =>
    w.registry.recorded refundId ||
      (w.refund? refundId).all fun refund => w.registry.names.all fun row =>
        !NameRegistry.refundable platform refund.event row || row.orderId = some refund.orderId
  | _ => true

/-! ## Events are told apart by their ids -/

structure IdsSound (w : NameWorld) : Prop where
  refunds : Keyed NameRefund.id w.refunds
  apart : ∀ order ∈ w.orders, ∀ refund ∈ w.refunds, order.id ≠ refund.id
  ordered : ∀ refund ∈ w.refunds, ∃ order ∈ w.orders, order.id = refund.orderId
  known : ∀ id, w.registry.recorded id = true →
    (∃ order ∈ w.orders, order.id = id) ∨ ∃ refund ∈ w.refunds, refund.id = id
  bought : Keyed NameRow.orderId w.registry.names

theorem idsSound_empty : IdsSound .empty := ⟨Keyed.nil, nofun, nofun, nofun, Keyed.nil⟩

section Ids
variable {platform : NamePlatform} {w w' : NameWorld}

variable {id : String} {action : NameAction}

theorem fresh_cases (h : w.fresh id = true) :
    (∀ order ∈ w.orders, order.id ≠ id) ∧ ∀ refund ∈ w.refunds, refund.id ≠ id := by
  unfold NameWorld.fresh at h
  rw [Bool.and_eq_true, Bool.and_eq_true] at h
  exact ⟨fun order horder => lookup_none (Option.isNone_iff_eq_none.mp h.1.2) horder,
    fun refund hrefund => lookup_none (Option.isNone_iff_eq_none.mp h.2) hrefund⟩

theorem recorded_concat {r r' : NameRegistry} {event : PaymentEvent}
    (hevents : r'.paymentEvents = r.paymentEvents ++ [⟨event.id, event.type, event.checkoutId⟩])
    (h : r'.recorded id = true) : r.recorded id = true ∨ event.id = id := by
  unfold NameRegistry.recorded at h ⊢
  rw [hevents, List.any_append, Bool.or_eq_true] at h
  refine h.imp_right fun hlast => ?_
  rw [List.any_cons, List.any_nil, Bool.or_false] at hlast
  exact of_decide_eq_true hlast

theorem recorded_cases (hstep : nameStep platform w action = some w')
    (h : w'.registry.recorded id = true) : w.registry.recorded id = true ∨
      (action = .paid id ∧ ∃ order ∈ w.orders, order.id = id) ∨
      ∃ pick, action = .refunded id pick ∧ ∃ refund ∈ w.refunds, refund.id = id := by
  cases hunpaid : action.unpaid with
  | true =>
    unfold NameRegistry.recorded at h ⊢
    rw [(unpaid_step hunpaid hstep).2] at h
    exact .inl h
  | false =>
    cases action with
    | paid orderId =>
      obtain ⟨checkout, event, hfound, ⟨-, rfl⟩ | ⟨registry, granted, hgrant, rfl⟩⟩ := paid_cases hstep
      · exact .inl h
      · obtain ⟨order, horder, rfl, -, -, hid, -⟩ := paidEvent_cases hfound
        rcases grant_cases hgrant with ⟨-, rfl⟩ | ⟨-, hevents, -⟩
        · exact .inl h
        · refine (recorded_concat hevents h).imp_right fun hlast => .inl ?_
          rw [hid] at hlast
          subst hlast
          exact ⟨rfl, order, horder, rfl⟩
    | refunded refundId pick =>
      obtain ⟨refund, hmem, rfl, ⟨-, rfl⟩ | ⟨registry, revoked, hrevoke, rfl⟩⟩ := refunded_cases hstep
      · exact .inl h
      · rcases revoke_cases hrevoke with ⟨-, rfl⟩ | ⟨-, hevents, -⟩
        · exact .inl h
        · refine (recorded_concat hevents h).imp_right fun hlast => .inr ?_
          have hid : refund.id = id := hlast
          subst hid
          exact ⟨pick, rfl, refund, hmem, rfl⟩
    | wait milliseconds => cases hunpaid
    | availability raw => cases hunpaid
    | secure raw email token => cases hunpaid
    | request k holdId startedAt => cases hunpaid
    | claim token => cases hunpaid
    | checkout k checkoutId checkoutUrl successHash => cases hunpaid
    | reserve k startedAt => cases hunpaid
    | pays checkoutId orderId email => cases hunpaid
    | refunds orderId refundId withCheckout metadataName => cases hunpaid

theorem IdsSound.step (h : IdsSound w) (horders : OrdersSound w) (hholds : HoldsSound w)
    (hstep : nameStep platform w action = some w') : IdsSound w' := by
  have hsub : (∀ order ∈ w.orders, order ∈ w'.orders) ∧ ∀ refund ∈ w.refunds, refund ∈ w'.refunds := by
    rcases provider_cases hstep with ⟨hsame, hsame'⟩ | ⟨order, hadded, hsame', -⟩ | ⟨refund, hsame, hadded, -⟩
    · rw [hsame, hsame']
      exact ⟨fun _ => id, fun _ => id⟩
    · rw [hadded, hsame']
      exact ⟨fun _ => List.mem_append_left _, fun _ => id⟩
    · rw [hsame, hadded]
      exact ⟨fun _ => id, fun _ => List.mem_append_left _⟩
  have hknown : ∀ id, w'.registry.recorded id = true →
      (∃ order ∈ w'.orders, order.id = id) ∨ ∃ refund ∈ w'.refunds, refund.id = id := by
    intro id hrecorded
    rcases recorded_cases hstep hrecorded with hbefore | ⟨-, order, horder, hid⟩ | ⟨pick, -, refund, hrefund, hid⟩
    · rcases h.known id hbefore with ⟨order, horder, hid⟩ | ⟨refund, hrefund, hid⟩
      · exact .inl ⟨order, hsub.1 order horder, hid⟩
      · exact .inr ⟨refund, hsub.2 refund hrefund, hid⟩
    · exact .inl ⟨order, hsub.1 order horder, hid⟩
    · exact .inr ⟨refund, hsub.2 refund hrefund, hid⟩
  have hbought : Keyed NameRow.orderId w'.registry.names := by
    rcases names_cases horders hholds hstep with hsame | ⟨orderId, checkout, event, user, -, -, hnew, -, -, -, hnames⟩ |
      ⟨row, hrow, reason, -, hnames⟩
    · rw [hsame]
      exact h.bought
    · rw [hnames]
      refine h.bought.concat fun other hother hsame => ?_
      obtain ⟨order, -, hid, -, hrecorded⟩ := horders.bought other hother
      have hid' : some order.id = some orderId := hid.symm.trans hsame
      rw [Option.some.inj hid', hnew] at hrecorded
      cases hrecorded
    · rw [hnames]
      refine h.bought.map fun other => ?_
      split
      · rfl
      · rfl
  rcases provider_cases hstep with ⟨hsame, hsame'⟩ | ⟨added, hadded, hsame', hfresh, -⟩ |
    ⟨added, hsame, hadded, hfresh, order, horder, hid⟩
  · refine ⟨hsame' ▸ h.refunds, ?_, ?_, hknown, hbought⟩
    · rw [hsame, hsame']
      exact h.apart
    · rw [hsame, hsame']
      exact h.ordered
  · refine ⟨hsame' ▸ h.refunds, ?_, ?_, hknown, hbought⟩
    · rw [hadded, hsame']
      intro order horder refund hrefund
      rcases List.mem_append.mp horder with hold | hlast
      · exact h.apart order hold refund hrefund
      · rw [List.mem_singleton.mp hlast]
        exact ((fresh_cases hfresh).2 refund hrefund).symm
    · rw [hadded, hsame']
      intro refund hrefund
      obtain ⟨order, horder, hid⟩ := h.ordered refund hrefund
      exact ⟨order, List.mem_append_left _ horder, hid⟩
  · refine ⟨?_, ?_, ?_, hknown, hbought⟩
    · rw [hadded]
      exact h.refunds.concat (fresh_cases hfresh).2
    · rw [hsame, hadded]
      intro order horder refund hrefund
      rcases List.mem_append.mp hrefund with hold | hlast
      · exact h.apart order horder refund hold
      · rw [List.mem_singleton.mp hlast]
        exact (fresh_cases hfresh).1 order horder
    · rw [hsame, hadded]
      intro refund hrefund
      rcases List.mem_append.mp hrefund with hold | hlast
      · exact h.ordered refund hold
      · rw [List.mem_singleton.mp hlast]
        exact ⟨order, horder, hid⟩

/-! ## A refund and its order -/

variable (platform) in
theorem refund_finds {refund : NameRefund} {row : NameRow} (howned : row.status = .owned)
    (horder : row.orderId = some refund.orderId) :
    NameRegistry.refundable platform refund.event row = true := by
  have htype : "order.".isPrefixOf "refund.created" = false := by decide +kernel
  have hevent : refund.event.orderId = some refund.orderId := by
    unfold NameRefund.event parsePolarEvent
    dsimp only
    rw [htype, if_neg nofun]
  unfold NameRegistry.refundable
  rw [howned, hevent, horder, decide_eq_true rfl, decide_eq_true rfl, Option.isSome_some, Bool.true_and,
    Bool.true_and, Bool.or_true]

/-- The delivery of a refund that has not been recorded: the names that its order has bought are revoked, and
the others stay. -/
theorem refunded_own (h : IdsSound w) (hnamed : Keyed NameRow.name w.registry.names) {refundId : String}
    {pick : ℕ} {refund : NameRefund} (hfound : w.refund? refundId = some refund)
    (hturn : refundsInTurn platform w (.refunded refundId pick) = true)
    (hstep : nameStep platform w (.refunded refundId pick) = some w') :
    (∀ row ∈ w.registry.names, row.orderId ≠ some refund.orderId → row ∈ w'.registry.names) ∧
      (w.registry.recorded refundId = false → w'.registry.recorded refundId = true →
        ∀ row ∈ w'.registry.names, row.orderId = some refund.orderId → row.status = .revoked) := by
  obtain ⟨refund', hmem, hid, hends⟩ := refunded_cases hstep
  have hsame : refund' = refund := h.refunds.eq hmem (lookup_some hfound).1 (hid.trans (lookup_some hfound).2.symm)
  subst hsame
  rcases hends with ⟨-, rfl⟩ | ⟨registry, revoked, hrevoke, rfl⟩
  · exact ⟨fun _ hrow _ => hrow, fun hnew hrecorded => absurd hrecorded (by rw [hnew]; nofun)⟩
  · rcases revoke_cases hrevoke with ⟨hrecorded, rfl⟩ | ⟨hunrecorded, -, -, ⟨hnone, hnames⟩ |
      ⟨row, hrow, hrefundable, hnames⟩⟩
    · exact ⟨fun _ hrow _ => hrow, fun hnew hafter => absurd hafter (by rw [hnew]; nofun)⟩
    · show (∀ row ∈ w.registry.names, _ → row ∈ registry.names) ∧ (_ → _ → ∀ row ∈ registry.names, _ → _)
      rw [hnames]
      refine ⟨fun _ hrow _ => hrow, fun _ _ row hrow horder => ?_⟩
      cases hstatus : row.status with
      | revoked => rfl
      | owned =>
        have hfilter := List.mem_filter.mpr ⟨hrow, refund_finds platform hstatus horder⟩
        rw [hnone] at hfilter
        cases hfilter
    · have hown : row.orderId = some refund'.orderId := by
        have hrecordedId : w.registry.recorded refundId = false := by
          rw [← hid]
          exact hunrecorded
        rw [refundsInTurn, hrecordedId, Bool.false_or, hfound, Option.all_some, List.all_eq_true] at hturn
        have hall := hturn row hrow
        rw [hrefundable, Bool.not_true, Bool.false_or] at hall
        exact of_decide_eq_true hall
      show (∀ row ∈ w.registry.names, _ → row ∈ registry.names) ∧ (_ → _ → ∀ row ∈ registry.names, _ → _)
      rw [hnames]
      refine ⟨fun other hother hne => ?_, fun _ _ other hother horder => ?_⟩
      · refine mem_modify_other hother fun hname => hne ?_
        rw [hnamed.eq hother hrow hname, hown]
      · obtain ⟨old, hold, ⟨-, rfl⟩ | ⟨hname, rfl⟩⟩ := mem_modify hother
        · rfl
        · have hsame := h.bought.eq hold hrow (horder.trans hown.symm)
          exact absurd (congrArg NameRow.name hsame) hname

theorem repeats_step (hrepeats : w.repeats action = true) (hstep : nameStep platform w action = some w') : w' = w := by
  cases action with
  | paid orderId =>
    obtain ⟨checkout, event, hfound, ⟨-, rfl⟩ | ⟨registry, granted, hgrant, rfl⟩⟩ := paid_cases hstep
    · rfl
    · obtain ⟨order, -, rfl, -, -, hid, -⟩ := paidEvent_cases hfound
      rcases grant_cases hgrant with ⟨-, rfl⟩ | ⟨hnew, -⟩
      · rfl
      · have hrecorded : w.registry.recorded order.id = true := hrepeats
        rw [hid, hrecorded] at hnew
        cases hnew
  | refunded refundId pick =>
    obtain ⟨refund, -, rfl, ⟨-, rfl⟩ | ⟨registry, revoked, hrevoke, rfl⟩⟩ := refunded_cases hstep
    · rfl
    · rcases revoke_cases hrevoke with ⟨-, rfl⟩ | ⟨hnew, -⟩
      · rfl
      · have hrecorded : w.registry.recorded refund.id = true := hrepeats
        have hid : refund.event.id = refund.id := rfl
        rw [hid, hrecorded] at hnew
        cases hnew
  | wait milliseconds => cases hrepeats
  | availability raw => cases hrepeats
  | secure raw email token => cases hrepeats
  | request k holdId startedAt => cases hrepeats
  | claim token => cases hrepeats
  | checkout k checkoutId checkoutUrl successHash => cases hrepeats
  | reserve k startedAt => cases hrepeats
  | pays checkoutId orderId email => cases hrepeats
  | refunds orderId refundId withCheckout metadataName => cases hrepeats

theorem old_row (horders : OrdersSound w) (hholds : HoldsSound w)
    (hstep : nameStep platform w action = some w') {row : NameRow} (hrow : row ∈ w'.registry.names)
    {orderId : String} (horder : row.orderId = some orderId) (hrecorded : w.registry.recorded orderId = true) :
    row.status = .revoked ∨ row ∈ w.registry.names := by
  rcases names_cases horders hholds hstep with hsame | ⟨paidId, checkout, event, user, -, -, hnew, -, -, -, hnames⟩ |
    ⟨revoked, -, reason, -, hnames⟩
  · exact .inr (hsame ▸ hrow)
  · rw [hnames] at hrow
    rcases List.mem_append.mp hrow with hold | hlast
    · exact .inr hold
    · rw [List.mem_singleton.mp hlast] at horder
      rw [Option.some.inj horder, hrecorded] at hnew
      cases hnew
  · rw [hnames] at hrow
    obtain ⟨old, hold, ⟨-, rfl⟩ | ⟨-, rfl⟩⟩ := mem_modify hrow
    · exact .inl rfl
    · exact .inr hold

theorem refundedRevoked_step (h : IdsSound w) (horders : OrdersSound w) (hholds : HoldsSound w) (hturn : refundsInTurn platform w action = true) (hrevoked : w.RefundedRevoked)
    (hstep : nameStep platform w action = some w') : w'.RefundedRevoked := by
  intro refund hrefund hrecorded hpaid row hrow horder
  -- the refund was there before: a new one has an id that nothing is recorded under
  have hbefore : refund ∈ w.refunds := by
    rcases provider_cases hstep with ⟨-, hsame⟩ | ⟨-, -, hsame, -⟩ | ⟨added, -, hadded, hfresh, -⟩
    · exact hsame ▸ hrefund
    · exact hsame ▸ hrefund
    · rw [hadded] at hrefund
      rcases List.mem_append.mp hrefund with hold | hlast
      · exact hold
      · rw [List.mem_singleton.mp hlast] at hrecorded
        rcases recorded_cases hstep hrecorded with hold | ⟨-, order, hmem, hid⟩ | ⟨pick, -, other, hmem, hid⟩
        · rcases h.known added.id hold with ⟨order, hmem, hid⟩ | ⟨other, hmem, hid⟩
          · exact absurd hid ((fresh_cases hfresh).1 order hmem)
          · exact absurd hid ((fresh_cases hfresh).2 other hmem)
        · exact absurd hid ((fresh_cases hfresh).1 order hmem)
        · exact absurd hid ((fresh_cases hfresh).2 other hmem)
  obtain ⟨bought, hbought, hboughtId⟩ := h.ordered refund hbefore
  rcases recorded_cases hstep hrecorded with hold | ⟨-, order, hmem, hid⟩ | ⟨pick, rfl, -, -, -⟩
  · rcases recorded_cases hstep hpaid with hpaidBefore | ⟨rfl, -⟩ | ⟨pick, -, other, hmem, hid⟩
    · rcases old_row horders hholds hstep hrow horder hpaidBefore with hdone | hmem
      · exact hdone
      · exact hrevoked refund hbefore hold hpaidBefore row hmem horder
    · -- the order is recorded after its refund: its name is registered already, so nothing is granted
      cases hpaidBefore : w.registry.recorded refund.orderId with
      | true =>
        rcases old_row horders hholds hstep hrow horder hpaidBefore with hdone | hmem
        · exact hdone
        · exact hrevoked refund hbefore hold hpaidBefore row hmem horder
      | false =>
        have hany : (w.refunds.any fun other =>
            decide (other.orderId = refund.orderId) && w.registry.recorded other.id) = true :=
          List.any_eq_true.mpr ⟨refund, hbefore, by rw [decide_eq_true rfl, hold, Bool.true_and]⟩
        rw [refundsInTurn, hpaidBefore, hany, Bool.not_true, Bool.false_or, Bool.false_or] at hturn
        rcases names_cases horders hholds hstep with hsame | ⟨orderId, checkout, event, user, hpaidAction, hfound, -,
          -, hnone, -⟩ | ⟨other, -, reason, -, hnames⟩
        · rw [hsame] at hrow
          obtain ⟨order, -, hid, -, hrecordedOrder⟩ := horders.bought row hrow
          rw [Option.some.inj (hid.symm.trans horder), hpaidBefore] at hrecordedOrder
          cases hrecordedOrder
        · cases hpaidAction
          rw [hfound, Option.all_some, hnone] at hturn
          cases hturn
        · rw [hnames] at hrow
          obtain ⟨old, hmem, ⟨-, rfl⟩ | ⟨-, rfl⟩⟩ := mem_modify hrow
          · rfl
          · obtain ⟨order, -, hid, -, hrecordedOrder⟩ := horders.bought _ hmem
            rw [Option.some.inj (hid.symm.trans horder), hpaidBefore] at hrecordedOrder
            cases hrecordedOrder
    · exact absurd (hboughtId.trans hid.symm) (h.apart bought hbought other hmem)
  · exact absurd hid (h.apart order hmem refund hbefore)
  · cases hold : w.registry.recorded refund.id with
    | true =>
      have hrepeats : w.repeats (.refunded refund.id pick) = true := hold
      have hsame : w' = w := repeats_step hrepeats hstep
      rw [hsame] at hpaid hrow
      exact hrevoked refund hbefore hold hpaid row hrow horder
    | false =>
      have hfound : w.refund? refund.id = some refund := h.refunds.lookup hbefore
      exact (refunded_own h horders.named hfound hturn hstep).2 hold hrecorded row hrow horder

end Ids

/-! ## Whole runs -/

section Runs
variable {platform : NamePlatform} {w w' : NameWorld}

theorem idsSound_run {actions : List NameAction} (hrun : run (nameStep platform) .empty actions = some w) :
    (HoldsSound w ∧ OrdersSound w) ∧ IdsSound w :=
  run_invariant (I := fun w => (HoldsSound w ∧ OrdersSound w) ∧ IdsSound w) (P := fun _ => True)
    (fun _ _ _ _ hsound hstep => ⟨⟨hsound.1.1.step hstep, hsound.1.2.step hsound.1.1 hstep⟩,
      hsound.2.step hsound.1.2 hsound.1.1 hstep⟩) (fun _ _ => trivial) ⟨namesSound_empty, idsSound_empty⟩ hrun

/-- In a run in which refunds find the names of their own orders only, and none comes before an order that is
granted, an order and its refund come to the same whatever else is delivered, and how often. -/
theorem refunds_kept {actions : List NameAction}
    (h : along (nameStep platform) (refundsInTurn platform) .empty actions = true) :
    RefundsKept platform actions := by
  rintro before after w w' rfl hbefore hafter
  obtain ⟨⟨hholds, horders⟩, hids⟩ := idsSound_run hbefore
  have hrevoked : ((HoldsSound w ∧ OrdersSound w) ∧ IdsSound w) ∧ w.RefundedRevoked := by
    refine along_invariant (I := fun w => ((HoldsSound w ∧ OrdersSound w) ∧ IdsSound w) ∧ w.RefundedRevoked) ?_
      (along_before h) ⟨⟨namesSound_empty, idsSound_empty⟩, nofun⟩ hbefore
    intro w action w' hturn hsound hstep
    obtain ⟨⟨⟨hholds, horders⟩, hids⟩, hrevoked⟩ := hsound
    exact ⟨⟨⟨hholds.step hstep, horders.step hholds hstep⟩, hids.step horders hholds hstep⟩,
      refundedRevoked_step hids horders hholds hturn hrevoked hstep⟩
  refine ⟨hrevoked.2, keepsOwners_run hholds horders hafter, fun action rest next hrest hnext => ?_⟩
  have hlater := along_split h hbefore
  rw [hrest] at hlater
  refine ⟨fun hrepeats => repeats_step hrepeats hnext, ?_⟩
  rintro refundId pick rfl refund hfound
  exact (refunded_own hids horders.named hfound (along_cons hlater).1 hnext).1

end Runs

/-! ## A refund that comes first -/

theorem refunds_kept_conflict : RefundsKept namesSample
    (bought 0 "ada" "a@b.c" "t1" "h1" "co1" "o1" ++ [.wait 300001] ++
      [.secure "ada" "d@e.f" "t2", .request 1 "h2" 300001, .claim "t2", .checkout 1 "co2" "url" "hash",
        .reserve 1 300001, .pays "co2" "o2" (some "d@e.f"), .paid "o2", .paid "o1", .refunds "o1" "r1" true none,
        .refunded "r1" 0, .paid "o1", .refunds "o2" "r2" true (some "ada"), .refunded "r2" 0, .refunded "r2" 0]) :=
  refunds_kept (by decide +kernel)

/-- The refund of an order is recorded before the order, which is granted then. -/
theorem refunded_name_granted : ¬ ∀ platform actions, RefundsKept platform actions := by
  intro h
  have hruns : ((run (nameStep namesSample) .empty (bought 0 "ada" "a@b.c" "t1" "h1" "co1" "o1" ++
      [.refunds "o1" "r1" true none, .refunded "r1" 0, .paid "o1"])).map fun w =>
        decide (w.refunds = [⟨"r1", "o1", some "co1", none⟩] ∧ w.registry.recorded "r1" = true ∧
          w.registry.recorded "o1" = true ∧
          w.registry.names = [⟨"ada", "u-a@b.c", .owned, some "co1", some "o1", none⟩])) = some true := by
    decide +kernel
  obtain ⟨w, hw, hbroken⟩ := Option.map_eq_some_iff.mp hruns
  obtain ⟨hrefunds, hrecorded, hpaid, hnames⟩ := of_decide_eq_true hbroken
  have hrevoked := (h namesSample _ _ [] w w (List.append_nil _).symm hw rfl).1
  have hstatus := hrevoked ⟨"r1", "o1", some "co1", none⟩ (hrefunds ▸ List.mem_singleton_self _) hrecorded hpaid
    ⟨"ada", "u-a@b.c", .owned, some "co1", some "o1", none⟩ (hnames ▸ List.mem_singleton_self _) rfl
  cases hstatus

end AvenOS.Checkout
