import AvenOS.Checkout.Names

/-! # Who owns a name

Reservations are decided under the lock of a name; a name is granted when its order is paid, whatever has been
granted since it was reserved. -/
namespace AvenOS.Checkout
open KeyedTable LabelledRun

/-! ## What is asked of the registry -/

section Asked
variable (platform : NamePlatform) (w : NameWorld)

def NameWorld.OneReservation : Prop :=
  ∀ hold ∈ w.registry.holds, ∀ other ∈ w.registry.holds, hold.name = other.name →
    hold.reserved w.now = true → other.reserved w.now = true → hold = other

def NameWorld.OneNameEach : Prop :=
  ∀ row ∈ w.registry.names, ∀ other ∈ w.registry.names, row.status = .owned → other.status = .owned →
    row.ownerUserId = other.ownerUserId → row = other

def NameWorld.KeepsOwners (w' : NameWorld) : Prop :=
  ∀ row ∈ w.registry.names, ∃ row' ∈ w'.registry.names, row'.name = row.name ∧
    row'.ownerUserId = row.ownerUserId ∧ (row.status = .revoked → row' = row)

/-- What the delivery of a paid order comes to, where its transaction commits. -/
def NameWorld.PaidOutcome (orderId : String) (w' : NameWorld) : Prop :=
  ∀ checkout event result, w.paidEvent orderId = some (checkout, event) →
    w.registry.grantFromEvent platform event = some result →
    (w.registry.recorded orderId = true ∧ w'.registry = w.registry) ∨
      (∃ account, platform.provisionAccount (platform.toLowerCase checkout.email) = some account ∧
        w.registry.name? checkout.name = none ∧
        w'.registry.names = w.registry.names ++
          [⟨checkout.name, account.subjectId, .owned, some checkout.id, some orderId, none⟩]) ∨
      (w'.registry.names = w.registry.names ∧ ∃ conflict, conflict.name = checkout.name ∧
        conflict.eventId = orderId ∧ w'.registry.conflicts = w.registry.conflicts ++ [conflict])

end Asked

/-- At every point of a run, and for whatever follows it. -/
def NamesKept (platform : NamePlatform) (actions : List NameAction) : Prop :=
  ∀ before after w w', actions = before ++ after → run (nameStep platform) .empty before = some w →
    run (nameStep platform) w after = some w' →
    Keyed NameRow.name w.registry.names ∧ w.KeepsOwners w' ∧ w.OneReservation ∧ w.OneNameEach ∧
      ∀ orderId rest next, after = .paid orderId :: rest → nameStep platform w (.paid orderId) = some next →
        w.PaidOutcome platform orderId next

/-- A name that is granted goes to the address that it was reserved for, and the account of this address owns no
name. -/
def grantsOneName (platform : NamePlatform) (w : NameWorld) : NameAction → Bool
  | .paid orderId =>
    (w.paidEvent orderId).all fun found =>
      w.registry.recorded found.2.id || (w.registry.name? found.1.name).isSome ||
        w.registry.buyerEmail platform found.2 found.1.name = platform.toLowerCase found.1.email &&
          (platform.provisionAccount (platform.toLowerCase found.1.email)).all fun account =>
            w.registry.names.all fun row => row.ownerUserId ≠ account.subjectId ∨ row.status ≠ .owned
  | _ => true

/-! ## What each call does -/

section Calls
variable {platform : NamePlatform} {r r' : NameRegistry} {event : PaymentEvent} {granted : Bool}

variable (platform r) in
theorem availability_cases (raw : String) (now : ℕ) : (r.availability platform raw now).1.holds.Sublist r.holds ∧
      (r.availability platform raw now).1.names = r.names ∧
      (r.availability platform raw now).1.paymentEvents = r.paymentEvents ∧
      (r.availability platform raw now).1.conflicts = r.conflicts := by
  unfold NameRegistry.availability
  dsimp only
  split
  · exact ⟨List.Sublist.refl _, rfl, rfl, rfl⟩
  · exact ⟨List.filter_sublist, rfl, rfl, rfl⟩

variable {now : ℕ} {name email tokenHash holdId : String} {hold : NameHold}

theorem availability_valid {raw : String}
    (h : (r.availability platform raw now).2 = none ∨ (r.availability platform raw now).2 = some .held) :
    namePattern (platform.normalizeName raw).toList = true := by
  unfold NameRegistry.availability at h
  dsimp only at h
  split at h
  · rename_i refusal hinvalid
    unfold validateName at hinvalid
    split at hinvalid
    · cases hinvalid
      rcases h with h | h <;> cases h
    · split at hinvalid
      · cases hinvalid
        rcases h with h | h <;> cases h
      · cases hinvalid
  · rename_i hvalid
    unfold validateName at hvalid
    split at hvalid
    · cases hvalid
    · rename_i hpattern
      exact Bool.not_eq_false _ ▸ hpattern

theorem normalize_plain (h : namePattern name.toList = true) : platform.normalizeName name = name := by
  unfold NamePlatform.normalizeName
  rw [platform.trim_plain name h, platform.lower_plain name h]

theorem request_holds (h : hold ∈ (r.request platform name email tokenHash holdId now).holds) :
    (∃ old ∈ r.holds, hold.id = old.id ∧ hold.name = old.name ∧ hold.email = old.email ∧
      hold.reservedUntil = old.reservedUntil) ∨
      hold.id = holdId ∧ hold.name = name ∧ hold.email = email ∧ hold.reservedUntil = none := by
  unfold NameRegistry.request at h
  dsimp only at h
  split at h
  · obtain ⟨old, hbefore, rfl⟩ := List.mem_map.mp h
    refine .inl ⟨old, hbefore, ?_⟩
    split
    · exact ⟨rfl, rfl, rfl, rfl⟩
    · exact ⟨rfl, rfl, rfl, rfl⟩
  · rcases List.mem_append.mp h with hbefore | hnew
    · exact .inl ⟨_, hbefore, rfl, rfl, rfl, rfl⟩
    · rw [List.mem_singleton.mp hnew]
      exact .inr ⟨rfl, rfl, rfl, rfl⟩

variable {checkoutId checkoutUrl successHash : String}

theorem reserve_ok (h : r.reserve platform hold checkoutId checkoutUrl successHash now = .ok r') :
    r'.holds = modify NameHold.id hold.id (·.claimed platform checkoutId checkoutUrl successHash now) r.holds ∧
      r'.names = r.names ∧
      ∀ other ∈ r.holds, other.name = hold.name → other.id ≠ hold.id → other.reserved now = false := by
  unfold NameRegistry.reserve at h
  split at h
  · cases h
  · split at h
    · cases h
    · split at h
      · cases h
      · rename_i hfree
        split at h
        · cases h
          refine ⟨rfl, rfl, fun other hother hname hid => ?_⟩
          rw [Bool.not_eq_true, List.any_eq_false] at hfree
          have hnone := hfree other hother
          rw [decide_eq_true hname, decide_eq_true hid, Bool.true_and, Bool.true_and, Bool.not_eq_true] at hnone
          exact hnone
        · cases h

theorem reserve_rows (h : r.reserve platform hold checkoutId checkoutUrl successHash now = .ok r') :
    r'.names = r.names ∧ r'.paymentEvents = r.paymentEvents := by
  unfold NameRegistry.reserve at h
  split at h
  · cases h
  · split at h
    · cases h
    · split at h
      · cases h
      · split at h
        · cases h
          exact ⟨rfl, rfl⟩
        · cases h

theorem grant_cases (h : r.grantFromEvent platform event = some (r', granted)) :
    (r.recorded event.id = true ∧ r' = r) ∨ (r.recorded event.id = false ∧
        r'.paymentEvents = r.paymentEvents ++ [⟨event.id, event.type, event.checkoutId⟩] ∧
        ((∃ existing, r.name? (platform.normalizeName (event.metadataName.getD "")) = some existing ∧
            r'.names = r.names ∧ r'.holds = r.holds ∧ (existing.checkoutId = event.checkoutId ∨ ∃ conflict,
              conflict.name = platform.normalizeName (event.metadataName.getD "") ∧
              conflict.eventId = event.id ∧ r'.conflicts = r.conflicts ++ [conflict])) ∨
          (r.name? (platform.normalizeName (event.metadataName.getD "")) = none ∧ ∃ user, platform.provisionAccount
              (r.buyerEmail platform event (platform.normalizeName (event.metadataName.getD ""))) = some user ∧
            r'.names = r.names ++ [⟨platform.normalizeName (event.metadataName.getD ""), user.subjectId, .owned,
              event.checkoutId, event.orderId, none⟩] ∧ r'.holds = r.holds.filter fun hold =>
              hold.name ≠ platform.normalizeName (event.metadataName.getD "")))) := by
  unfold NameRegistry.grantFromEvent at h
  dsimp only at h
  split at h
  · cases h
  · split at h
    · rename_i hrecorded
      cases h
      exact .inl ⟨hrecorded, rfl⟩
    · rename_i hrecorded
      have hnew : r.recorded event.id = false := Bool.not_eq_true _ ▸ hrecorded
      split at h
      · rename_i existing hexisting
        split at h
        · cases h
          exact .inr ⟨hnew, rfl, .inl ⟨existing, hexisting, rfl, rfl, .inr ⟨_, rfl, rfl, rfl⟩⟩⟩
        · rename_i hsame
          cases h
          exact .inr ⟨hnew, rfl, .inl ⟨existing, hexisting, rfl, rfl, .inl (not_not.mp hsame)⟩⟩
      · rename_i hnone
        split at h
        · cases h
        · obtain ⟨user, huser, hnext⟩ := Option.bind_eq_some_iff.mp h
          obtain ⟨customers, -, hresult⟩ := Option.map_eq_some_iff.mp hnext
          cases hresult
          exact .inr ⟨hnew, rfl, .inr ⟨hnone, user, huser, rfl, rfl⟩⟩

theorem revoke_cases {pick : ℕ} {revoked : Bool} (h : r.revokeFromEvent platform event pick = some (r', revoked)) :
    (r.recorded event.id = true ∧ r' = r) ∨ (r.recorded event.id = false ∧
        r'.paymentEvents = r.paymentEvents ++ [⟨event.id, event.type, event.checkoutId⟩] ∧ r'.holds = r.holds ∧
        ((r.names.filter (NameRegistry.refundable platform event) = [] ∧ r'.names = r.names) ∨
          ∃ row ∈ r.names, NameRegistry.refundable platform event row = true ∧ r'.names = modify NameRow.name row.name
              (fun row => { row with status := .revoked, revokeReason := some event.type }) r.names)) := by
  unfold NameRegistry.revokeFromEvent at h
  split at h
  · cases h
  · split at h
    · rename_i hrecorded
      cases h
      exact .inl ⟨hrecorded, rfl⟩
    · rename_i hrecorded
      have hnew : r.recorded event.id = false := Bool.not_eq_true _ ▸ hrecorded
      split at h
      · rename_i hnone
        cases h
        exact .inr ⟨hnew, rfl, rfl, .inl ⟨hnone, rfl⟩⟩
      · rename_i first rest hrows
        cases h
        refine .inr ⟨hnew, rfl, rfl, .inr ⟨((first :: rest)[pick]?).getD first, ?_, ?_, rfl⟩⟩
        · refine List.mem_of_mem_filter (p := NameRegistry.refundable platform event) ?_
          rw [hrows]
          cases hpick : (first :: rest)[pick]? with
          | none => exact List.mem_cons_self
          | some row => exact List.mem_of_getElem? hpick
        · refine (List.mem_filter.mp (?_ : _ ∈ r.names.filter _)).2
          rw [hrows]
          cases hpick : (first :: rest)[pick]? with
          | none => exact List.mem_cons_self
          | some row => exact List.mem_of_getElem? hpick

theorem request_keyed (h : Keyed NameHold.id r.holds)
    (hnew : r.hold? holdId = none) : Keyed NameHold.id (r.request platform name email tokenHash holdId now).holds := by
  unfold NameRegistry.request
  dsimp only
  split
  · refine h.map fun hold => ?_
    split
    · rfl
    · rfl
  · exact h.concat fun other hother => lookup_none hnew hother

theorem request_names : (r.request platform name email tokenHash holdId now).names = r.names ∧
      (r.request platform name email tokenHash holdId now).paymentEvents = r.paymentEvents := by
  unfold NameRegistry.request
  dsimp only
  split
  · exact ⟨rfl, rfl⟩
  · exact ⟨rfl, rfl⟩

theorem claimHold_mem {token : String} (h : r.claimHold platform token now = .ok hold) : hold ∈ r.holds := by
  unfold NameRegistry.claimHold at h
  split at h
  · split at h
    · cases h
    · rename_i found hfound
      cases h
      exact List.mem_of_find?_eq_some hfound
  · cases h

end Calls

/-! ## Holds -/

/-- What is known of the holds, and of those who have read one. -/
structure HoldsSound (w : NameWorld) : Prop where
  keyed : Keyed NameHold.id w.registry.holds
  valid : ∀ hold ∈ w.registry.holds, namePattern hold.name.toList = true
  requests : ∀ call ∈ w.requests, namePattern call.name.toList = true
  claims : ∀ call ∈ w.claims, namePattern call.hold.name.toList = true ∧
    ∀ hold ∈ w.registry.holds, hold.id = call.hold.id → hold.name = call.hold.name
  checkouts : ∀ checkout ∈ w.checkouts, namePattern checkout.name.toList = true
  reserved : w.OneReservation

theorem reserved_later {hold : NameHold} {now later : ℕ} (h : hold.reserved later = true) (hle : now ≤ later) :
    hold.reserved now = true := by
  unfold NameHold.reserved at h ⊢
  cases huntil : hold.reservedUntil with
  | none =>
    rw [huntil] at h
    cases h
  | some until' =>
    rw [huntil] at h
    have huntil' : later ≤ until' := of_decide_eq_true h
    exact decide_eq_true (Nat.le_trans hle huntil')

section Holds
variable {platform : NamePlatform} {w w' : NameWorld}

theorem HoldsSound.shrink (h : HoldsSound w) (hnow : w.now ≤ w'.now)
    (hholds : w'.registry.holds.Sublist w.registry.holds)
    (hrequests : ∀ call ∈ w'.requests, namePattern call.name.toList = true) (hclaims : w'.claims = w.claims)
    (hcheckouts : w'.checkouts = w.checkouts) : HoldsSound w' where
  keyed := List.Nodup.sublist (hholds.map _) h.keyed
  valid hold hhold := h.valid hold (hholds.subset hhold)
  requests := hrequests
  claims call hcall := ⟨(h.claims call (hclaims ▸ hcall)).1, fun hold hhold =>
      (h.claims call (hclaims ▸ hcall)).2 hold (hholds.subset hhold)⟩
  checkouts checkout hcheckout := h.checkouts checkout (hcheckouts ▸ hcheckout)
  reserved hold hhold other hother hname hreserved hreserved' :=
    h.reserved hold (hholds.subset hhold) other (hholds.subset hother) hname (reserved_later hreserved hnow)
      (reserved_later hreserved' hnow)

variable {startedAt k : ℕ} {call : ClaimCall} {checkoutId checkoutUrl successHash orderId : String}
  {checkout : NameCheckout} {action : NameAction}

theorem HoldsSound.requested (h : HoldsSound w) {call : RequestCall} (hcall : call ∈ w.requests) {holdId : String}
    (hfresh : w.freshHold holdId = true) : HoldsSound { w with
      registry := w.registry.request platform call.name call.email call.tokenHash holdId startedAt } := by
  unfold NameWorld.freshHold at hfresh
  rw [Bool.and_eq_true, Bool.and_eq_true] at hfresh
  obtain ⟨⟨hnone, hunread⟩, -⟩ := hfresh
  have hnew : w.registry.hold? holdId = none := Option.isNone_iff_eq_none.mp hnone
  refine ⟨request_keyed h.keyed hnew, fun hold hhold => ?_, h.requests, fun claim hclaim => ?_, h.checkouts, ?_⟩
  · rcases request_holds hhold with ⟨old, hold', -, hname, -, -⟩ | ⟨-, hname, -, -⟩
    · rw [hname]
      exact h.valid old hold'
    · rw [hname]
      exact h.requests call hcall
  · refine ⟨(h.claims claim hclaim).1, fun hold hhold hid => ?_⟩
    rcases request_holds hhold with ⟨old, hbefore, hidOld, hname, -, -⟩ | ⟨hidNew, -, -, -⟩
    · rw [hname]
      exact (h.claims claim hclaim).2 old hbefore (hidOld ▸ hid)
    · have hother := of_decide_eq_true (List.all_eq_true.mp hunread claim hclaim)
      exact absurd (hid.symm.trans hidNew) hother
  · intro hold hhold other hother hname hreserved hreserved'
    have hold? : ∀ {row : NameHold},
        row ∈ (w.registry.request platform call.name call.email call.tokenHash holdId startedAt).holds →
          row.reserved w.now = true → ∃ old ∈ w.registry.holds, row.id = old.id ∧ row.name = old.name ∧
            old.reserved w.now = true := by
      intro row hrow hrowReserved
      rcases request_holds hrow with ⟨old, hbefore, hid, hname, -, huntil⟩ | ⟨-, -, -, huntil⟩
      · refine ⟨old, hbefore, hid, hname, ?_⟩
        unfold NameHold.reserved at hrowReserved ⊢
        rw [← huntil]
        exact hrowReserved
      · unfold NameHold.reserved at hrowReserved
        rw [huntil] at hrowReserved
        cases hrowReserved
    obtain ⟨old, hbefore, hid, hnameOld, holdReserved⟩ := hold? hhold hreserved
    obtain ⟨old', hbefore', hid', hnameOld', holdReserved'⟩ := hold? hother hreserved'
    have hsame := h.reserved old hbefore old' hbefore' (hnameOld.symm.trans (hname.trans hnameOld'))
      holdReserved holdReserved'
    exact (request_keyed h.keyed hnew).eq hhold hother (by rw [hid, hid', hsame])

theorem HoldsSound.claims_set (h : HoldsSound w) {stage : ClaimStage} (hcall : w.claims[k]? = some call) :
    ∀ other ∈ w.claims.set k { call with stage := stage }, namePattern other.hold.name.toList = true ∧
        ∀ hold ∈ w.registry.holds, hold.id = other.hold.id → hold.name = other.hold.name := by
  intro other hother
  rcases List.mem_or_eq_of_mem_set hother with hbefore | rfl
  · exact h.claims other hbefore
  · exact h.claims call (List.mem_of_getElem? hcall)

theorem claimed_mem {rows : List NameHold} {id : String} {now : ℕ} {hold : NameHold}
    (h : hold ∈ modify NameHold.id id (·.claimed platform checkoutId checkoutUrl successHash now) rows) :
    ∃ old ∈ rows, hold.id = old.id ∧ hold.name = old.name ∧ (old.id ≠ id → hold = old) := by
  obtain ⟨old, hbefore, ⟨hid, rfl⟩ | ⟨hid, rfl⟩⟩ := mem_modify h
  · exact ⟨old, hbefore, rfl, rfl, fun hother => absurd hid hother⟩
  · exact ⟨hold, hbefore, rfl, rfl, fun _ => rfl⟩

theorem HoldsSound.reserves (h : HoldsSound w) (hcall : w.claims[k]? = some call) (hstarted : startedAt ≤ w.now)
    {registry : NameRegistry}
    (hreserve : w.registry.reserve platform call.hold checkoutId checkoutUrl successHash startedAt = .ok registry) :
    HoldsSound { w with registry := registry, claims := w.claims.set k { call with stage := .ended } } := by
  obtain ⟨hholds, -, hfree⟩ := reserve_ok hreserve
  have hkeyed : Keyed NameHold.id registry.holds := by
    rw [hholds]
    exact h.keyed.modify (by intro; rfl)
  have hbefore : ∀ hold ∈ registry.holds, ∃ old ∈ w.registry.holds, hold.id = old.id ∧ hold.name = old.name ∧
      (old.id ≠ call.hold.id → hold = old) := by
    intro hold hhold
    rw [hholds] at hhold
    exact claimed_mem hhold
  -- a reserved hold of the name that is claimed is the one that is claimed
  have hclaimed : ∀ hold ∈ registry.holds, hold.name = call.hold.name → hold.reserved w.now = true →
      hold.id = call.hold.id := by
    intro hold hhold hname hreserved
    obtain ⟨old, hold', hid, hnameOld, hsame⟩ := hbefore hold hhold
    by_contra hother
    have hunchanged := hsame fun hidOld => hother (hid.trans hidOld)
    have hfalse := hfree old hold' (hnameOld.symm.trans hname) fun hidOld => hother (hid.trans hidOld)
    rw [hunchanged] at hreserved
    rw [reserved_later hreserved hstarted] at hfalse
    cases hfalse
  refine ⟨hkeyed, fun hold hhold => ?_, h.requests, fun other hother => ?_, h.checkouts, ?_⟩
  · obtain ⟨old, hold', -, hname, -⟩ := hbefore hold hhold
    rw [hname]
    exact h.valid old hold'
  · obtain ⟨hvalid, hnames⟩ := h.claims_set hcall other hother
    refine ⟨hvalid, fun hold hhold hid => ?_⟩
    obtain ⟨old, hold', hidOld, hname, -⟩ := hbefore hold hhold
    rw [hname]
    exact hnames old hold' (hidOld.symm.trans hid)
  · intro hold hhold other hother hname hreserved hreserved'
    obtain ⟨old, hold', hid, hnameOld, hsame⟩ := hbefore hold hhold
    obtain ⟨old', hold'', hid', hnameOld', hsame'⟩ := hbefore other hother
    have hclaim := (h.claims call (List.mem_of_getElem? hcall)).2
    by_cases hone : old.id = call.hold.id
    · have hthis : hold.name = call.hold.name := hnameOld.trans (hclaim old hold' hone)
      have hthat := hclaimed other hother (hname.symm.trans hthis) hreserved'
      exact hkeyed.eq hhold hother (by rw [hid, hone, hthat])
    · by_cases htwo : old'.id = call.hold.id
      · have hthat : other.name = call.hold.name := hnameOld'.trans (hclaim old' hold'' htwo)
        have hthis := hclaimed hold hhold (hname.trans hthat) hreserved
        exact absurd (hid.symm.trans hthis) hone
      · have hfirst := hsame hone
        have hsecond := hsame' htwo
        rw [hfirst] at hname hreserved ⊢
        rw [hsecond] at hname hreserved' ⊢
        exact h.reserved old hold' old' hold'' hname hreserved hreserved'

/-! ## Orders -/

theorem orderId_event {order : NameOrder} : (order.event checkout).orderId = some order.id := by
  have htype : "order.".isPrefixOf "order.paid" = true := by decide +kernel
  unfold NameOrder.event parsePolarEvent
  dsimp only
  rw [if_pos htype]

theorem paidEvent_cases {event : PaymentEvent} (h : w.paidEvent orderId = some (checkout, event)) :
    ∃ order ∈ w.orders, order.id = orderId ∧ checkout ∈ w.checkouts ∧ checkout.id = order.checkoutId ∧
      event.id = orderId ∧ event.checkoutId = some checkout.id ∧ event.orderId = some orderId ∧
      event.metadataName.getD "" = checkout.name := by
  obtain ⟨order, horder, hnext⟩ := Option.bind_eq_some_iff.mp h
  obtain ⟨found, hfound, hevent⟩ := Option.map_eq_some_iff.mp hnext
  cases hevent
  obtain ⟨hmem, rfl⟩ := lookup_some horder
  obtain ⟨hcheckout, hid⟩ := lookup_some hfound
  exact ⟨order, hmem, rfl, hcheckout, hid, rfl, congrArg some hid.symm, orderId_event, rfl⟩

theorem paid_cases (hstep : nameStep platform w (.paid orderId) = some w') :
    ∃ checkout event, w.paidEvent orderId = some (checkout, event) ∧
      ((w.registry.grantFromEvent platform event = none ∧ w' = w) ∨ ∃ registry granted,
        w.registry.grantFromEvent platform event = some (registry, granted) ∧
        w' = { w with registry := registry }) := by
  obtain ⟨⟨checkout, event⟩, hfound, hnext⟩ := Option.map_eq_some_iff.mp hstep
  refine ⟨checkout, event, hfound, ?_⟩
  split at hnext
  · rename_i hnone
    exact .inl ⟨hnone, hnext.symm⟩
  · rename_i registry granted hsome
    exact .inr ⟨registry, granted, hsome, hnext.symm⟩

theorem refunded_cases {refundId : String} {pick : ℕ}
    (hstep : nameStep platform w (.refunded refundId pick) = some w') :
    ∃ refund ∈ w.refunds, refund.id = refundId ∧
      ((w.registry.revokeFromEvent platform refund.event pick = none ∧ w' = w) ∨ ∃ registry revoked,
        w.registry.revokeFromEvent platform refund.event pick = some (registry, revoked) ∧
        w' = { w with registry := registry }) := by
  obtain ⟨refund, hfound, hnext⟩ := Option.map_eq_some_iff.mp hstep
  obtain ⟨hmem, hid⟩ := lookup_some hfound
  refine ⟨refund, hmem, hid, ?_⟩
  split at hnext
  · rename_i hnone
    exact .inl ⟨hnone, hnext.symm⟩
  · rename_i registry revoked hsome
    exact .inr ⟨registry, revoked, hsome, hnext.symm⟩

/-- The steps in which neither a name nor a payment is touched. -/
def NameAction.unpaid : NameAction → Bool
  | .paid _ => false
  | .refunded _ _ => false
  | _ => true

theorem unpaid_step (hunpaid : action.unpaid = true) (hstep : nameStep platform w action = some w') :
    w'.registry.names = w.registry.names ∧ w'.registry.paymentEvents = w.registry.paymentEvents := by
  cases action with
  | wait milliseconds =>
    cases hstep
    exact ⟨rfl, rfl⟩
  | availability raw =>
    cases hstep
    obtain ⟨-, hnames, hevents, -⟩ := availability_cases platform w.registry raw w.now
    exact ⟨hnames, hevents⟩
  | secure raw email token =>
    obtain ⟨-, hnames, hevents, -⟩ := availability_cases platform w.registry raw w.now
    rw [nameStep] at hstep
    split at hstep
    · cases hstep
      exact ⟨hnames, hevents⟩
    · cases hstep
      exact ⟨hnames, hevents⟩
  | request k holdId startedAt =>
    obtain ⟨call, -, hnext⟩ := Option.bind_eq_some_iff.mp hstep
    obtain ⟨-, rfl⟩ := guarded_some hnext
    exact request_names
  | claim token =>
    rw [nameStep] at hstep
    split at hstep
    · cases hstep
      exact ⟨rfl, rfl⟩
    · cases hstep
      exact ⟨rfl, rfl⟩
  | checkout k checkoutId checkoutUrl successHash =>
    obtain ⟨call, -, hnext⟩ := Option.bind_eq_some_iff.mp hstep
    obtain ⟨-, rfl⟩ := guarded_some hnext
    exact ⟨rfl, rfl⟩
  | reserve k startedAt =>
    obtain ⟨call, -, hnext⟩ := Option.bind_eq_some_iff.mp hstep
    split at hnext
    · obtain ⟨-, hresult⟩ := Option.ite_none_right_eq_some.mp hnext
      split at hresult
      · cases hresult
        exact ⟨rfl, rfl⟩
      · rename_i registry hreserve
        cases hresult
        exact reserve_rows hreserve
    · cases hnext
  | pays checkoutId orderId email =>
    obtain ⟨checkout, -, hnext⟩ := Option.bind_eq_some_iff.mp hstep
    obtain ⟨-, rfl⟩ := guarded_some hnext
    exact ⟨rfl, rfl⟩
  | refunds orderId refundId withCheckout metadataName =>
    obtain ⟨order, -, hnext⟩ := Option.bind_eq_some_iff.mp hstep
    obtain ⟨-, rfl⟩ := guarded_some hnext
    exact ⟨rfl, rfl⟩
  | paid orderId => cases hunpaid
  | refunded refundId pick => cases hunpaid

theorem HoldsSound.step (h : HoldsSound w) (hstep : nameStep platform w action = some w') : HoldsSound w' := by
  cases action with
  | wait milliseconds =>
    cases hstep
    exact h.shrink (Nat.le_add_right _ _) (List.Sublist.refl _) h.requests rfl rfl
  | availability raw =>
    cases hstep
    exact h.shrink (Nat.le_refl _) (availability_cases platform w.registry raw w.now).1 h.requests rfl rfl
  | secure raw email token =>
    rw [nameStep] at hstep
    split at hstep
    · rename_i hpassed
      cases hstep
      refine h.shrink (Nat.le_refl _) (availability_cases platform w.registry raw w.now).1 (fun call hcall => ?_) rfl rfl
      rcases List.mem_append.mp hcall with hbefore | hnew
      · exact h.requests call hbefore
      · rw [List.mem_singleton.mp hnew]
        exact availability_valid hpassed.1
    · cases hstep
      exact h.shrink (Nat.le_refl _) (availability_cases platform w.registry raw w.now).1 h.requests rfl rfl
  | request k holdId startedAt =>
    obtain ⟨call, hcall, hnext⟩ := Option.bind_eq_some_iff.mp hstep
    obtain ⟨⟨hfresh, -⟩, rfl⟩ := guarded_some hnext
    exact h.requested (List.mem_of_getElem? hcall) hfresh
  | claim token =>
    rw [nameStep] at hstep
    split at hstep
    · cases hstep
      exact h
    · rename_i hold hread
      cases hstep
      refine ⟨h.keyed, h.valid, h.requests, fun call hcall => ?_, h.checkouts, h.reserved⟩
      rcases List.mem_append.mp hcall with hbefore | hnew
      · exact h.claims call hbefore
      · rw [List.mem_singleton.mp hnew]
        refine ⟨h.valid hold (claimHold_mem hread), fun other hother hid => ?_⟩
        rw [h.keyed.eq hother (claimHold_mem hread) hid]
  | checkout k checkoutId checkoutUrl successHash =>
    obtain ⟨call, hcall, hnext⟩ := Option.bind_eq_some_iff.mp hstep
    obtain ⟨-, rfl⟩ := guarded_some hnext
    refine ⟨h.keyed, h.valid, h.requests, h.claims_set hcall, fun checkout hcheckout => ?_, h.reserved⟩
    rcases List.mem_append.mp hcheckout with hbefore | hnew
    · exact h.checkouts checkout hbefore
    · rw [List.mem_singleton.mp hnew]
      exact (h.claims call (List.mem_of_getElem? hcall)).1
  | reserve k startedAt =>
    obtain ⟨call, hcall, hnext⟩ := Option.bind_eq_some_iff.mp hstep
    split at hnext
    · obtain ⟨hstarted, hresult⟩ := Option.ite_none_right_eq_some.mp hnext
      split at hresult
      · cases hresult
        exact ⟨h.keyed, h.valid, h.requests, h.claims_set hcall, h.checkouts, h.reserved⟩
      · rename_i registry hreserve
        cases hresult
        exact h.reserves hcall hstarted hreserve
    · cases hnext
  | pays checkoutId orderId email =>
    obtain ⟨checkout, -, hnext⟩ := Option.bind_eq_some_iff.mp hstep
    obtain ⟨-, rfl⟩ := guarded_some hnext
    exact h.shrink (Nat.le_refl _) (List.Sublist.refl _) h.requests rfl rfl
  | refunds orderId refundId withCheckout metadataName =>
    obtain ⟨order, -, hnext⟩ := Option.bind_eq_some_iff.mp hstep
    obtain ⟨-, rfl⟩ := guarded_some hnext
    exact h.shrink (Nat.le_refl _) (List.Sublist.refl _) h.requests rfl rfl
  | paid orderId =>
    obtain ⟨checkout, event, -, ⟨-, rfl⟩ | ⟨registry, granted, hgrant, rfl⟩⟩ := paid_cases hstep
    · exact h
    · refine h.shrink (Nat.le_refl _) ?_ h.requests rfl rfl
      rcases grant_cases hgrant with ⟨-, rfl⟩ | ⟨-, -, ⟨existing, -, -, hholds, -⟩ | ⟨-, user, -, -, hholds⟩⟩
      · exact List.Sublist.refl _
      · exact hholds ▸ List.Sublist.refl _
      · exact hholds ▸ List.filter_sublist
  | refunded refundId pick =>
    obtain ⟨refund, -, -, ⟨-, rfl⟩ | ⟨registry, revoked, hrevoke, rfl⟩⟩ := refunded_cases hstep
    · exact h
    · refine h.shrink (Nat.le_refl _) ?_ h.requests rfl rfl
      rcases revoke_cases hrevoke with ⟨-, rfl⟩ | ⟨-, -, hholds, -⟩
      · exact List.Sublist.refl _
      · exact hholds ▸ List.Sublist.refl _

end Holds

/-! ## Orders and the names that they bought -/

/-- A name that is registered was bought by an order whose event has been recorded, and no two orders have one
checkout. -/
structure OrdersSound (w : NameWorld) : Prop where
  named : Keyed NameRow.name w.registry.names
  once : ∀ order ∈ w.orders, ∀ other ∈ w.orders, order.checkoutId = other.checkoutId → order = other
  bought : ∀ row ∈ w.registry.names, ∃ order ∈ w.orders, row.orderId = some order.id ∧
    row.checkoutId = some order.checkoutId ∧ w.registry.recorded order.id = true

section Orders
variable {platform : NamePlatform} {w w' : NameWorld}

theorem recorded_grows {r r' : NameRegistry} {more : List PaymentRecord} {id : String}
    (hevents : r'.paymentEvents = r.paymentEvents ++ more) (h : r.recorded id = true) : r'.recorded id = true := by
  unfold NameRegistry.recorded at h ⊢
  rw [hevents, List.any_append, h, Bool.true_or]

variable {action : NameAction} {orderId : String}

theorem provider_cases (hstep : nameStep platform w action = some w') :
    (w'.orders = w.orders ∧ w'.refunds = w.refunds) ∨
      (∃ order, w'.orders = w.orders ++ [order] ∧ w'.refunds = w.refunds ∧ w.fresh order.id = true ∧
        ∀ other ∈ w.orders, other.checkoutId ≠ order.checkoutId) ∨
      ∃ refund, w'.orders = w.orders ∧ w'.refunds = w.refunds ++ [refund] ∧ w.fresh refund.id = true ∧
        ∃ order ∈ w.orders, order.id = refund.orderId := by
  cases action with
  | wait milliseconds =>
    cases hstep
    exact .inl ⟨rfl, rfl⟩
  | availability raw =>
    cases hstep
    exact .inl ⟨rfl, rfl⟩
  | secure raw email token =>
    rw [nameStep] at hstep
    split at hstep
    · cases hstep
      exact .inl ⟨rfl, rfl⟩
    · cases hstep
      exact .inl ⟨rfl, rfl⟩
  | request k holdId startedAt =>
    obtain ⟨call, -, hnext⟩ := Option.bind_eq_some_iff.mp hstep
    obtain ⟨-, rfl⟩ := guarded_some hnext
    exact .inl ⟨rfl, rfl⟩
  | claim token =>
    rw [nameStep] at hstep
    split at hstep
    · cases hstep
      exact .inl ⟨rfl, rfl⟩
    · cases hstep
      exact .inl ⟨rfl, rfl⟩
  | checkout k checkoutId checkoutUrl successHash =>
    obtain ⟨call, -, hnext⟩ := Option.bind_eq_some_iff.mp hstep
    obtain ⟨-, rfl⟩ := guarded_some hnext
    exact .inl ⟨rfl, rfl⟩
  | reserve k startedAt =>
    obtain ⟨call, -, hnext⟩ := Option.bind_eq_some_iff.mp hstep
    split at hnext
    · obtain ⟨-, hresult⟩ := Option.ite_none_right_eq_some.mp hnext
      split at hresult
      · cases hresult
        exact .inl ⟨rfl, rfl⟩
      · cases hresult
        exact .inl ⟨rfl, rfl⟩
    · cases hnext
  | pays checkoutId orderId email =>
    obtain ⟨checkout, -, hnext⟩ := Option.bind_eq_some_iff.mp hstep
    obtain ⟨⟨hfresh, hunpaid⟩, rfl⟩ := guarded_some hnext
    exact .inr (.inl ⟨_, rfl, rfl, hfresh, hunpaid⟩)
  | refunds orderId refundId withCheckout metadataName =>
    obtain ⟨order, horder, hnext⟩ := Option.bind_eq_some_iff.mp hstep
    obtain ⟨hfresh, rfl⟩ := guarded_some hnext
    obtain ⟨hmem, hid⟩ := lookup_some horder
    exact .inr (.inr ⟨_, rfl, rfl, hfresh, order, hmem, hid⟩)
  | paid orderId =>
    obtain ⟨checkout, event, -, ⟨-, rfl⟩ | ⟨registry, granted, -, rfl⟩⟩ := paid_cases hstep
    · exact .inl ⟨rfl, rfl⟩
    · exact .inl ⟨rfl, rfl⟩
  | refunded refundId pick =>
    obtain ⟨refund, -, -, ⟨-, rfl⟩ | ⟨registry, revoked, -, rfl⟩⟩ := refunded_cases hstep
    · exact .inl ⟨rfl, rfl⟩
    · exact .inl ⟨rfl, rfl⟩

theorem once_step (h : ∀ order ∈ w.orders, ∀ other ∈ w.orders, order.checkoutId = other.checkoutId → order = other) (hstep : nameStep platform w action = some w') :
    (∀ order ∈ w.orders, order ∈ w'.orders) ∧
      ∀ order ∈ w'.orders, ∀ other ∈ w'.orders, order.checkoutId = other.checkoutId → order = other := by
  rcases provider_cases hstep with ⟨hsame, -⟩ | ⟨added, hadded, -, -, hnew⟩ | ⟨refund, hsame, -⟩
  · rw [hsame]
    exact ⟨fun _ horder => horder, h⟩
  rotate_left
  · rw [hsame]
    exact ⟨fun _ horder => horder, h⟩
  · rw [hadded]
    refine ⟨fun order horder => List.mem_append_left _ horder, fun order horder other hother hcheckout => ?_⟩
    rcases List.mem_append.mp horder with hold | hlast
    · rcases List.mem_append.mp hother with hold' | hlast'
      · exact h order hold other hold' hcheckout
      · rw [List.mem_singleton.mp hlast'] at hcheckout
        exact absurd hcheckout (hnew order hold)
    · rcases List.mem_append.mp hother with hold' | hlast'
      · rw [List.mem_singleton.mp hlast] at hcheckout
        exact absurd hcheckout.symm (hnew other hold')
      · rw [List.mem_singleton.mp hlast, List.mem_singleton.mp hlast']

variable {checkout : NameCheckout} {event : PaymentEvent}

theorem paid_names (h : OrdersSound w) (hholds : HoldsSound w) {registry : NameRegistry} {granted : Bool}
    (hfound : w.paidEvent orderId = some (checkout, event))
    (hgrant : w.registry.grantFromEvent platform event = some (registry, granted)) :
    (w.registry.recorded orderId = true ∧ registry = w.registry) ∨
      (w.registry.recorded orderId = false ∧ registry.recorded orderId = true ∧
        (∀ id, w.registry.recorded id = true → registry.recorded id = true) ∧
        ((∃ existing, w.registry.name? checkout.name = some existing ∧ registry.names = w.registry.names ∧
            ∃ conflict, conflict.name = checkout.name ∧ conflict.eventId = orderId ∧
              registry.conflicts = w.registry.conflicts ++ [conflict]) ∨
          (w.registry.name? checkout.name = none ∧ ∃ user,
            platform.provisionAccount (w.registry.buyerEmail platform event checkout.name) = some user ∧
            registry.names = w.registry.names ++
              [⟨checkout.name, user.subjectId, .owned, some checkout.id, some orderId, none⟩]))) := by
  obtain ⟨order, horder, rfl, hcheckout, hcheckoutId, hid, heventCheckout, heventOrder, hname⟩ := paidEvent_cases hfound
  have hplain : platform.normalizeName (event.metadataName.getD "") = checkout.name := by
    rw [hname, normalize_plain (hholds.checkouts checkout hcheckout)]
  have hcases := grant_cases hgrant
  rw [hplain, hid, heventCheckout, heventOrder] at hcases
  rcases hcases with ⟨hrecorded, rfl⟩ | ⟨hunrecorded, hevents, hrest⟩
  · exact .inl ⟨hrecorded, rfl⟩
  · refine .inr ⟨hunrecorded, ?_, fun id hbefore => recorded_grows hevents hbefore, ?_⟩
    · unfold NameRegistry.recorded
      rw [hevents, List.any_append, List.any_cons, decide_eq_true rfl, Bool.true_or, Bool.or_true]
    · rcases hrest with ⟨existing, hexisting, hnames, -, hsame | hconflict⟩ | ⟨hnone, user, huser, hnames, -⟩
      · obtain ⟨other, hother, -, hotherCheckout, hotherRecorded⟩ := h.bought existing (lookup_some hexisting).1
        rw [hotherCheckout, hcheckoutId] at hsame
        rw [h.once other hother order horder (Option.some.inj hsame), hunrecorded] at hotherRecorded
        cases hotherRecorded
      · exact .inl ⟨existing, hexisting, hnames, hconflict⟩
      · exact .inr ⟨hnone, user, huser, hnames⟩

theorem refunded_names {refundId : String} {pick : ℕ}
    (hstep : nameStep platform w (.refunded refundId pick) = some w') :
    w'.registry.names = w.registry.names ∨ ∃ row ∈ w.registry.names, ∃ reason, row.status = .owned ∧
      w'.registry.names = modify NameRow.name row.name
        (fun row => { row with status := .revoked, revokeReason := some reason }) w.registry.names := by
  obtain ⟨refund, -, -, ⟨-, rfl⟩ | ⟨registry, revoked, hrevoke, rfl⟩⟩ := refunded_cases hstep
  · exact .inl rfl
  · rcases revoke_cases hrevoke with ⟨-, rfl⟩ | ⟨-, -, -, ⟨-, hnames⟩ | ⟨row, hrow, hrefundable, hnames⟩⟩
    · exact .inl rfl
    · exact .inl hnames
    · refine .inr ⟨row, hrow, _, ?_, hnames⟩
      unfold NameRegistry.refundable at hrefundable
      exact of_decide_eq_true (Bool.and_eq_true _ _ ▸ hrefundable).1

theorem recorded_step (hstep : nameStep platform w action = some w') {id : String}
    (h : w.registry.recorded id = true) : w'.registry.recorded id = true := by
  cases hunpaid : action.unpaid with
  | true =>
    unfold NameRegistry.recorded
    rw [(unpaid_step hunpaid hstep).2]
    exact h
  | false =>
    cases action with
    | paid orderId =>
      obtain ⟨checkout, event, -, ⟨-, rfl⟩ | ⟨registry, granted, hgrant, rfl⟩⟩ := paid_cases hstep
      · exact h
      · rcases grant_cases hgrant with ⟨-, rfl⟩ | ⟨-, hevents, -⟩
        · exact h
        · exact recorded_grows hevents h
    | refunded refundId pick =>
      obtain ⟨refund, -, -, ⟨-, rfl⟩ | ⟨registry, revoked, hrevoke, rfl⟩⟩ := refunded_cases hstep
      · exact h
      · rcases revoke_cases hrevoke with ⟨-, rfl⟩ | ⟨-, hevents, -⟩
        · exact h
        · exact recorded_grows hevents h
    | wait milliseconds => cases hunpaid
    | availability raw => cases hunpaid
    | secure raw email token => cases hunpaid
    | request k holdId startedAt => cases hunpaid
    | claim token => cases hunpaid
    | checkout k checkoutId checkoutUrl successHash => cases hunpaid
    | reserve k startedAt => cases hunpaid
    | pays checkoutId orderId email => cases hunpaid
    | refunds orderId refundId withCheckout metadataName => cases hunpaid

theorem names_cases (h : OrdersSound w) (hholds : HoldsSound w) (hstep : nameStep platform w action = some w') :
    w'.registry.names = w.registry.names ∨
      (∃ orderId checkout event user, action = .paid orderId ∧ w.paidEvent orderId = some (checkout, event) ∧
        w.registry.recorded orderId = false ∧ w'.registry.recorded orderId = true ∧
        w.registry.name? checkout.name = none ∧
        platform.provisionAccount (w.registry.buyerEmail platform event checkout.name) = some user ∧
        w'.registry.names = w.registry.names ++
          [⟨checkout.name, user.subjectId, .owned, some checkout.id, some orderId, none⟩]) ∨
      ∃ row ∈ w.registry.names, ∃ reason, row.status = .owned ∧ w'.registry.names = modify NameRow.name row.name
          (fun row => { row with status := .revoked, revokeReason := some reason }) w.registry.names := by
  cases hunpaid : action.unpaid with
  | true => exact .inl (unpaid_step hunpaid hstep).1
  | false =>
    cases action with
    | paid orderId =>
      obtain ⟨checkout, event, hfound, ⟨-, rfl⟩ | ⟨registry, granted, hgrant, rfl⟩⟩ := paid_cases hstep
      · exact .inl rfl
      · rcases paid_names h hholds hfound hgrant with ⟨-, rfl⟩ | ⟨hnew, hrecorded, -, ⟨existing, -, hnames, -⟩ |
          ⟨hnone, user, huser, hnames⟩⟩
        · exact .inl rfl
        · exact .inl hnames
        · exact .inr (.inl ⟨orderId, checkout, event, user, rfl, hfound, hnew, hrecorded, hnone, huser, hnames⟩)
    | refunded refundId pick => exact (refunded_names hstep).imp_right .inr
    | wait milliseconds => cases hunpaid
    | availability raw => cases hunpaid
    | secure raw email token => cases hunpaid
    | request k holdId startedAt => cases hunpaid
    | claim token => cases hunpaid
    | checkout k checkoutId checkoutUrl successHash => cases hunpaid
    | reserve k startedAt => cases hunpaid
    | pays checkoutId orderId email => cases hunpaid
    | refunds orderId refundId withCheckout metadataName => cases hunpaid

theorem OrdersSound.step (h : OrdersSound w) (hholds : HoldsSound w)
    (hstep : nameStep platform w action = some w') : OrdersSound w' := by
  obtain ⟨horders, honce⟩ := once_step h.once hstep
  have hkept : ∀ row ∈ w.registry.names, ∃ order ∈ w'.orders, row.orderId = some order.id ∧
      row.checkoutId = some order.checkoutId ∧ w'.registry.recorded order.id = true := by
    intro row hrow
    obtain ⟨order, horder, hid, hcheckout, hrecorded⟩ := h.bought row hrow
    exact ⟨order, horders order horder, hid, hcheckout, recorded_step hstep hrecorded⟩
  rcases names_cases h hholds hstep with hsame | ⟨orderId, checkout, event, user, rfl, hfound, -, hrecorded, hnone, -,
    hnames⟩ | ⟨row, hrow, reason, -, hnames⟩
  · refine ⟨hsame ▸ h.named, honce, ?_⟩
    rw [hsame]
    exact hkept
  · obtain ⟨order, horder, rfl, -, hcheckoutId, -⟩ := paidEvent_cases hfound
    refine ⟨?_, honce, ?_⟩
    · rw [hnames]
      exact h.named.concat fun other hother => lookup_none hnone hother
    · intro row hrow
      rw [hnames] at hrow
      rcases List.mem_append.mp hrow with hold | hnew
      · exact hkept row hold
      · rw [List.mem_singleton.mp hnew]
        exact ⟨order, horders order horder, rfl, congrArg some hcheckoutId, hrecorded⟩
  · refine ⟨?_, honce, ?_⟩
    · rw [hnames]
      exact h.named.modify (by intro; rfl)
    · intro other hother
      rw [hnames] at hother
      obtain ⟨old, hold, ⟨-, rfl⟩ | ⟨-, rfl⟩⟩ := mem_modify hother
      · exact hkept old hold
      · exact hkept other hold

theorem keepsOwners_step (h : OrdersSound w) (hholds : HoldsSound w)
    (hstep : nameStep platform w action = some w') : w.KeepsOwners w' := by
  intro row hrow
  rcases names_cases h hholds hstep with hsame | ⟨orderId, checkout, event, user, rfl, -, -, -, -, -, hnames⟩ |
    ⟨revoked, hrevoked, reason, howned, hnames⟩
  · exact ⟨row, hsame ▸ hrow, rfl, rfl, fun _ => rfl⟩
  · exact ⟨row, hnames ▸ List.mem_append_left _ hrow, rfl, rfl, fun _ => rfl⟩
  · rw [hnames]
    refine ⟨_, mem_modify_of hrow, ?_⟩
    split
    · rename_i hname
      refine ⟨rfl, rfl, fun hstatus => ?_⟩
      rw [h.named.eq hrow hrevoked hname, howned] at hstatus
      cases hstatus
    · exact ⟨rfl, rfl, fun _ => rfl⟩

theorem NameWorld.KeepsOwners.trans {w'' : NameWorld} (h : w.KeepsOwners w') (h' : w'.KeepsOwners w'') :
    w.KeepsOwners w'' := by
  intro row hrow
  obtain ⟨next, hnext, hname, howner, hrevoked⟩ := h row hrow
  obtain ⟨last, hlast, hname', howner', hrevoked'⟩ := h' next hnext
  refine ⟨last, hlast, hname'.trans hname, howner'.trans howner, fun hstatus => ?_⟩
  have hsame := hrevoked hstatus
  rw [hsame] at hrevoked'
  exact hrevoked' hstatus

/-! ## One name for each account -/

theorem granted_account {user : CheckoutCustomer} (hone : grantsOneName platform w (.paid orderId) = true)
    (hfound : w.paidEvent orderId = some (checkout, event)) (hnew : w.registry.recorded orderId = false)
    (hnone : w.registry.name? checkout.name = none)
    (huser : platform.provisionAccount (w.registry.buyerEmail platform event checkout.name) = some user) :
    platform.provisionAccount (platform.toLowerCase checkout.email) = some user ∧
      ∀ row ∈ w.registry.names, row.ownerUserId ≠ user.subjectId ∨ row.status ≠ .owned := by
  obtain ⟨order, -, rfl, -, -, hid, -⟩ := paidEvent_cases hfound
  rw [grantsOneName, hfound, Option.all_some, hid, hnew, hnone, Option.isSome_none, Bool.false_or, Bool.false_or,
    Bool.and_eq_true] at hone
  rw [of_decide_eq_true hone.1] at huser
  refine ⟨huser, fun row hrow => ?_⟩
  have hall := hone.2
  rw [huser, Option.all_some, List.all_eq_true] at hall
  exact of_decide_eq_true (hall row hrow)

theorem oneNameEach_step (h : OrdersSound w) (hholds : HoldsSound w)
    (hone : grantsOneName platform w action = true) (heach : w.OneNameEach)
    (hstep : nameStep platform w action = some w') : w'.OneNameEach := by
  rcases names_cases h hholds hstep with hsame | ⟨orderId, checkout, event, user, rfl, hfound, hnew, -, hnone, huser,
    hnames⟩ | ⟨row, hrow, reason, -, hnames⟩
  · unfold NameWorld.OneNameEach
    rw [hsame]
    exact heach
  · obtain ⟨-, hfree⟩ := granted_account hone hfound hnew hnone huser
    intro row hrow other hother howned howned' hsame
    rw [hnames] at hrow hother
    rcases List.mem_append.mp hrow with hold | hlast
    · rcases List.mem_append.mp hother with hold' | hlast'
      · exact heach row hold other hold' howned howned' hsame
      · rw [List.mem_singleton.mp hlast'] at hsame
        rcases hfree row hold with hne | hne
        · exact absurd hsame hne
        · exact absurd howned hne
    · rcases List.mem_append.mp hother with hold' | hlast'
      · rw [List.mem_singleton.mp hlast] at hsame
        rcases hfree other hold' with hne | hne
        · exact absurd hsame.symm hne
        · exact absurd howned' hne
      · rw [List.mem_singleton.mp hlast, List.mem_singleton.mp hlast']
  · intro first hfirst second hsecond howned howned' hsame
    rw [hnames] at hfirst hsecond
    obtain ⟨old, hold, ⟨-, rfl⟩ | ⟨-, rfl⟩⟩ := mem_modify hfirst
    · cases howned
    · obtain ⟨old', hold', ⟨-, rfl⟩ | ⟨-, rfl⟩⟩ := mem_modify hsecond
      · cases howned'
      · exact heach first hold second hold' howned howned' hsame

theorem paidOutcome_step (h : OrdersSound w) (hholds : HoldsSound w)
    (hone : grantsOneName platform w (.paid orderId) = true)
    (hstep : nameStep platform w (.paid orderId) = some w') : w.PaidOutcome platform orderId w' := by
  intro checkout event result hfound hgrant
  obtain ⟨checkout', event', hfound', hends⟩ := paid_cases hstep
  rw [hfound] at hfound'
  cases hfound'
  rcases hends with ⟨hnone, -⟩ | ⟨registry, granted, hgrant', rfl⟩
  · rw [hnone] at hgrant
    cases hgrant
  · rcases paid_names h hholds hfound hgrant' with ⟨hrecorded, rfl⟩ | ⟨hnew, -, -, ⟨existing, -, hnames, hconflict⟩ |
      ⟨hnone, user, huser, hnames⟩⟩
    · exact .inl ⟨hrecorded, rfl⟩
    · exact .inr (.inr ⟨hnames, hconflict⟩)
    · obtain ⟨haccount, -⟩ := granted_account hone hfound hnew hnone huser
      exact .inr (.inl ⟨user, haccount, hnone, hnames⟩)

end Orders

/-! ## Whole runs -/

theorem namesSound_empty : HoldsSound .empty ∧ OrdersSound .empty :=
  ⟨⟨Keyed.nil, nofun, nofun, nofun, nofun, nofun⟩, ⟨Keyed.nil, nofun, nofun⟩⟩

section Runs
variable {platform : NamePlatform} {w w' : NameWorld}

variable {actions : List NameAction}

theorem namesSound_run (hrun : run (nameStep platform) .empty actions = some w) : HoldsSound w ∧ OrdersSound w :=
  run_invariant (I := fun w => HoldsSound w ∧ OrdersSound w) (P := fun _ => True)
    (fun _ _ _ _ hsound hstep => ⟨hsound.1.step hstep, hsound.2.step hsound.1 hstep⟩) (fun _ _ => trivial)
    namesSound_empty hrun

theorem keepsOwners_run (hholds : HoldsSound w) (horders : OrdersSound w)
    (hrun : run (nameStep platform) w actions = some w') : w.KeepsOwners w' := by
  refine run_relates (I := fun w => HoldsSound w ∧ OrdersSound w) (P := fun _ => True)
    (R := fun w w' => w.KeepsOwners w') ?_ ?_ ?_ ?_ (fun _ _ => trivial) ⟨hholds, horders⟩ hrun
  · exact fun _ _ _ _ hsound hstep => ⟨hsound.1.step hstep, hsound.2.step hsound.1 hstep⟩
  · exact fun _ row hrow => ⟨row, hrow, rfl, rfl, fun _ => rfl⟩
  · exact fun _ _ _ hfirst hsecond => hfirst.trans hsecond
  · intro before action after _ hsound hstep
    exact keepsOwners_step hsound.2 hsound.1 hstep

/-- In a run in which every grant is to the address of the reservation, whose account owns no name, names are
kept. -/
theorem names_kept {actions : List NameAction}
    (h : along (nameStep platform) (grantsOneName platform) .empty actions = true) : NamesKept platform actions := by
  rintro before after w w' rfl hbefore hafter
  obtain ⟨hholds, horders⟩ := namesSound_run hbefore
  have heach : (HoldsSound w ∧ OrdersSound w) ∧ w.OneNameEach := by
    refine along_invariant (I := fun w => (HoldsSound w ∧ OrdersSound w) ∧ w.OneNameEach) ?_ (along_before h)
      ⟨namesSound_empty, nofun⟩ hbefore
    intro w action w' hone hsound hstep
    exact ⟨⟨hsound.1.1.step hstep, hsound.1.2.step hsound.1.1 hstep⟩,
      oneNameEach_step hsound.1.2 hsound.1.1 hone hsound.2 hstep⟩
  refine ⟨horders.named, keepsOwners_run hholds horders hafter, hholds.reserved, heach.2, fun orderId rest next hrest hnext => ?_⟩
  have hlater := along_split h hbefore
  rw [hrest] at hlater
  exact paidOutcome_step horders hholds (along_cons hlater).1 hnext

end Runs

/-! ## Two names for one address -/

def namesSample : NamePlatform where
  toLowerCase := id
  trim := id
  sha256Hex := id
  isBearerToken _ := true
  provisionAccount email := some ⟨"u-" ++ email, email⟩
  reservationTtlMinutes := 5
  holdTtlHours := 24
  lower_plain _ _ := rfl
  trim_plain _ _ := rfl

/-- A name is requested, its link is clicked, and its checkout is paid. -/
def bought (k : ℕ) (name email token holdId checkoutId orderId : String) : List NameAction :=
  [.secure name email token, .request k holdId 0, .claim token, .checkout k checkoutId "url" "hash", .reserve k 0,
    .pays checkoutId orderId (some email)]

theorem names_kept_sold : NamesKept namesSample (bought 0 "ada" "a@b.c" "t1" "h1" "co1" "o1" ++
      [.paid "o1", .paid "o1", .secure "ada" "d@e.f" "t2", .refunds "o1" "r1" true none, .refunded "r1" 0]) :=
  names_kept (by decide +kernel)

/-- Both names are claimed before either order is paid. -/
theorem second_name_granted : ¬ ∀ platform actions, NamesKept platform actions := by
  intro h
  have hruns : ((run (nameStep namesSample) .empty (bought 0 "ada" "a@b.c" "t1" "h1" "co1" "o1" ++
      bought 1 "bob" "a@b.c" "t2" "h2" "co2" "o2" ++ [.paid "o1", .paid "o2"])).map fun w =>
        w.registry.names.map fun row => (row.name, row.ownerUserId, row.status)) =
          some [("ada", "u-a@b.c", .owned), ("bob", "u-a@b.c", .owned)] := by decide +kernel
  obtain ⟨w, hw, hnames⟩ := Option.map_eq_some_iff.mp hruns
  have heach := (h namesSample _ _ [] w w (List.append_nil _).symm hw rfl).2.2.2.1
  obtain ⟨row, rows, hrow, hada, hrows⟩ := List.map_eq_cons_iff.mp hnames
  obtain ⟨other, others, hother, hbob, -⟩ := List.map_eq_cons_iff.mp hrows
  have hmem : row ∈ w.registry.names := hrow ▸ List.mem_cons_self
  have hmem' : other ∈ w.registry.names := by
    rw [hrow, hother]
    exact List.mem_cons_of_mem _ List.mem_cons_self
  simp only [Prod.mk.injEq] at hada hbob
  have hsame := heach row hmem other hmem' hada.2.2 hbob.2.2 (hada.2.1.trans hbob.2.1.symm)
  rw [← hsame, hada.1] at hbob
  exact absurd hbob.1 (by decide)

end AvenOS.Checkout
