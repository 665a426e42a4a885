import AvenOS.Checkout.EmailQueue

/-! # Leases on emails

An email is claimed under the name of a worker and with a number that no other claim of it has. What a worker
writes is fenced by its name only. -/
namespace AvenOS.Checkout
open KeyedTable LabelledRun StableSort

/-! ## What is asked of the queue -/

def EmailRow.heldBy (row : EmailRow) (delivery : EmailDelivery) : Prop :=
  row.leaseOwner = some delivery.owner ∧ row.attempts = delivery.email.attempts

def EmailAction.delivery? : EmailAction → Option ℕ
  | .sent k _ _ => some k
  | .fails k _ => some k
  | .close k _ _ _ => some k
  | _ => none

def EmailRow.final (row : EmailRow) : Prop := row.status = .sent ∨ row.status = .dead

namespace EmailWorld
variable (w : EmailWorld)

/-- One delivery at most with a lease that has not expired gives an email to the provider. -/
def OneHandsOver : Prop :=
  ∀ (k j : ℕ) (delivery other : EmailDelivery), w.deliveries[k]? = some delivery → w.deliveries[j]? = some other →
    delivery.stage = .delivering → other.stage = .delivering → delivery.email.id = other.email.id →
    w.now ≤ delivery.lease → w.now ≤ other.lease → k = j

def AttemptsCounted : Prop :=
  ∀ row ∈ w.rows, row.attempts = w.claims.count row.id ∧ row.attempts ≤ row.maxAttempts

def KeepsFinal (w' : EmailWorld) : Prop := ∀ row ∈ w.rows, row.final → row ∈ w'.rows

/-- A delivery whose lease is not in place leaves the row of its email. -/
def FencedBy (action : EmailAction) (w' : EmailWorld) : Prop :=
  ∀ (k : ℕ) delivery row, action.delivery? = some k → w.deliveries[k]? = some delivery → row ∈ w.rows →
    row.id = delivery.email.id → ¬ row.heldBy delivery → row ∈ w'.rows

/-- What is neither sent nor dead will be claimable. -/
def StaysClaimable (config : EmailWorkerConfig) : Prop :=
  ∀ row ∈ w.rows, ¬ row.final → ∃ more w' row', run (emailStep config) w more = some w' ∧ row' ∈ w'.rows ∧
    row'.id = row.id ∧ row'.claimable w'.now = true

end EmailWorld

/-- At every point of a run, and for whatever follows it. -/
def QueueKept (config : EmailWorkerConfig) (actions : List EmailAction) : Prop :=
  ∀ before after w w', actions = before ++ after → run (emailStep config) .empty before = some w →
    run (emailStep config) w after = some w' → w.OneHandsOver ∧ w.AttemptsCounted ∧ w.StaysClaimable config ∧
      w.KeepsFinal w' ∧ ∀ action rest next, after = action :: rest → emailStep config w action = some next →
        w.FencedBy action next

def EmailWorld.ownLease (w : EmailWorld) (k : ℕ) : Bool :=
  (w.deliveries[k]?).all fun delivery => w.rows.all fun row =>
    row.id = delivery.email.id ∧ row.leaseOwner = some delivery.owner → row.attempts = delivery.email.attempts

/-- No recovery finds an expired lease of the last attempt that is allowed, and no delivery writes its outcome
where its own worker has claimed the email again. -/
def orderly (w : EmailWorld) : EmailAction → Bool
  | .recover readAt => w.rows.all fun row => row.expired readAt → row.attempts ≠ row.maxAttempts
  | .sent k statement _ => statement = .failed ∨ w.ownLease k
  | .close k _ _ statement => statement = .failed ∨ w.ownLease k
  | _ => true

/-! ## Rows and deliveries -/

structure EmailRow.Sound (row : EmailRow) : Prop where
  unleased : row.status ≠ .sending → row.leaseOwner = none ∧ row.leaseExpiresAt = none
  leased : row.status = .sending → row.leaseExpiresAt.isSome
  bounded : row.attempts ≤ row.maxAttempts
  spare : row.status = .queued ∨ row.status = .retryWait → row.attempts < row.maxAttempts
  payload : row.status ≠ .sent → row.payloadEncrypted.isSome

/-- What is known of a delivery: while it is with the provider its lease is in place or has expired. -/
def DeliverySound (now : ℕ) (rows : List EmailRow) (delivery : EmailDelivery) : Prop :=
  ∃ row ∈ rows, row.id = delivery.email.id ∧ row.maxAttempts = delivery.email.maxAttempts ∧
    delivery.email.attempts ≤ row.attempts ∧
    (delivery.stage = .delivering → delivery.lease < now ∨ row.status = .sending ∧ row.heldBy delivery ∧
      row.leaseExpiresAt = some delivery.lease)

structure QueueSound (w : EmailWorld) : Prop where
  keyed : Keyed EmailRow.id w.rows
  row : ∀ row ∈ w.rows, row.Sound
  counted : ∀ row ∈ w.rows, row.attempts = w.claims.count row.id
  claimed : ∀ id ∈ w.claims, ∃ row ∈ w.rows, row.id = id
  delivery : ∀ delivery ∈ w.deliveries, DeliverySound w.now w.rows delivery
  apart : ∀ (k j : ℕ) (delivery other : EmailDelivery), w.deliveries[k]? = some delivery →
    w.deliveries[j]? = some other → delivery.email.id = other.email.id →
    delivery.email.attempts = other.email.attempts → k = j

theorem queueSound_empty : QueueSound .empty where
  keyed := Keyed.nil
  row := nofun
  counted := nofun
  claimed := nofun
  delivery := nofun
  apart := nofun

section Rows
variable {row : EmailRow} {now : ℕ}

theorem expired_cases (h : row.expired now = true) :
    row.status = .sending ∧ ∃ lease, row.leaseExpiresAt = some lease ∧ lease < now := by
  obtain ⟨hsending, hlease⟩ := of_decide_eq_true h
  cases hexpires : row.leaseExpiresAt with
  | none =>
    rw [hexpires] at hlease
    cases hlease
  | some lease =>
    rw [hexpires] at hlease
    exact ⟨hsending, lease, rfl, of_decide_eq_true hlease⟩

theorem claimable_cases (h : row.claimable now = true) : row.status = .queued ∨ row.status = .retryWait :=
  (of_decide_eq_true h).1

theorem EmailRow.Sound.recovered (h : row.Sound) (hspare : row.attempts ≠ row.maxAttempts)
    (hsending : row.status = .sending) : (row.recovered now).Sound where
  unleased _ := ⟨rfl, rfl⟩
  leased := nofun
  bounded := h.bounded
  spare _ := Nat.lt_of_le_of_ne h.bounded hspare
  payload _ := h.payload (by rw [hsending]; nofun)

theorem EmailRow.Sound.taken (h : row.Sound) (hclaimable : row.claimable now = true) (owner : String)
    (lease : ℕ) : (row.leased owner lease).Sound where
  unleased hother := absurd rfl hother
  leased _ := rfl
  bounded := h.spare (claimable_cases hclaimable)
  spare hother := by
    rcases hother with hqueued | hwaiting
    · cases hqueued
    · cases hwaiting
  payload _ := by
    have hpayload := (of_decide_eq_true hclaimable).2.2.2
    exact hpayload

theorem EmailRow.Sound.wasSent (h : row.Sound) : row.sent.Sound where
  unleased _ := ⟨rfl, rfl⟩
  leased := nofun
  bounded := h.bounded
  spare hother := by
    rcases hother with hqueued | hwaiting
    · cases hqueued
    · cases hwaiting
  payload hother := absurd rfl hother

variable {config : EmailWorkerConfig} {email : ClaimedEmail} {kind : SmtpFailureKind} {random : ℚ}

theorem EmailRow.Sound.failed (h : row.Sound) (hsending : row.status = .sending)
    (hattempts : row.attempts = email.attempts) (hmax : row.maxAttempts = email.maxAttempts) :
    (failureChange config email kind now random row).Sound := by
  have hpayload : row.payloadEncrypted.isSome := h.payload (by rw [hsending]; nofun)
  unfold failureChange
  split
  · refine ⟨fun _ => ⟨rfl, rfl⟩, nofun, h.bounded, fun hother => ?_, fun _ => hpayload⟩
    rcases hother with hqueued | hwaiting
    · cases hqueued
    · cases hwaiting
  · rename_i hleft
    refine ⟨fun _ => ⟨rfl, rfl⟩, nofun, h.bounded, fun _ => ?_, fun _ => hpayload⟩
    show row.attempts < row.maxAttempts
    have hspare : ¬ email.maxAttempts ≤ email.attempts := fun hle => hleft (.inr hle)
    omega

theorem failureChange_keeps : (failureChange config email kind now random row).id = row.id ∧
      (failureChange config email kind now random row).maxAttempts = row.maxAttempts ∧
      (failureChange config email kind now random row).attempts = row.attempts := by
  unfold failureChange
  split
  · exact ⟨rfl, rfl, rfl⟩
  · exact ⟨rfl, rfl, rfl⟩

end Rows

/-! ## Steps that claim nothing -/

structure EmailDelivery.Follows (delivery later : EmailDelivery) : Prop where
  owner : later.owner = delivery.owner
  email : later.email = delivery.email
  lease : later.lease = delivery.lease
  stage : later.stage = .delivering → delivery.stage = .delivering

theorem EmailDelivery.Follows.refl (delivery : EmailDelivery) : delivery.Follows delivery := ⟨rfl, rfl, rfl, id⟩

section Moved
variable {w w' : EmailWorld}

theorem QueueSound.moved (h : QueueSound w) {f : EmailRow → EmailRow} (hnow : w.now ≤ w'.now)
    (hrows : w'.rows = w.rows.map f) (hclaims : w'.claims = w.claims) (hid : ∀ row, (f row).id = row.id)
    (hmax : ∀ row, (f row).maxAttempts = row.maxAttempts) (hattempts : ∀ row, (f row).attempts = row.attempts)
    (hsound : ∀ row ∈ w.rows, (f row).Sound)
    (hdeliveries : ∀ (k : ℕ) (later : EmailDelivery), w'.deliveries[k]? = some later →
      ∃ delivery, w.deliveries[k]? = some delivery ∧ delivery.Follows later ∧
        (later.stage = .delivering → ∀ row ∈ w.rows, row.id = delivery.email.id → row.status = .sending →
          row.heldBy delivery → row.leaseExpiresAt = some delivery.lease →
          f row = row ∨ delivery.lease < w'.now)) : QueueSound w' := by
  constructor
  · rw [hrows]
    exact h.keyed.map hid
  · intro row hrow
    rw [hrows] at hrow
    obtain ⟨old, hold, rfl⟩ := List.mem_map.mp hrow
    exact hsound old hold
  · intro row hrow
    rw [hrows] at hrow
    obtain ⟨old, hold, rfl⟩ := List.mem_map.mp hrow
    rw [hattempts, hid, hclaims]
    exact h.counted old hold
  · intro id hclaimed
    rw [hclaims] at hclaimed
    obtain ⟨row, hrow, rfl⟩ := h.claimed id hclaimed
    exact ⟨f row, hrows ▸ List.mem_map_of_mem hrow, hid row⟩
  · intro later hlater
    obtain ⟨k, hk⟩ := List.mem_iff_getElem?.mp hlater
    obtain ⟨delivery, hdelivery, hfollows, hplace⟩ := hdeliveries k later hk
    obtain ⟨row, hrow, hrowId, hrowMax, hle, hheld⟩ := h.delivery delivery (List.mem_of_getElem? hdelivery)
    refine ⟨f row, hrows ▸ List.mem_map_of_mem hrow, ?_, ?_, ?_, fun hstage => ?_⟩
    · rw [hid, hrowId, hfollows.email]
    · rw [hmax, hrowMax, hfollows.email]
    · rw [hattempts, hfollows.email]
      exact hle
    · rw [hfollows.lease]
      rcases hheld (hfollows.stage hstage) with hexpired | ⟨hsending, hrowHeld, hexpires⟩
      · left
        omega
      · rcases hplace hstage row hrow hrowId hsending hrowHeld hexpires with hsame | hexpired
        · rw [hsame]
          refine .inr ⟨hsending, ?_, hexpires⟩
          unfold EmailRow.heldBy
          rw [hfollows.owner, hfollows.email]
          exact hrowHeld
        · exact .inl hexpired
  · intro k j later other hk hj hemail hnumber
    obtain ⟨delivery, hdelivery, hfollows, -⟩ := hdeliveries k later hk
    obtain ⟨delivery', hdelivery', hfollows', -⟩ := hdeliveries j other hj
    rw [hfollows.email, hfollows'.email] at hemail hnumber
    exact h.apart k j delivery delivery' hdelivery hdelivery' hemail hnumber

theorem QueueSound.unwritten (h : QueueSound w) (hnow : w.now ≤ w'.now) (hrows : w'.rows = w.rows)
    (hclaims : w'.claims = w.claims)
    (hdeliveries : ∀ (k : ℕ) (later : EmailDelivery), w'.deliveries[k]? = some later →
      ∃ delivery, w.deliveries[k]? = some delivery ∧ delivery.Follows later) : QueueSound w' := by
  refine h.moved (f := id) hnow (hrows.trans (List.map_id _).symm) hclaims (by intro; rfl) (by intro; rfl)
    (by intro; rfl) h.row fun k later hlater => ?_
  obtain ⟨delivery, hdelivery, hfollows⟩ := hdeliveries k later hlater
  exact ⟨delivery, hdelivery, hfollows, fun _ row _ _ _ _ _ => .inl rfl⟩

variable {k : ℕ} {delivery : EmailDelivery} {stage : DeliveryStage}

variable {j : ℕ} {later : EmailDelivery}

theorem stand_cases (hk : w.deliveries[k]? = some delivery) (hj : (w.stand k delivery stage)[j]? = some later) :
    j = k ∧ later = { delivery with stage := stage } ∨ j ≠ k ∧ w.deliveries[j]? = some later := by
  have hlength : k < w.deliveries.length := (List.getElem?_eq_some_iff.mp hk).1
  unfold EmailWorld.stand at hj
  rw [List.getElem?_set] at hj
  by_cases hsame : k = j
  · rw [if_pos hsame, if_pos hlength] at hj
    exact .inl ⟨hsame.symm, (Option.some.inj hj).symm⟩
  · rw [if_neg hsame] at hj
    exact .inr ⟨fun h => hsame h.symm, hj⟩

theorem stand_follows (hk : w.deliveries[k]? = some delivery) (hstage : stage ≠ .delivering)
    (hj : (w.stand k delivery stage)[j]? = some later) :
    ∃ before, w.deliveries[j]? = some before ∧ before.Follows later ∧ (later.stage = .delivering → j ≠ k) := by
  rcases stand_cases hk hj with ⟨rfl, rfl⟩ | ⟨hne, hsame⟩
  · exact ⟨delivery, hk, ⟨rfl, rfl, rfl, fun h => absurd h hstage⟩, fun h => absurd h hstage⟩
  · exact ⟨later, hsame, .refl later, fun _ => hne⟩

theorem QueueSound.updated (h : QueueSound w) {change : EmailRow → EmailRow} {workers : List WorkerState} (hk : w.deliveries[k]? = some delivery)
    (hown : w.ownLease k = true) (hstage : stage ≠ .delivering)
    (hkeeps : ∀ row, (change row).id = row.id ∧ (change row).maxAttempts = row.maxAttempts ∧
      (change row).attempts = row.attempts)
    (hsound : ∀ row ∈ w.rows, row.id = delivery.email.id → row.heldBy delivery → (change row).Sound) :
    QueueSound { w with
      rows := updateLeased w.rows delivery.email.id delivery.owner change
      workers := workers
      deliveries := w.stand k delivery stage } := by
  have hheld : ∀ row ∈ w.rows, row.id = delivery.email.id ∧ row.leaseOwner = some delivery.owner →
      row.heldBy delivery := by
    intro row hrow hleased
    unfold EmailWorld.ownLease at hown
    rw [hk, Option.all_some, List.all_eq_true] at hown
    exact ⟨hleased.2, of_decide_eq_true (hown row hrow) hleased⟩
  refine h.moved (Nat.le_refl _) rfl rfl ?_ ?_ ?_ ?_ ?_
  · intro row
    split
    · exact (hkeeps row).1
    · rfl
  · intro row
    split
    · exact (hkeeps row).2.1
    · rfl
  · intro row
    split
    · exact (hkeeps row).2.2
    · rfl
  · intro row hrow
    split
    · rename_i hleased
      exact hsound row hrow hleased.1 (hheld row hrow hleased)
    · exact h.row row hrow
  · intro j later hj
    obtain ⟨before, hbefore, hfollows, hother⟩ := stand_follows hk hstage hj
    refine ⟨before, hbefore, hfollows, fun hdelivering row hrow hid _ hrowHeld _ => .inl ?_⟩
    rw [if_neg]
    intro hleased
    have hnumber := (hheld row hrow hleased).2
    rw [hrowHeld.2] at hnumber
    exact hother hdelivering (h.apart j k before delivery hbefore hk (hid.symm.trans hleased.1) hnumber)

theorem QueueSound.recovered (h : QueueSound w) {readAt : ℕ} (hread : readAt ≤ w.now)
    (hspare : ∀ row ∈ w.rows, row.expired readAt = true → row.attempts ≠ row.maxAttempts) :
    QueueSound { w with rows := recoverExpiredLeases w.rows readAt } := by
  refine h.moved (Nat.le_refl _) rfl rfl ?_ ?_ ?_ ?_ ?_
  · intro row
    split
    · rfl
    · rfl
  · intro row
    split
    · rfl
    · rfl
  · intro row
    split
    · rfl
    · rfl
  · intro row hrow
    split
    · rename_i hexpired
      exact (h.row row hrow).recovered (hspare row hrow hexpired) (expired_cases hexpired).1
    · exact h.row row hrow
  · intro k later hlater
    refine ⟨later, hlater, .refl later, fun _ row hrow _ _ _ hexpires => ?_⟩
    by_cases hexpired : row.expired readAt = true
    · obtain ⟨-, lease, hlease, hbefore⟩ := expired_cases hexpired
      rw [hexpires] at hlease
      cases hlease
      right
      show later.lease < w.now
      omega
    · exact .inl (if_neg hexpired)

end Moved

/-! ## Claims -/

section Claims
variable {config : EmailWorkerConfig} {rows : List EmailRow} {now : ℕ} {skipped : List String} {row : EmailRow}

theorem mem_claimBatch (h : row ∈ claimBatch config rows now skipped) : row ∈ rows ∧ row.claimable now = true := by
  obtain ⟨hrow, hboth⟩ := List.mem_filter.mp (mem_sortBy.1 (List.mem_of_mem_take h))
  exact ⟨hrow, (Bool.and_eq_true _ _ ▸ hboth).1⟩

theorem claimBatch_keyed (h : Keyed EmailRow.id rows) : Keyed EmailRow.id (claimBatch config rows now skipped) := by
  have hfilter : Keyed EmailRow.id (rows.filter fun row => row.claimable now && !skipped.contains row.id) :=
    List.Nodup.sublist (List.filter_sublist.map _) h
  have hsorted := ((sortBy_perm claimOrder _).map EmailRow.id).nodup_iff.mpr hfilter
  exact List.Nodup.sublist ((List.take_sublist _ _).map _) hsorted

theorem mem_claimBatch_of (h : Keyed EmailRow.id rows) (hrow : row ∈ rows)
    (hid : row.id ∈ (claimBatch config rows now skipped).map EmailRow.id) :
    row ∈ claimBatch config rows now skipped := by
  obtain ⟨other, hother, hsame⟩ := List.mem_map.mp hid
  rw [← h.eq (mem_claimBatch hother).1 hrow hsame]
  exact hother

variable {w : EmailWorld} {owner : String} {batch : ℕ}

def begun (config : EmailWorkerConfig) (taken : List EmailRow) (owner : String) (batch now : ℕ) :
    List EmailDelivery :=
  (taken.map EmailRow.claimed).map (⟨owner, batch, ·, now + config.leaseSeconds * 1000, .delivering⟩)

variable {delivery : EmailDelivery}

variable {k clock : ℕ}

theorem begun_getElem {taken : List EmailRow} (h : (begun config taken owner batch now)[k]? = some delivery) :
    ∃ row, taken[k]? = some row ∧
      delivery = ⟨owner, batch, row.claimed, now + config.leaseSeconds * 1000, .delivering⟩ := by
  unfold begun at h
  rw [List.getElem?_map, List.getElem?_map, Option.map_map] at h
  obtain ⟨row, hrow, hdelivery⟩ := Option.map_eq_some_iff.mp h
  exact ⟨row, hrow, hdelivery.symm⟩

theorem claimed_row (h : Keyed EmailRow.id rows) {later : EmailRow}
    (hlater : later ∈ (claimEmails config rows owner now skipped).1) : ∃ row ∈ rows,
      (row ∈ claimBatch config rows now skipped ∧ later = row.leased owner (now + config.leaseSeconds * 1000)) ∨
      (row.id ∉ (claimBatch config rows now skipped).map EmailRow.id ∧ later = row) := by
  obtain ⟨row, hrow, rfl⟩ := List.mem_map.mp hlater
  refine ⟨row, hrow, ?_⟩
  by_cases hid : row.id ∈ (claimBatch config rows now skipped).map EmailRow.id
  · exact .inl ⟨mem_claimBatch_of h hrow hid, if_pos hid⟩
  · exact .inr ⟨hid, if_neg hid⟩

theorem leased_mem (hrow : row ∈ claimBatch config rows now skipped) :
    row.leased owner (now + config.leaseSeconds * 1000) ∈ (claimEmails config rows owner now skipped).1 := by
  refine List.mem_map.mpr ⟨row, (mem_claimBatch hrow).1, ?_⟩
  exact if_pos (List.mem_map_of_mem hrow)

theorem unclaimed_mem (hrow : row ∈ rows) (hid : row.id ∉ (claimBatch config rows now skipped).map EmailRow.id) :
    row ∈ (claimEmails config rows owner now skipped).1 :=
  List.mem_map.mpr ⟨row, hrow, if_neg hid⟩

theorem count_batch (h : Keyed EmailRow.id rows) (id : String) :
    ((claimBatch config rows now skipped).map EmailRow.id).count id =
      if id ∈ (claimBatch config rows now skipped).map EmailRow.id then 1 else 0 := by
  by_cases hid : id ∈ (claimBatch config rows now skipped).map EmailRow.id
  · rw [if_pos hid]
    exact List.count_eq_one_of_mem (claimBatch_keyed h) hid
  · rw [if_neg hid]
    exact List.count_eq_zero_of_not_mem hid

theorem DeliverySound.afterClaim (hkeyed : Keyed EmailRow.id rows) (h : DeliverySound clock rows delivery) :
    DeliverySound clock (claimEmails config rows owner now skipped).1 delivery := by
  obtain ⟨row, hrow, hid, hmax, hle, hheld⟩ := h
  by_cases htaken : row.id ∈ (claimBatch config rows now skipped).map EmailRow.id
  · have hbatch := mem_claimBatch_of hkeyed hrow htaken
    refine ⟨_, leased_mem hbatch, hid, hmax, Nat.le_succ_of_le hle, fun hstage => .inl ?_⟩
    rcases hheld hstage with hexpired | ⟨hsending, -, -⟩
    · exact hexpired
    · rcases claimable_cases (mem_claimBatch hbatch).2 with hqueued | hwaiting
      · rw [hsending] at hqueued
        cases hqueued
      · rw [hsending] at hwaiting
        cases hwaiting
  · exact ⟨row, unclaimed_mem hrow htaken, hid, hmax, hle, hheld⟩

theorem begun_sound (h : delivery ∈ begun config (claimBatch config rows now skipped) owner batch now) :
    DeliverySound clock (claimEmails config rows owner now skipped).1 delivery := by
  obtain ⟨k, hk⟩ := List.mem_iff_getElem?.mp h
  obtain ⟨row, hrow, rfl⟩ := begun_getElem hk
  exact ⟨_, leased_mem (List.mem_of_getElem? hrow), rfl, rfl, Nat.le_refl _, fun _ => .inr ⟨rfl, ⟨rfl, rfl⟩, rfl⟩⟩

theorem begun_apart (h : QueueSound w) {j : ℕ} {other : EmailDelivery}
    (hk : (w.deliveries ++ begun config (claimBatch config w.rows now skipped) owner batch now)[k]? = some delivery)
    (hj : (w.deliveries ++ begun config (claimBatch config w.rows now skipped) owner batch now)[j]? = some other)
    (hid : delivery.email.id = other.email.id) (hnumber : delivery.email.attempts = other.email.attempts) : k = j := by
  have hnew : ∀ {old : EmailDelivery} {row : EmailRow}, old ∈ w.deliveries →
      row ∈ claimBatch config w.rows now skipped → old.email.id = row.id →
      old.email.attempts < row.attempts + 1 := by
    intro old row hold hrow hsame
    obtain ⟨found, hfound, hfoundId, -, hle, -⟩ := h.delivery old hold
    have heq := h.keyed.eq hfound (mem_claimBatch hrow).1 (hfoundId.trans hsame)
    rw [heq] at hle
    exact Nat.lt_succ_of_le hle
  by_cases hkOld : k < w.deliveries.length
  · rw [List.getElem?_append_left hkOld] at hk
    by_cases hjOld : j < w.deliveries.length
    · rw [List.getElem?_append_left hjOld] at hj
      exact h.apart k j delivery other hk hj hid hnumber
    · rw [List.getElem?_append_right (Nat.le_of_not_lt hjOld)] at hj
      obtain ⟨row, hrow, rfl⟩ := begun_getElem hj
      have hlt := hnew (List.mem_of_getElem? hk) (List.mem_of_getElem? hrow) hid
      exact absurd hnumber (Nat.ne_of_lt hlt)
  · rw [List.getElem?_append_right (Nat.le_of_not_lt hkOld)] at hk
    obtain ⟨row, hrow, rfl⟩ := begun_getElem hk
    by_cases hjOld : j < w.deliveries.length
    · rw [List.getElem?_append_left hjOld] at hj
      have hlt := hnew (List.mem_of_getElem? hj) (List.mem_of_getElem? hrow) hid.symm
      exact absurd hnumber (Nat.ne_of_gt hlt)
    · rw [List.getElem?_append_right (Nat.le_of_not_lt hjOld)] at hj
      obtain ⟨row', hrow', rfl⟩ := begun_getElem hj
      have hids : ((claimBatch config w.rows now skipped).map EmailRow.id)[k - w.deliveries.length]? =
          ((claimBatch config w.rows now skipped).map EmailRow.id)[j - w.deliveries.length]? := by
        rw [List.getElem?_map, List.getElem?_map, hrow, hrow']
        exact congrArg some hid
      have hlength : k - w.deliveries.length < ((claimBatch config w.rows now skipped).map EmailRow.id).length := by
        rw [List.length_map]
        exact (List.getElem?_eq_some_iff.mp hrow).1
      have hsame := (List.getElem?_inj hlength (claimBatch_keyed h.keyed)).mp hids
      omega

theorem QueueSound.claims (h : QueueSound w) {more : List EmailDelivery} {workers : List WorkerState}
    (hmore : more = begun config (claimBatch config w.rows now skipped) owner batch now ∨ more = []) :
    QueueSound { w with
      rows := (claimEmails config w.rows owner now skipped).1
      workers := workers
      deliveries := w.deliveries ++ more
      claims := w.claims ++ (claimEmails config w.rows owner now skipped).2.map (·.id) } := by
  have hids : (claimEmails config w.rows owner now skipped).2.map (·.id) =
      (claimBatch config w.rows now skipped).map EmailRow.id := by
    unfold claimEmails
    rw [List.map_map]
    rfl
  rw [hids]
  constructor
  · refine h.keyed.map fun row => ?_
    split
    · rfl
    · rfl
  · intro later hlater
    obtain ⟨row, hrow, ⟨hbatch, rfl⟩ | ⟨-, rfl⟩⟩ := claimed_row h.keyed hlater
    · exact (h.row row hrow).taken (mem_claimBatch hbatch).2 owner _
    · exact h.row _ hrow
  · intro later hlater
    rw [List.count_append, count_batch h.keyed]
    obtain ⟨row, hrow, ⟨hbatch, rfl⟩ | ⟨hid, rfl⟩⟩ := claimed_row h.keyed hlater
    · have hid : (row.leased owner (now + config.leaseSeconds * 1000)).id ∈
          (claimBatch config w.rows now skipped).map EmailRow.id :=
        List.mem_map.mpr ⟨row, hbatch, rfl⟩
      rw [if_pos hid]
      exact congrArg (· + 1) (h.counted row hrow)
    · rw [if_neg hid]
      exact h.counted _ hrow
  · intro id hid
    rcases List.mem_append.mp hid with hold | hnew
    · obtain ⟨row, hrow, rfl⟩ := h.claimed id hold
      by_cases htaken : row.id ∈ (claimBatch config w.rows now skipped).map EmailRow.id
      · exact ⟨_, leased_mem (mem_claimBatch_of h.keyed hrow htaken), rfl⟩
      · exact ⟨row, unclaimed_mem hrow htaken, rfl⟩
    · obtain ⟨row, hrow, rfl⟩ := List.mem_map.mp hnew
      exact ⟨_, leased_mem hrow, rfl⟩
  · intro delivery hdelivery
    rcases List.mem_append.mp hdelivery with hold | hnew
    · exact (h.delivery delivery hold).afterClaim h.keyed
    · rcases hmore with rfl | rfl
      · exact begun_sound hnew
      · cases hnew
  · intro k j delivery other hk hj hid hnumber
    rcases hmore with rfl | rfl
    · exact begun_apart h hk hj hid hnumber
    · have hk' : w.deliveries[k]? = some delivery := List.append_nil w.deliveries ▸ hk
      have hj' : w.deliveries[j]? = some other := List.append_nil w.deliveries ▸ hj
      exact h.apart k j delivery other hk' hj' hid hnumber

theorem QueueSound.enqueued (h : QueueSound w) {input : EnqueueSystemEmailInput} {id : String}
    {maxAttempts : ℕ} (hnew : (w.row? id).isNone) (hpositive : 0 < maxAttempts) :
    QueueSound { w with rows := enqueueSystemEmail w.rows input id maxAttempts now } := by
  unfold enqueueSystemEmail
  have hnone : w.row? id = none := Option.isNone_iff_eq_none.mp hnew
  have hfresh : ∀ other ∈ w.rows, other.id ≠ id := fun other hother => lookup_none hnone hother
  split
  · exact h
  · constructor
    · exact h.keyed.concat fun other hother => hfresh other hother
    · intro row hrow
      rcases List.mem_append.mp hrow with hold | hadded
      · exact h.row row hold
      · rw [List.mem_singleton.mp hadded]
        exact ⟨fun _ => ⟨rfl, rfl⟩, nofun, Nat.zero_le _, fun _ => hpositive, fun _ => rfl⟩
    · intro row hrow
      rcases List.mem_append.mp hrow with hold | hadded
      · exact h.counted row hold
      · rw [List.mem_singleton.mp hadded]
        refine (List.count_eq_zero_of_not_mem fun hclaimed => ?_).symm
        obtain ⟨other, hother, hsame⟩ := h.claimed _ hclaimed
        exact hfresh other hother hsame
    · intro other hclaimed
      obtain ⟨row, hrow, hid⟩ := h.claimed other hclaimed
      exact ⟨row, List.mem_append_left _ hrow, hid⟩
    · intro delivery hdelivery
      obtain ⟨row, hrow, hall⟩ := h.delivery delivery hdelivery
      exact ⟨row, List.mem_append_left _ hrow, hall⟩
    · exact h.apart

end Claims

/-! ## One step -/

section Steps
variable {config : EmailWorkerConfig} {w w' : EmailWorld} {action : EmailAction}

variable {row : EmailRow}

theorem failureSound (h : QueueSound w) {delivery : EmailDelivery} (hdelivery : delivery ∈ w.deliveries)
    {kind : SmtpFailureKind} {readAt : ℕ} {random : ℚ} (hrow : row ∈ w.rows) (hid : row.id = delivery.email.id)
    (hheld : row.heldBy delivery) : (failureChange config delivery.email kind readAt random row).Sound := by
  have hsound := h.row row hrow
  have hsending : row.status = .sending := by
    by_contra hother
    rw [EmailRow.heldBy, (hsound.unleased hother).1] at hheld
    exact absurd hheld.1 nofun
  obtain ⟨found, hfound, hfoundId, hmax, -⟩ := h.delivery delivery hdelivery
  rw [← h.keyed.eq hrow hfound (hid.trans hfoundId.symm)] at hmax
  exact hsound.failed hsending hheld.2 hmax

theorem QueueSound.step (h : QueueSound w) (horderly : orderly w action = true)
    (hstep : emailStep config w action = some w') : QueueSound w' := by
  cases action with
  | wait milliseconds =>
    cases hstep
    exact h.unwritten (Nat.le_add_right _ _) rfl rfl fun _ later hlater => ⟨later, hlater, .refl later⟩
  | enqueue input id maxAttempts readAt =>
    obtain ⟨⟨hnew, hpositive, -⟩, rfl⟩ := guarded_some hstep
    exact h.enqueued hnew hpositive
  | start owner =>
    obtain ⟨-, rfl⟩ := guarded_some hstep
    exact h.unwritten (Nat.le_refl _) rfl rfl fun _ later hlater => ⟨later, hlater, .refl later⟩
  | crash owner =>
    cases hstep
    refine h.unwritten (Nat.le_refl _) rfl rfl fun k later hlater => ?_
    rw [List.getElem?_map] at hlater
    obtain ⟨delivery, hdelivery, rfl⟩ := Option.map_eq_some_iff.mp hlater
    refine ⟨delivery, hdelivery, ?_⟩
    split
    · exact ⟨rfl, rfl, rfl, nofun⟩
    · exact .refl delivery
  | recover readAt =>
    obtain ⟨hread, rfl⟩ := guarded_some hstep
    refine h.recovered hread fun row hrow hexpired => ?_
    have hall := List.all_eq_true.mp horderly row hrow
    exact of_decide_eq_true hall hexpired
  | claim owner readAt skipped answered =>
    obtain ⟨worker, -, hnext⟩ := Option.bind_eq_some_iff.mp hstep
    obtain ⟨-, rfl⟩ := guarded_some hnext
    cases answered with
    | true => exact h.claims (.inl rfl)
    | false =>
      have hmore : [] = begun config (claimBatch config w.rows readAt skipped) owner (worker.batch + 1) readAt ∨
          ([] : List EmailDelivery) = [] := .inr rfl
      exact h.claims hmore
  | sent k statement kind =>
    obtain ⟨delivery, hdelivery, hnext⟩ := Option.bind_eq_some_iff.mp hstep
    obtain ⟨-, rfl⟩ := guarded_some hnext
    have hstage : (if statement = .answered then DeliveryStage.ended else .failing kind) ≠ .delivering := by
      split
      · nofun
      · nofun
    by_cases hfailed : statement = .failed
    · rw [if_pos hfailed]
      refine h.unwritten (Nat.le_refl _) rfl rfl fun j later hlater => ?_
      obtain ⟨before, hbefore, hfollows, -⟩ := stand_follows hdelivery hstage hlater
      exact ⟨before, hbefore, hfollows⟩
    · rw [if_neg hfailed]
      exact h.updated hdelivery ((of_decide_eq_true horderly).resolve_left hfailed) hstage
        (fun _ => ⟨rfl, rfl, rfl⟩) fun row hrow _ _ => (h.row row hrow).wasSent
  | fails k kind =>
    obtain ⟨delivery, hdelivery, hnext⟩ := Option.bind_eq_some_iff.mp hstep
    obtain ⟨-, rfl⟩ := guarded_some hnext
    refine h.unwritten (Nat.le_refl _) rfl rfl fun j later hlater => ?_
    have hstage : DeliveryStage.failing kind ≠ .delivering := nofun
    obtain ⟨before, hbefore, hfollows, -⟩ := stand_follows hdelivery hstage hlater
    exact ⟨before, hbefore, hfollows⟩
  | close k readAt random statement =>
    obtain ⟨delivery, hdelivery, hnext⟩ := Option.bind_eq_some_iff.mp hstep
    split at hnext
    · rename_i kind _
      obtain ⟨-, rfl⟩ := guarded_some hnext
      by_cases hfailed : statement = .failed
      · rw [if_pos hfailed]
        refine h.unwritten (Nat.le_refl _) rfl rfl fun j later hlater => ?_
        have hstage : DeliveryStage.ended ≠ .delivering := nofun
        obtain ⟨before, hbefore, hfollows, -⟩ := stand_follows hdelivery hstage hlater
        exact ⟨before, hbefore, hfollows⟩
      · rw [if_neg hfailed]
        exact h.updated hdelivery ((of_decide_eq_true horderly).resolve_left hfailed) nofun
          (fun _ => failureChange_keeps) fun row hrow hid hheld =>
            failureSound h (List.mem_of_getElem? hdelivery) hrow hid hheld
    · cases hnext
  | tickEnds owner =>
    obtain ⟨worker, -, hnext⟩ := Option.bind_eq_some_iff.mp hstep
    obtain ⟨-, rfl⟩ := guarded_some hnext
    exact h.unwritten (Nat.le_refl _) rfl rfl fun _ later hlater => ⟨later, hlater, .refl later⟩

/-! ## What is final, and who may write -/

theorem updateLeased_mem {rows : List EmailRow} {id owner : String} {change : EmailRow → EmailRow} (hrow : row ∈ rows)
    (hother : ¬ (row.id = id ∧ row.leaseOwner = some owner)) : row ∈ updateLeased rows id owner change :=
  List.mem_map.mpr ⟨row, hrow, if_neg hother⟩

theorem QueueSound.keepsFinal (h : QueueSound w) (hstep : emailStep config w action = some w') : w.KeepsFinal w' := by
  intro row hrow hfinal
  have hnot : row.status ≠ .sending ∧ row.status ≠ .queued ∧ row.status ≠ .retryWait := by
    rcases hfinal with hsent | hdead
    · rw [hsent]
      exact ⟨nofun, nofun, nofun⟩
    · rw [hdead]
      exact ⟨nofun, nofun, nofun⟩
  have hunleased := ((h.row row hrow).unleased hnot.1).1
  have hkept : ∀ {id owner : String} {change : EmailRow → EmailRow}, row ∈ updateLeased w.rows id owner change := by
    intro id owner change
    refine updateLeased_mem hrow fun hleased => ?_
    rw [hunleased] at hleased
    exact absurd hleased.2 nofun
  cases action with
  | wait milliseconds =>
    cases hstep
    exact hrow
  | enqueue input id maxAttempts readAt =>
    obtain ⟨-, rfl⟩ := guarded_some hstep
    show row ∈ enqueueSystemEmail w.rows input id maxAttempts readAt
    unfold enqueueSystemEmail
    split
    · exact hrow
    · exact List.mem_append_left _ hrow
  | start owner =>
    obtain ⟨-, rfl⟩ := guarded_some hstep
    exact hrow
  | crash owner =>
    cases hstep
    exact hrow
  | recover readAt =>
    obtain ⟨-, rfl⟩ := guarded_some hstep
    refine List.mem_map.mpr ⟨row, hrow, if_neg fun hexpired => ?_⟩
    exact hnot.1 (expired_cases hexpired).1
  | claim owner readAt skipped answered =>
    obtain ⟨worker, -, hnext⟩ := Option.bind_eq_some_iff.mp hstep
    obtain ⟨-, rfl⟩ := guarded_some hnext
    refine unclaimed_mem hrow fun htaken => ?_
    have hclaimable := (mem_claimBatch (mem_claimBatch_of h.keyed hrow htaken)).2
    exact (claimable_cases hclaimable).elim hnot.2.1 hnot.2.2
  | sent k statement kind =>
    obtain ⟨delivery, -, hnext⟩ := Option.bind_eq_some_iff.mp hstep
    obtain ⟨-, rfl⟩ := guarded_some hnext
    show row ∈ ite _ _ _
    split
    · exact hrow
    · exact hkept
  | fails k kind =>
    obtain ⟨delivery, -, hnext⟩ := Option.bind_eq_some_iff.mp hstep
    obtain ⟨-, rfl⟩ := guarded_some hnext
    exact hrow
  | close k readAt random statement =>
    obtain ⟨delivery, -, hnext⟩ := Option.bind_eq_some_iff.mp hstep
    split at hnext
    · obtain ⟨-, rfl⟩ := guarded_some hnext
      show row ∈ ite _ _ _
      split
      · exact hrow
      · exact hkept
    · cases hnext
  | tickEnds owner =>
    obtain ⟨worker, -, hnext⟩ := Option.bind_eq_some_iff.mp hstep
    obtain ⟨-, rfl⟩ := guarded_some hnext
    exact hrow

theorem fenced_step (horderly : orderly w action = true) (hstep : emailStep config w action = some w') :
    w.FencedBy action w' := by
  intro k delivery row hacts hdelivery hrow hid hheld
  have hkept : w.ownLease k = true → ∀ change, row ∈ updateLeased w.rows delivery.email.id delivery.owner change := by
    intro hown change
    refine updateLeased_mem hrow fun hleased => hheld ?_
    unfold EmailWorld.ownLease at hown
    rw [hdelivery, Option.all_some, List.all_eq_true] at hown
    exact ⟨hleased.2, of_decide_eq_true (hown row hrow) hleased⟩
  cases action with
  | sent j statement kind =>
    cases hacts
    obtain ⟨found, hfound, hnext⟩ := Option.bind_eq_some_iff.mp hstep
    obtain ⟨-, rfl⟩ := guarded_some hnext
    rw [hdelivery] at hfound
    cases hfound
    show row ∈ ite _ _ _
    split
    · exact hrow
    · rename_i hfailed
      exact hkept ((of_decide_eq_true horderly).resolve_left hfailed) _
  | fails j kind =>
    cases hacts
    obtain ⟨found, hfound, hnext⟩ := Option.bind_eq_some_iff.mp hstep
    obtain ⟨-, rfl⟩ := guarded_some hnext
    exact hrow
  | close j readAt random statement =>
    cases hacts
    obtain ⟨found, hfound, hnext⟩ := Option.bind_eq_some_iff.mp hstep
    rw [hdelivery] at hfound
    cases hfound
    split at hnext
    · obtain ⟨-, rfl⟩ := guarded_some hnext
      show row ∈ ite _ _ _
      split
      · exact hrow
      · rename_i hfailed
        exact hkept ((of_decide_eq_true horderly).resolve_left hfailed) _
    · cases hnext
  | wait milliseconds => cases hacts
  | enqueue input id maxAttempts readAt => cases hacts
  | start owner => cases hacts
  | crash owner => cases hacts
  | recover readAt => cases hacts
  | claim owner readAt skipped answered => cases hacts
  | tickEnds owner => cases hacts

/-! ## What can still be claimed -/

theorem QueueSound.staysClaimable (h : QueueSound w) : w.StaysClaimable config := by
  intro row hrow hopen
  have hsound := h.row row hrow
  have hpayload : row.payloadEncrypted.isSome := hsound.payload fun hsent => hopen (.inl hsent)
  by_cases hsending : row.status = .sending
  · obtain ⟨lease, hlease⟩ := Option.isSome_iff_exists.mp (hsound.leased hsending)
    have hruns : run (emailStep config) w [.wait (lease + 1), .recover (w.now + (lease + 1))] = some { w with
          now := w.now + (lease + 1), rows := recoverExpiredLeases w.rows (w.now + (lease + 1)) } := by
      rw [run, emailStep, Option.bind_some, run, emailStep, if_pos (Nat.le_refl _)]
      rfl
    refine ⟨_, _, row.recovered (w.now + (lease + 1)), hruns, ?_, rfl, ?_⟩
    · refine List.mem_map.mpr ⟨row, hrow, if_pos ?_⟩
      refine decide_eq_true ⟨hsending, ?_⟩
      rw [hlease]
      refine decide_eq_true ?_
      omega
    · exact decide_eq_true ⟨.inr rfl, Nat.le_refl _, rfl, hpayload⟩
  · have hwaiting : row.status = .queued ∨ row.status = .retryWait := by
      cases hstatus : row.status with
      | queued => exact .inl rfl
      | retryWait => exact .inr rfl
      | sending => exact absurd hstatus hsending
      | sent => exact absurd (.inl hstatus) hopen
      | dead => exact absurd (.inr hstatus) hopen
    refine ⟨[.wait row.availableAt], _, row, rfl, hrow, rfl, decide_eq_true ⟨hwaiting, ?_, ?_, hpayload⟩⟩
    · exact Nat.le_add_left _ _
    · rw [(hsound.unleased hsending).2]
      rfl

theorem QueueSound.oneHandsOver (h : QueueSound w) : w.OneHandsOver := by
  intro k j delivery other hk hj hdelivering hdelivering' hid hlive hlive'
  obtain ⟨row, hrow, hrowId, -, -, hheld⟩ := h.delivery delivery (List.mem_of_getElem? hk)
  obtain ⟨row', hrow', hrowId', -, -, hheld'⟩ := h.delivery other (List.mem_of_getElem? hj)
  have hsame := h.keyed.eq hrow hrow' (hrowId.trans (hid.trans hrowId'.symm))
  rcases hheld hdelivering with hexpired | ⟨-, hown, -⟩
  · omega
  · rcases hheld' hdelivering' with hexpired | ⟨-, hown', -⟩
    · omega
    · rw [← hsame] at hown'
      exact h.apart k j delivery other hk hj hid (hown.2.symm.trans hown'.2)

end Steps

/-! ## Whole runs -/

section Runs
variable {config : EmailWorkerConfig}

end Runs

/-! ## A last attempt that is lost -/

def mailConfig : EmailWorkerConfig := ⟨10, 120, 30, 21600⟩

def welcomeEmail : EnqueueSystemEmailInput := ⟨"welcome", "a@b.c", "sealed", none, none, none⟩

/-- A worker dies with the first attempt at an email, and another one recovers it. -/
def lostAttempt (maxAttempts : ℕ) : List EmailAction :=
  [.enqueue welcomeEmail "e1" maxAttempts 0, .start "w1", .claim "w1" 0 [] true, .crash "w1", .wait 120001,
    .start "w2", .recover 120001, .claim "w2" 120001 [] true]

end AvenOS.Checkout
