import AvenOS.Checkout.WebhookDeliveries

/-! # Attempts at a webhook delivery

Whoever claims a delivery gets its next attempt number, and has five minutes. The statements that end an
attempt do not say which attempt they belong to. -/
namespace AvenOS.Checkout
open LabelledRun

variable {Payload : Type}

/-! ## What is asked of the ledger -/

def HandlerStage.attempt : HandlerStage Payload → Option (ℕ × ℕ)
  | .working attempt since => some (attempt, since)
  | _ => none

namespace DeliveryLedger
variable (w : DeliveryLedger Payload)

def working (k : ℕ) (deliveryId : String) (attempt since : ℕ) : Prop :=
  ∃ handler, w.handlers[k]? = some handler ∧ handler.delivery.deliveryId = deliveryId ∧
    handler.stage.attempt = some (attempt, since)

def stateOf (deliveryId : String) : Option DeliveryState := (w.rows deliveryId).map (·.state)

def attemptsOf (deliveryId : String) : Option ℕ := (w.rows deliveryId).map (·.attemptCount)

def Exclusive : Prop :=
  ∀ k j deliveryId attempt since attempt' since', w.working k deliveryId attempt since →
    w.working j deliveryId attempt' since' → w.now ≤ since + attemptLease → w.now ≤ since' + attemptLease → k = j

/-- What has been processed stays so, and nobody works on it who was not working on it then. -/
def KeepsProcessed (w' : DeliveryLedger Payload) : Prop :=
  ∀ deliveryId, w.stateOf deliveryId = some .processed → w'.stateOf deliveryId = some .processed ∧
    w'.attemptsOf deliveryId = w.attemptsOf deliveryId ∧
    ∀ k attempt since, w'.working k deliveryId attempt since → w.working k deliveryId attempt since

/-- A handler whose delivery has been claimed again does not change its state. -/
def Fenced (action : DeliveryAction Payload) (w' : DeliveryLedger Payload) : Prop :=
  ∀ k act deliveryId attempt since latest, action = .act k act → w.working k deliveryId attempt since →
    w.attemptsOf deliveryId = some latest → attempt < latest → w'.stateOf deliveryId = w.stateOf deliveryId

end DeliveryLedger

section Claims
variable [DecidableEq Payload]

/-- The three properties, at every point of a run and for whatever follows it. -/
def LedgerKept (start : DeliveryLedger Payload) (actions : List (DeliveryAction Payload)) : Prop :=
  ∀ before after w w', actions = before ++ after → run deliveryStep start before = some w →
    run deliveryStep w after = some w' → w.Exclusive ∧ w.KeepsProcessed w' ∧
      ∀ action rest next, after = action :: rest → deliveryStep w action = some next → w.Fenced action next

def endsInTurn (w : DeliveryLedger Payload) : DeliveryAction Payload → Bool
  | .act k act =>
    (w.handlers[k]?).all fun handler =>
      match handler.stage, act with
      | .working attempt _, .processed =>
        (w.rows handler.delivery.deliveryId).all fun row =>
          row.attemptCount ≤ attempt ∨ row.state = .processed
      | .working attempt _, .failed _ =>
        (w.rows handler.delivery.deliveryId).all fun row => row.attemptCount ≤ attempt ∨ row.state = .failed
      | _, _ => true
  | _ => true

end Claims

/-! ## All that an act can do -/

section Acts
variable [DecidableEq Payload] {delivery : PolarWebhookDelivery Payload} {now : ℕ}
  {row row' : Option (DeliveryRow Payload)} {stage stage' : HandlerStage Payload} {act : HandlerAct}

theorem judge_reclaim {existing : Option (DeliveryRow Payload)} {staleBefore : ℕ}
    (h : delivery.judge existing now = .reclaim staleBefore) : staleBefore = now - attemptLease := by
  unfold PolarWebhookDelivery.judge at h
  cases existing with
  | none => cases h
  | some found =>
    dsimp only at h
    split at h
    · cases h
    · split at h
      · cases h
      · split at h
        · cases h
        · exact (ClaimVerdict.reclaim.inj h).symm

theorem advance_cases (h : delivery.advance now row stage act = some (row', stage')) :
    (row' = row ∧ stage'.attempt = none ∧
        ∀ staleBefore, stage' = .reclaiming staleBefore → staleBefore = now - attemptLease) ∨
      (row = none ∧ row' = some (delivery.inserted now) ∧ stage' = .working 1 now) ∨
      (∃ staleBefore existing, stage = .reclaiming staleBefore ∧ row = some existing ∧
        existing.reclaimable staleBefore = true ∧ row' = some (existing.reclaimed now) ∧
        stage' = .working (existing.attemptCount + 1) now) ∨
      (∃ attempt since, stage = .working attempt since ∧ act = .processed ∧ row' = row.map (·.processed now) ∧
        stage' = .ended (some .received)) ∨
      ∃ attempt since error, stage = .working attempt since ∧ act = .failed error ∧
        row' = row.map (·.failed error) ∧ stage' = .ended (some .failed) := by
  unfold PolarWebhookDelivery.advance at h
  split at h
  · split at h
    · cases h
      exact .inr (.inl ⟨rfl, rfl, rfl⟩)
    · cases h
      exact .inl ⟨rfl, rfl, nofun⟩
  · cases h
    exact .inl ⟨rfl, rfl, nofun⟩
  · split at h
    · cases h
      exact .inl ⟨rfl, rfl, nofun⟩
    · cases h
      exact .inl ⟨rfl, rfl, nofun⟩
    · cases h
      exact .inl ⟨rfl, rfl, nofun⟩
    · rename_i staleBefore hverdict
      cases h
      refine .inl ⟨rfl, rfl, fun s hs => ?_⟩
      cases hs
      exact judge_reclaim hverdict
  · split at h
    · cases h
      exact .inl ⟨rfl, rfl, nofun⟩
    · split at h
      · rename_i hreclaimable
        cases h
        exact .inr (.inr (.inl ⟨_, _, rfl, rfl, hreclaimable, rfl, rfl⟩))
      · cases h
        exact .inl ⟨rfl, rfl, nofun⟩
  · cases h
    exact .inr (.inr (.inr (.inl ⟨_, _, rfl, rfl, rfl, rfl⟩)))
  · cases h
    exact .inr (.inr (.inr (.inr ⟨_, _, _, rfl, rfl, rfl, rfl⟩)))
  · cases h
  · cases h
    exact .inl ⟨rfl, rfl, nofun⟩
  · cases h

omit [DecidableEq Payload] in
theorem reclaimable_cases {existing : DeliveryRow Payload} {staleBefore : ℕ}
    (h : existing.reclaimable staleBefore = true) (hstale : staleBefore ≤ now - attemptLease) :
    existing.state = .failed ∨ existing.state = .processing ∧ existing.lastAttemptAt + attemptLease < now := by
  rcases of_decide_eq_true h with hfailed | ⟨hprocessing, hbefore⟩
  · exact .inl hfailed
  · refine .inr ⟨hprocessing, ?_⟩
    omega

end Acts

/-! ## Attempts are told apart by their number -/

/-- What is known of a handler: the latest attempt finds the delivery in processing since its own claim, and
an earlier one has expired. -/
def HandlerSound (now : ℕ) (row : Option (DeliveryRow Payload)) : HandlerStage Payload → Prop
  | .working attempt since => ∃ found, row = some found ∧ attempt ≤ found.attemptCount ∧
      (attempt = found.attemptCount → since = found.lastAttemptAt ∧ found.state = .processing) ∧
      (attempt < found.attemptCount → since + attemptLease < now)
  | .reclaiming staleBefore => staleBefore ≤ now - attemptLease
  | _ => True

structure AttemptsSound (w : DeliveryLedger Payload) : Prop where
  handler : ∀ (k : ℕ) (handler : Handler Payload), w.handlers[k]? = some handler →
    HandlerSound w.now (w.rows handler.delivery.deliveryId) handler.stage
  apart : ∀ k j deliveryId attempt since since', w.working k deliveryId attempt since →
    w.working j deliveryId attempt since' → k = j

theorem attemptsSound_empty : AttemptsSound (DeliveryLedger.empty : DeliveryLedger Payload) := by
  refine ⟨fun k handler hhandler => ?_, fun k _ _ _ _ _ hworking _ => ?_⟩
  · cases hhandler
  · obtain ⟨handler, hhandler, -⟩ := hworking
    cases hhandler

section Sound
variable {w : DeliveryLedger Payload} {now : ℕ} {row : Option (DeliveryRow Payload)}
  {stage : HandlerStage Payload} {attempt since : ℕ}

theorem attempt_iff : stage.attempt = some (attempt, since) ↔ stage = .working attempt since := by
  cases stage <;> simp [HandlerStage.attempt]

theorem HandlerSound.later (h : HandlerSound now row stage) {later : ℕ} (hlater : now ≤ later) :
    HandlerSound later row stage := by
  cases stage with
  | working attempt since =>
    obtain ⟨found, hfound, hle, hlatest, hearlier⟩ := h
    refine ⟨found, hfound, hle, hlatest, fun hlt => ?_⟩
    have hexpired := hearlier hlt
    omega
  | reclaiming staleBefore =>
    have hstale : staleBefore ≤ now - attemptLease := h
    show staleBefore ≤ later - attemptLease
    omega
  | inserting => trivial
  | selecting => trivial
  | judging existing => trivial
  | ended answer => trivial

variable {deliveryId : String} {other : Handler Payload} {delivery : PolarWebhookDelivery Payload}
  {action : DeliveryAction Payload}

theorem AttemptsSound.working (h : AttemptsSound w) {k : ℕ} (hworking : w.working k deliveryId attempt since) :
    HandlerSound w.now (w.rows deliveryId) (.working attempt since) := by
  obtain ⟨handler, hhandler, rfl, hstage⟩ := hworking
  have hsound := h.handler k handler hhandler
  rw [attempt_iff.1 hstage] at hsound
  exact hsound

theorem AttemptsSound.exclusive (h : AttemptsSound w) : w.Exclusive := by
  intro k j deliveryId attempt since attempt' since' hk hj hlive hlive'
  obtain ⟨found, hfound, hle, -, hearlier⟩ := h.working hk
  obtain ⟨found', hfound', hle', -, hearlier'⟩ := h.working hj
  rw [hfound] at hfound'
  cases hfound'
  have hlatest : attempt = found.attemptCount := by
    by_contra hother
    have hexpired := hearlier (Nat.lt_of_le_of_ne hle hother)
    omega
  have hlatest' : attempt' = found.attemptCount := by
    by_contra hother
    have hexpired := hearlier' (Nat.lt_of_le_of_ne hle' hother)
    omega
  rw [hlatest'] at hj
  rw [hlatest] at hk
  exact h.apart k j deliveryId _ since since' hk hj

/-! ## One step -/

section Moved
variable {next : Option (DeliveryRow Payload)}

theorem HandlerSound.taken {existing : DeliveryRow Payload} (h : HandlerSound now (some existing) stage)
    (hfree : existing.state = .failed ∨ existing.state = .processing ∧ existing.lastAttemptAt + attemptLease < now) :
    HandlerSound now (some (existing.reclaimed now)) stage := by
  cases stage with
  | working attempt since =>
    obtain ⟨found, hfound, hle, hlatest, hearlier⟩ := h
    cases hfound
    refine ⟨_, rfl, Nat.le_succ_of_le hle, fun hsame => ?_, fun _ => ?_⟩
    · have hcount : (existing.reclaimed now).attemptCount = existing.attemptCount + 1 := rfl
      omega
    · rcases Nat.lt_or_eq_of_le hle with hlt | hsame
      · exact hearlier hlt
      · obtain ⟨hsince, hprocessing⟩ := hlatest hsame
        rcases hfree with hfailed | ⟨-, hexpired⟩
        · rw [hprocessing] at hfailed
          cases hfailed
        · rw [hsince]
          exact hexpired
  | reclaiming staleBefore => exact h
  | inserting => trivial
  | selecting => trivial
  | judging existing => trivial
  | ended answer => trivial

theorem HandlerSound.ended {existing ended : DeliveryRow Payload} (h : HandlerSound now (some existing) stage)
    (hcount : ended.attemptCount = existing.attemptCount) (hwhen : ended.lastAttemptAt = existing.lastAttemptAt)
    (hstate : ended.state = existing.state ∨ ∀ since, stage ≠ .working existing.attemptCount since) :
    HandlerSound now (some ended) stage := by
  cases stage with
  | working attempt since =>
    obtain ⟨found, hfound, hle, hlatest, hearlier⟩ := h
    cases hfound
    refine ⟨_, rfl, hcount ▸ hle, fun hsame => ?_, fun hlt => hearlier (hcount ▸ hlt)⟩
    rw [hcount] at hsame
    rcases hstate with hstate | hother
    · rw [hwhen, hstate]
      exact hlatest hsame
    · exact absurd (hsame ▸ rfl) (hother since)
  | reclaiming staleBefore => exact h
  | inserting => trivial
  | selecting => trivial
  | judging existing => trivial
  | ended answer => trivial

end Moved

variable [DecidableEq Payload] {w' : DeliveryLedger Payload} {k j : ℕ} {act : HandlerAct}
  {handler : Handler Payload} {row' : Option (DeliveryRow Payload)} {stage' : HandlerStage Payload}

def DeliveryLedger.acted (w : DeliveryLedger Payload) (k : ℕ) (handler : Handler Payload)
    (row' : Option (DeliveryRow Payload)) (stage' : HandlerStage Payload) : DeliveryLedger Payload :=
  { w with
    rows := Function.update w.rows handler.delivery.deliveryId row'
    handlers := w.handlers.set k ⟨handler.delivery, stage'⟩ }

theorem act_cases (h : deliveryStep w (.act k act) = some w') : ∃ handler row' stage', w.handlers[k]? = some handler ∧
      handler.delivery.advance w.now (w.rows handler.delivery.deliveryId) handler.stage act =
        some (row', stage') ∧ w' = w.acted k handler row' stage' := by
  obtain ⟨handler, hhandler, hnext⟩ := Option.bind_eq_some_iff.mp h
  obtain ⟨⟨row', stage'⟩, hadvance, hw'⟩ := Option.map_eq_some_iff.mp hnext
  exact ⟨handler, row', stage', hhandler, hadvance, hw'.symm⟩

omit [DecidableEq Payload] in
theorem acted_handlers (hhandler : w.handlers[k]? = some handler)
    (hother : (w.acted k handler row' stage').handlers[j]? = some other) :
    j = k ∧ other = ⟨handler.delivery, stage'⟩ ∨ j ≠ k ∧ w.handlers[j]? = some other := by
  have hk : k < w.handlers.length := (List.getElem?_eq_some_iff.mp hhandler).1
  have hset : (w.handlers.set k ⟨handler.delivery, stage'⟩)[j]? = some other := hother
  rw [List.getElem?_set] at hset
  by_cases hj : k = j
  · rw [if_pos hj, if_pos hk] at hset
    exact .inl ⟨hj.symm, (Option.some.inj hset).symm⟩
  · rw [if_neg hj] at hset
    exact .inr ⟨fun hsame => hj hsame.symm, hset⟩

omit [DecidableEq Payload] in
theorem acted_working (hhandler : w.handlers[k]? = some handler)
    (h : (w.acted k handler row' stage').working j deliveryId attempt since) :
    (j = k ∧ handler.delivery.deliveryId = deliveryId ∧ stage' = .working attempt since) ∨
      j ≠ k ∧ w.working j deliveryId attempt since := by
  obtain ⟨other, hother, hid, hstage⟩ := h
  rcases acted_handlers hhandler hother with ⟨hj, rfl⟩ | ⟨hj, hsame⟩
  · exact .inl ⟨hj, hid, attempt_iff.1 hstage⟩
  · exact .inr ⟨hj, other, hsame, hid, hstage⟩

omit [DecidableEq Payload] in
theorem working_of (hhandler : w.handlers[k]? = some handler) (hstage : handler.stage = .working attempt since) :
    w.working k handler.delivery.deliveryId attempt since :=
  ⟨handler, hhandler, rfl, attempt_iff.2 hstage⟩

theorem AttemptsSound.others (h : AttemptsSound w) (hhandler : w.handlers[k]? = some handler)
    (hadvance : handler.delivery.advance w.now (w.rows handler.delivery.deliveryId) handler.stage act =
      some (row', stage')) (hturn : endsInTurn w (.act k act) = true) (hj : j ≠ k)
    (hother : w.handlers[j]? = some other) (hid : other.delivery.deliveryId = handler.delivery.deliveryId) :
    HandlerSound w.now row' other.stage := by
  have hsound := h.handler j other hother
  rw [hid] at hsound
  have hown := h.handler k handler hhandler
  have hlatest : ∀ attempt since since', handler.stage = .working attempt since →
      other.stage ≠ .working attempt since' := by
    intro attempt since since' hstage hsame
    have hworking := working_of hother hsame
    rw [hid] at hworking
    exact hj (h.apart j k _ attempt since' since hworking (working_of hhandler hstage))
  unfold endsInTurn at hturn
  simp only [hhandler, Option.all_some] at hturn
  obtain ⟨rfl, -, -⟩ | ⟨hnone, rfl, -⟩ | ⟨staleBefore, existing, hstage, hrow, hreclaimable, rfl, -⟩ |
    ⟨attempt, since, hstage, rfl, rfl, -⟩ | ⟨attempt, since, error, hstage, rfl, rfl, -⟩ := advance_cases hadvance
  · exact hsound
  · rw [hnone] at hsound
    generalize other.stage = stage at hsound
    cases stage with
    | working attempt since =>
      obtain ⟨found, hfound, -⟩ := hsound
      cases hfound
    | reclaiming staleBefore => exact hsound
    | inserting => trivial
    | selecting => trivial
    | judging existing => trivial
    | ended answer => trivial
  · rw [hrow] at hsound
    rw [hstage] at hown
    exact hsound.taken (reclaimable_cases hreclaimable hown)
  · rw [hstage] at hown hturn
    obtain ⟨found, hfound, hle, -, -⟩ := hown
    rw [hfound] at hsound hturn ⊢
    refine hsound.ended rfl rfl ?_
    rcases of_decide_eq_true hturn with hcurrent | hdone
    · rw [Nat.le_antisymm hcurrent hle]
      exact .inr fun since' => hlatest attempt since since' hstage
    · exact .inl hdone.symm
  · rw [hstage] at hown hturn
    obtain ⟨found, hfound, hle, -, -⟩ := hown
    rw [hfound] at hsound hturn ⊢
    refine hsound.ended rfl rfl ?_
    rcases of_decide_eq_true hturn with hcurrent | hdone
    · rw [Nat.le_antisymm hcurrent hle]
      exact .inr fun since' => hlatest attempt since since' hstage
    · exact .inl hdone.symm

theorem AttemptsSound.own (h : AttemptsSound w)
    (hadvance : handler.delivery.advance w.now (w.rows handler.delivery.deliveryId) handler.stage act =
      some (row', stage')) :
    HandlerSound w.now row' stage' ∧ ∀ attempt since since', stage' = .working attempt since →
      ¬ w.working j handler.delivery.deliveryId attempt since' := by
  obtain ⟨rfl, hidle, hreclaiming⟩ | ⟨hnone, rfl, rfl⟩ | ⟨staleBefore, existing, hstage, hrow, hreclaimable, rfl, rfl⟩ |
    ⟨attempt, since, hstage, rfl, rfl, rfl⟩ | ⟨attempt, since, error, hstage, rfl, rfl, rfl⟩ := advance_cases hadvance
  · refine ⟨?_, fun attempt since since' hworking => ?_⟩
    · cases stage' with
      | working attempt since => cases hidle
      | reclaiming staleBefore => exact Nat.le_of_eq (hreclaiming staleBefore rfl)
      | inserting => trivial
      | selecting => trivial
      | judging existing => trivial
      | ended answer => trivial
    · rw [hworking] at hidle
      cases hidle
  · refine ⟨⟨_, rfl, Nat.le_refl _, fun _ => ⟨rfl, rfl⟩, fun hlt => absurd hlt (Nat.lt_irrefl _)⟩, ?_⟩
    intro attempt since since' _ hworking
    obtain ⟨found, hfound, -⟩ := h.working hworking
    rw [hnone] at hfound
    cases hfound
  · refine ⟨⟨_, rfl, Nat.le_refl _, fun _ => ⟨rfl, rfl⟩, fun hlt => absurd hlt (Nat.lt_irrefl _)⟩, ?_⟩
    intro attempt since since' hsame hworking
    cases hsame
    obtain ⟨found, hfound, hle, -⟩ := h.working hworking
    rw [hrow] at hfound
    cases hfound
    omega
  · exact ⟨trivial, nofun⟩
  · exact ⟨trivial, nofun⟩

theorem AttemptsSound.acts (h : AttemptsSound w) (hturn : endsInTurn w (.act k act) = true)
    (hstep : deliveryStep w (.act k act) = some w') : AttemptsSound w' := by
  obtain ⟨handler, row', stage', hhandler, hadvance, rfl⟩ := act_cases hstep
  have hown := fun j => h.own (j := j) hadvance
  refine ⟨fun j other hother => ?_, fun i j deliveryId attempt since since' hi hj => ?_⟩
  · show HandlerSound w.now (Function.update w.rows handler.delivery.deliveryId row' _) other.stage
    rcases acted_handlers hhandler hother with ⟨rfl, rfl⟩ | ⟨hj, hsame⟩
    · rw [Function.update_self]
      exact (hown 0).1
    · by_cases hid : other.delivery.deliveryId = handler.delivery.deliveryId
      · rw [hid, Function.update_self]
        exact h.others hhandler hadvance hturn hj hsame hid
      · rw [Function.update_of_ne hid]
        exact h.handler j other hsame
  · rcases acted_working hhandler hi with ⟨rfl, hid, hstage⟩ | ⟨-, hbefore⟩
    · rcases acted_working hhandler hj with ⟨rfl, -, -⟩ | ⟨-, hbefore⟩
      · rfl
      · exact absurd (hid ▸ hbefore) ((hown j).2 attempt since since' hstage)
    · rcases acted_working hhandler hj with ⟨rfl, hid, hstage⟩ | ⟨-, hbefore'⟩
      · exact absurd (hid ▸ hbefore) ((hown i).2 attempt since' since hstage)
      · exact h.apart i j deliveryId attempt since since' hbefore hbefore'

omit [DecidableEq Payload] in
theorem received_handlers (h : (w.handlers ++ [⟨delivery, .inserting⟩])[j]? = some other) :
    w.handlers[j]? = some other ∨ other = ⟨delivery, .inserting⟩ := by
  by_cases hj : j < w.handlers.length
  · rw [List.getElem?_append_left hj] at h
    exact .inl h
  · rw [List.getElem?_append_right (Nat.le_of_not_lt hj)] at h
    exact .inr (List.mem_singleton.mp (List.mem_of_getElem? h))

omit [DecidableEq Payload] in
theorem received_working
    (h : DeliveryLedger.working { w with handlers := w.handlers ++ [⟨delivery, .inserting⟩] } j deliveryId attempt
      since) : w.working j deliveryId attempt since := by
  obtain ⟨other, hother, hid, hstage⟩ := h
  rcases received_handlers hother with hsame | rfl
  · exact ⟨other, hsame, hid, hstage⟩
  · cases hstage

theorem AttemptsSound.step (h : AttemptsSound w) (hturn : endsInTurn w action = true)
    (hstep : deliveryStep w action = some w') : AttemptsSound w' := by
  cases action with
  | wait milliseconds =>
    cases hstep
    exact ⟨fun j other hother => (h.handler j other hother).later (Nat.le_add_right _ _), h.apart⟩
  | receive delivery =>
    cases hstep
    refine ⟨fun j other hother => ?_, fun i j deliveryId attempt since since' hi hj => ?_⟩
    · rcases received_handlers hother with hsame | rfl
      · exact h.handler j other hsame
      · trivial
    · exact h.apart i j deliveryId attempt since since' (received_working hi) (received_working hj)
  | act k act => exact h.acts hturn hstep

/-! ## What has been processed -/

theorem AttemptsSound.keepsProcessed (h : AttemptsSound w) (hturn : endsInTurn w action = true)
    (hstep : deliveryStep w action = some w') : w.KeepsProcessed w' := by
  intro deliveryId hprocessed
  cases action with
  | wait milliseconds =>
    cases hstep
    exact ⟨hprocessed, rfl, fun _ _ _ hworking => hworking⟩
  | receive delivery =>
    cases hstep
    exact ⟨hprocessed, rfl, fun _ _ _ hworking => received_working hworking⟩
  | act k act =>
    obtain ⟨handler, row', stage', hhandler, hadvance, rfl⟩ := act_cases hstep
    by_cases hid : deliveryId = handler.delivery.deliveryId
    · subst hid
      have hkept : row'.map (·.state) = some .processed ∧
          row'.map (·.attemptCount) = w.attemptsOf handler.delivery.deliveryId ∧
          stage'.attempt = none := by
        unfold endsInTurn at hturn
        simp only [hhandler, Option.all_some] at hturn
        unfold DeliveryLedger.stateOf at hprocessed
        unfold DeliveryLedger.attemptsOf
        obtain ⟨rfl, hidle, -⟩ | ⟨hnone, rfl, -⟩ | ⟨staleBefore, existing, hstage, hrow, hreclaimable, rfl, -⟩ |
          ⟨attempt, since, hstage, rfl, rfl, rfl⟩ | ⟨attempt, since, error, hstage, rfl, rfl, rfl⟩ :=
            advance_cases hadvance
        · exact ⟨hprocessed, rfl, hidle⟩
        · rw [hnone] at hprocessed
          cases hprocessed
        · rw [hrow] at hprocessed
          have hstate : existing.state = .processed := Option.some.inj hprocessed
          rcases of_decide_eq_true hreclaimable with hfailed | ⟨hprocessing, -⟩
          · rw [hstate] at hfailed
            cases hfailed
          · rw [hstate] at hprocessing
            cases hprocessing
        · obtain ⟨found, hfound, -⟩ := h.working (working_of hhandler hstage)
          rw [hfound]
          exact ⟨rfl, rfl, rfl⟩
        · obtain ⟨found, hfound, hle, hlatest, -⟩ := h.working (working_of hhandler hstage)
          rw [hstage, hfound] at hturn
          rw [hfound] at hprocessed
          have hstate : found.state = .processed := Option.some.inj hprocessed
          rcases of_decide_eq_true hturn with hcurrent | hfailed
          · rw [(hlatest (Nat.le_antisymm hle hcurrent)).2] at hstate
            cases hstate
          · rw [hstate] at hfailed
            cases hfailed
      refine ⟨?_, ?_, fun j attempt since hworking => ?_⟩
      · show (Function.update w.rows _ row' _).map (·.state) = _
        rw [Function.update_self]
        exact hkept.1
      · show (Function.update w.rows _ row' _).map (·.attemptCount) = _
        rw [Function.update_self]
        exact hkept.2.1
      · rcases acted_working hhandler hworking with ⟨-, -, hstage⟩ | ⟨-, hbefore⟩
        · rw [hstage] at hkept
          exact absurd hkept.2.2 nofun
        · exact hbefore
    · refine ⟨?_, ?_, fun j attempt since hworking => ?_⟩
      · show (Function.update w.rows _ row' _).map (·.state) = _
        rw [Function.update_of_ne hid]
        exact hprocessed
      · show (Function.update w.rows _ row' _).map (·.attemptCount) = _
        rw [Function.update_of_ne hid]
        rfl
      · rcases acted_working hhandler hworking with ⟨-, hsame, -⟩ | ⟨-, hbefore⟩
        · exact absurd hsame.symm hid
        · exact hbefore

omit [DecidableEq Payload] in
theorem DeliveryLedger.KeepsProcessed.trans {w'' : DeliveryLedger Payload} (h : w.KeepsProcessed w')
    (h' : w'.KeepsProcessed w'') : w.KeepsProcessed w'' := by
  intro deliveryId hprocessed
  obtain ⟨hstate, hattempts, hworking⟩ := h deliveryId hprocessed
  obtain ⟨hstate', hattempts', hworking'⟩ := h' deliveryId hstate
  exact ⟨hstate', hattempts'.trans hattempts, fun k attempt since hk =>
    hworking k attempt since (hworking' k attempt since hk)⟩

theorem overtaken_fenced (hturn : endsInTurn w action = true) (hstep : deliveryStep w action = some w') :
    w.Fenced action w' := by
  rintro k act _ attempt since latest rfl ⟨handler, hhandler, rfl, hstage⟩ hlatest hovertaken
  obtain ⟨found, row', stage', hfound, hadvance, rfl⟩ := act_cases hstep
  rw [hhandler] at hfound
  cases hfound
  have hworking := attempt_iff.1 hstage
  show (Function.update w.rows _ row' _).map (·.state) = (w.rows _).map (·.state)
  rw [Function.update_self]
  unfold endsInTurn at hturn
  simp only [hhandler, Option.all_some] at hturn
  unfold DeliveryLedger.attemptsOf at hlatest
  obtain ⟨existing, hexisting, hcount⟩ := Option.map_eq_some_iff.mp hlatest
  obtain ⟨rfl, -, -⟩ | ⟨hnone, -, -⟩ | ⟨staleBefore, _, hstage', -⟩ |
    ⟨attempt', since', hstage', rfl, rfl, -⟩ | ⟨attempt', since', error, hstage', rfl, rfl, -⟩ := advance_cases hadvance
  · rfl
  · rw [hexisting] at hnone
    cases hnone
  · rw [hworking] at hstage'
    cases hstage'
  · rw [hworking, hexisting] at hturn
    rw [hexisting]
    rcases of_decide_eq_true hturn with hcurrent | hdone
    · omega
    · exact congrArg some hdone.symm
  · rw [hworking, hexisting] at hturn
    rw [hexisting]
    rcases of_decide_eq_true hturn with hcurrent | hdone
    · omega
    · exact congrArg some hdone.symm

end Sound

/-! ## Whole runs -/

section Runs
variable [DecidableEq Payload]

end Runs

/-! ## An attempt that comes back -/

def paidDelivery : PolarWebhookDelivery String := ⟨"wh_1", some "evt_1", "order.paid", "paid", []⟩

/-- A second handler takes an expired attempt over. -/
def takenOver : List (DeliveryAction String) :=
  [.receive paidDelivery, .act 0 .insert, .wait 300001, .receive paidDelivery, .act 1 .insert, .act 1 .select,
    .act 1 .judge, .act 1 .reclaim]

end AvenOS.Checkout
