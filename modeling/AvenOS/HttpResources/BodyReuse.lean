import AvenOS.HttpResources.CredentialSecrecy

/-! # Bodies that are reused

An answer that says "not modified" lets the call return the body of its candidate. The branch asks only whether there
is a candidate; whether the exchange asked about that candidate depends on where the redirects have led. -/
namespace AvenOS.HttpResources
open Actors LabelledRun ExceptLoop

section Reuse
variable (call : Acquisition)

structure Answered (vault : VaultState) (actions : List Action) (reached : World) (task : Task) (round : Round)
    (made : Exchange) (exchange : HttpTransportExchange) (capturedAt : String) : Prop where
  splits : ∃ before after, actions = before ++ .answered exchange capturedAt :: after ∧
    run (step call) (World.start vault) before = some reached
  phase : reached.phase = .looping task round (.exchanging made)

/-- The exchange asked about the candidate: on its validator, at the URL of its body, in the partition of the lookup. -/
structure Asked (task : Task) (made : Exchange) (candidate : HttpResponseCandidate) : Prop where
  conditional : ∃ validators, conditionalValidators candidate.payload = some validators ∧ made.conditional = some validators
  url : made.request.url = candidate.payload.finalUrl
  partition : made.credential.map RequestScopedCredentialAttachment.credentialRef = task.credentialRef

/-- What the call may end with after an answer, where it ends with a body that exists. -/
def Reuses (phase : Phase) (artifactId sha256 : String) (length : ℕ) : Prop :=
  ∃ metadata used, phase = .finished (.ok (.capture metadata (.existing artifactId sha256 length) used))

/-- The candidate can be asked about, and the redirects have led to it with the credential of its partition. -/
structure Asking (task : Task) (round : Round) (made : Exchange) (candidate : HttpResponseCandidate) : Prop where
  validators : conditionalValidators candidate.payload ≠ none
  arrived : round.current.url = candidate.payload.finalUrl
  partition : made.credential.map RequestScopedCredentialAttachment.credentialRef = task.credentialRef

variable {call}

def Sent (phase : Phase) : Prop :=
  ∀ task round made, phase = .looping task round (.exchanging made) → ∃ resolution, made = exchangeOf task round resolution

variable {vault : VaultState} {artifactId sha256 : String} {length : ℕ}

variable {action : Action} {phase next : Phase} {actions : List Action} {world : World}

theorem moves_sent (hmoves : Moves call vault action phase next) : Sent next := by
  intro task round made hnext
  cases hmoves with
  | entered =>
    unfold entered at hnext
    split at hnext
    · cases hnext
    · split at hnext <;> cases hnext
  | found request answer matchedIn candidate =>
    cases candidate <;> rw [foundCandidate] at hnext <;> split at hnext <;> cases hnext
  | failed action phase error => cases hnext
  | authorized task round =>
    unfold authorizedRound at hnext
    split at hnext
    · split at hnext <;> cases hnext
    · cases hnext
  | resolved task round answer chosenIn =>
    unfold resolvedRound at hnext
    split at hnext
    · split at hnext <;> cases hnext
    · cases hnext
  | answered task round made exchange capturedAt =>
    unfold answeredRound at hnext
    split at hnext
    · split at hnext
      · cases hnext
      · split at hnext
        · cases hnext
        · unfold followed at hnext
          split at hnext <;> cases hnext
    · split at hnext
      · split at hnext <;> cases hnext
      · cases hnext

theorem sent_run (hrun : run (step call) (World.start vault) actions = some world) : Sent world.phase := by
  refine run_invariant (I := fun world => Sent world.phase) (P := fun _ => True) (fun world action next _ h hstep => ?_)
    (fun _ _ => trivial) (fun _ _ _ h => by cases h) hrun
  cases step_cases hstep with
  | administered change => exact h
  | moved hmoves => exact moves_sent hmoves
  | sent task round resolution hattaching =>
    intro other otherRound made hmade
    cases hmade
    exact ⟨resolution, rfl⟩

theorem reuses_iff {task : Task} {round : Round} {made : Exchange} {exchange : HttpTransportExchange}
    {capturedAt : String} :
    Reuses (answeredRound call vault task round made exchange capturedAt) artifactId sha256 length ↔
      exchange.status = 304 ∧ ∃ candidate, task.candidate = some candidate ∧ artifactId = candidate.artifactId ∧
        sha256 = candidate.bodySha256 ∧ length = candidate.bodyLength := by
  unfold answeredRound
  constructor
  · rintro ⟨metadata, used, h⟩
    split at h
    · split at h
      · cases h
      · split at h
        · cases h
        · unfold followed at h
          split at h <;> cases h
    · split at h
      · rename_i hstatus
        split at h
        · cases h
        · rename_i candidate hcandidate
          cases h
          exact ⟨hstatus, candidate, hcandidate, rfl, rfl, rfl⟩
      · cases h
  · rintro ⟨hstatus, candidate, hcandidate, rfl, rfl, rfl⟩
    have hredirect : ¬ (isRedirect exchange.status = true ∧ task.request.redirects.mode = .follow) := fun h => by
      rw [hstatus] at h
      exact absurd h.1 (by decide)
    rw [if_neg hredirect, if_pos hstatus, hcandidate]
    exact ⟨_, _, rfl⟩

theorem moves_reuses (hmoves : Moves call vault action phase next) (h : Reuses next artifactId sha256 length) :
    ∃ task round made exchange capturedAt, action = .answered exchange capturedAt ∧
      phase = .looping task round (.exchanging made) ∧
      next = answeredRound call vault task round made exchange capturedAt := by
  obtain ⟨metadata, used, hnext⟩ := h
  cases hmoves with
  | entered =>
    unfold entered at hnext
    split at hnext
    · cases hnext
    · split at hnext <;> cases hnext
  | found request answer matchedIn candidate =>
    cases candidate <;> rw [foundCandidate] at hnext <;> split at hnext <;> cases hnext
  | failed action phase error => cases hnext
  | authorized task round =>
    unfold authorizedRound at hnext
    split at hnext
    · split at hnext <;> cases hnext
    · cases hnext
  | resolved task round answer chosenIn =>
    unfold resolvedRound at hnext
    split at hnext
    · split at hnext <;> cases hnext
    · cases hnext
  | answered task round made exchange capturedAt => exact ⟨task, round, made, exchange, capturedAt, rfl, rfl, rfl⟩

theorem reuses_answered (hrun : run (step call) (World.start vault) actions = some world)
    (h : Reuses world.phase artifactId sha256 length) : ∃ reached task round made exchange capturedAt,
      Answered call vault actions reached task round made exchange capturedAt ∧
        Reuses (answeredRound call reached.vault task round made exchange capturedAt) artifactId sha256 length := by
  induction actions using List.reverseRecOn generalizing world with
  | nil =>
    cases hrun
    obtain ⟨_, _, hphase⟩ := h
    cases hphase
  | append_singleton actions action ih =>
    obtain ⟨reached, hreached, hstep⟩ := run_snoc hrun
    have hearlier : Reuses reached.phase artifactId sha256 length → ∃ reached task round made exchange capturedAt,
        Answered call vault (actions ++ [action]) reached task round made exchange capturedAt ∧
          Reuses (answeredRound call reached.vault task round made exchange capturedAt) artifactId sha256 length := by
      intro hbefore
      obtain ⟨first, task, round, made, exchange, capturedAt, ⟨⟨before, after, hsplit, hfirst⟩, hphase⟩, hreuses⟩ :=
        ih hreached hbefore
      exact ⟨first, task, round, made, exchange, capturedAt,
        ⟨⟨before, after ++ [action], by rw [hsplit, List.append_assoc, List.cons_append], hfirst⟩, hphase⟩, hreuses⟩
    cases step_cases hstep with
    | administered change => exact hearlier h
    | moved hmoves =>
      obtain ⟨task, round, made, exchange, capturedAt, rfl, hphase, hnext⟩ := moves_reuses hmoves h
      exact ⟨reached, task, round, made, exchange, capturedAt, ⟨⟨actions, [], rfl, hreached⟩, hphase⟩, hnext ▸ h⟩
    | sent task round resolution hattaching =>
      obtain ⟨_, _, hend⟩ := h
      cases hend

/-- Every body that is reused was asked about exactly where every answer 304 finds its exchange asking about the
candidate; no other answer reuses a body. -/
theorem bodies_reused (call : Acquisition) (vault : VaultState) (actions : List Action) (world : World)
    (hrun : run (step call) (World.start vault) actions = some world) :
    (∀ artifactId sha256 length, Reuses world.phase artifactId sha256 length →
      ∃ reached task round made exchange capturedAt, Answered call vault actions reached task round made exchange capturedAt ∧
        exchange.status = 304 ∧
        Reuses (answeredRound call reached.vault task round made exchange capturedAt) artifactId sha256 length) ∧
      ((∀ reached task round made exchange capturedAt,
          Answered call vault actions reached task round made exchange capturedAt → ∀ artifactId sha256 length,
            Reuses (answeredRound call reached.vault task round made exchange capturedAt) artifactId sha256 length →
              ∃ candidate, task.candidate = some candidate ∧ artifactId = candidate.artifactId ∧
                sha256 = candidate.bodySha256 ∧ length = candidate.bodyLength ∧ Asked task made candidate) ↔
        ∀ reached task round made exchange capturedAt,
          Answered call vault actions reached task round made exchange capturedAt → exchange.status = 304 →
            ∀ candidate, task.candidate = some candidate → Asking task round made candidate) := by
  refine ⟨fun artifactId sha256 length h => ?_, fun h => ?_, fun h => ?_⟩
  · obtain ⟨reached, task, round, made, exchange, capturedAt, hanswered, hreuses⟩ := reuses_answered hrun h
    exact ⟨reached, task, round, made, exchange, capturedAt, hanswered, (reuses_iff.1 hreuses).1, hreuses⟩
  · intro reached task round made exchange capturedAt hanswered hstatus candidate hcandidate
    obtain ⟨other, hother, _, _, _, hasked⟩ := h reached task round made exchange capturedAt hanswered _ _ _
      (reuses_iff.2 ⟨hstatus, candidate, hcandidate, rfl, rfl, rfl⟩)
    cases hcandidate.symm.trans hother
    obtain ⟨validators, hvalidators, _⟩ := hasked.conditional
    obtain ⟨_, _, _, hreached⟩ := hanswered.splits
    obtain ⟨resolution, rfl⟩ := sent_run hreached task round made hanswered.phase
    exact ⟨by rw [hvalidators]; exact Option.some_ne_none validators, hasked.url, hasked.partition⟩
  · intro reached task round made exchange capturedAt hanswered artifactId sha256 length hreuses
    obtain ⟨hstatus, candidate, hcandidate, hid, hsha, hlength⟩ := reuses_iff.1 hreuses
    have hasking := h reached task round made exchange capturedAt hanswered hstatus candidate hcandidate
    obtain ⟨validators, hvalidators⟩ := Option.ne_none_iff_exists'.mp hasking.validators
    obtain ⟨_, _, _, hreached⟩ := hanswered.splits
    obtain ⟨resolution, rfl⟩ := sent_run hreached task round made hanswered.phase
    refine ⟨candidate, hcandidate, hid, hsha, hlength, ⟨validators, hvalidators, ?_⟩, hasking.arrived, hasking.partition⟩
    show task.candidate.bind _ = some validators
    rw [hcandidate, Option.bind_some, if_pos hasking.arrived.symm, hvalidators]

end Reuse

namespace TwoHosts

def candidate (finalUrl : String) : HttpResponseCandidate where
  artifactId := "artifact"
  payload := ⟨"https://a.test/", finalUrl, 200, none, .new, none, none, none, none, some "tag", none, [], 0, "then"⟩
  bodySha256 := "digest"
  bodyLength := 4
  fresh := false

def redirect : Action := .answered ⟨302, [("location", "https://b.test/")], none⟩ "now"

def notModified : Action := .answered ⟨304, [], none⟩ "now"

/-- The candidate is asked about, and has not changed. -/
def revalidated : List Action := [.enter, .found (some (candidate "https://a.test/")), .authorized, .proceed]

/-- The first host leads to the second one. -/
def ledAway : List Action :=
  [.enter, .found (some (candidate "https://a.test/")), .authorized, .proceed, redirect, .authorized, .proceed]

/-- The second host holds the body, and has a credential of its own. -/
def ledToSecret : List Action :=
  [storeFirst, bindFirst "b.test", .enter, .found (some (candidate "https://b.test/")), .authorized, .proceed, redirect,
    .authorized, .proceed, .proceed]

def waiting (actions : List Action) : Option (Task × Round × Exchange) :=
  (run (step (call "mapped-if-present")) (World.start .empty) actions).bind fun world =>
    match world.phase with
    | .looping task round (.exchanging made) => some (task, round, made)
    | _ => none

theorem waiting_reached {actions : List Action} {task : Task} {round : Round} {made : Exchange}
    (h : waiting actions = some (task, round, made)) :
    ∃ reached, run (step (call "mapped-if-present")) (World.start .empty) actions = some reached ∧
      reached.phase = .looping task round (.exchanging made) := by
  obtain ⟨reached, hreached, hphase⟩ := Option.bind_eq_some_iff.mp h
  refine ⟨reached, hreached, ?_⟩
  split at hphase
  · rename_i hlooping
    cases hphase
    exact hlooping
  · cases hphase

end TwoHosts

theorem bodies_reused_revalidated : ∃ reached task round made candidate,
      Answered (TwoHosts.call "mapped-if-present") .empty (TwoHosts.revalidated ++ [TwoHosts.notModified]) reached task
          round made ⟨304, [], none⟩ "now" ∧
        Reuses (answeredRound (TwoHosts.call "mapped-if-present") reached.vault task round made ⟨304, [], none⟩ "now")
          "artifact" "digest" 4 ∧ Asked task made candidate := by
  have hwaiting : (TwoHosts.waiting TwoHosts.revalidated).any (fun (task, round, made) =>
      decide (task.candidate = some (TwoHosts.candidate "https://a.test/") ∧ round.current.url = "https://a.test/" ∧
        made.credential.map RequestScopedCredentialAttachment.credentialRef = task.credentialRef)) = true := by
    decide +kernel
  obtain ⟨⟨task, round, made⟩, hsome, hchecked⟩ := (Option.any_eq_true _ _).mp hwaiting
  obtain ⟨hcandidate, hurl, hpartition⟩ := of_decide_eq_true hchecked
  obtain ⟨reached, hreached, hphase⟩ := TwoHosts.waiting_reached hsome
  have hanswered : Answered (TwoHosts.call "mapped-if-present") .empty (TwoHosts.revalidated ++ [TwoHosts.notModified])
      reached task round made ⟨304, [], none⟩ "now" := ⟨⟨TwoHosts.revalidated, [], rfl, hreached⟩, hphase⟩
  have hrun : (run (step (TwoHosts.call "mapped-if-present")) (World.start .empty)
      (TwoHosts.revalidated ++ [TwoHosts.notModified])).isSome = true := by decide +kernel
  obtain ⟨world, hworld⟩ := Option.isSome_iff_exists.mp hrun
  have hreuses : Reuses (answeredRound (TwoHosts.call "mapped-if-present") reached.vault task round made
      ⟨304, [], none⟩ "now") "artifact" "digest" 4 := reuses_iff.2 ⟨rfl, _, hcandidate, rfl, rfl, rfl⟩
  obtain ⟨found, hfound, _, _, _, hasked⟩ := (bodies_reused (TwoHosts.call "mapped-if-present") .empty
    (TwoHosts.revalidated ++ [TwoHosts.notModified]) world hworld).2.mpr (by
      intro other otherTask otherRound otherMade exchange capturedAt hother _ found hfound
      obtain ⟨before, after, hsplit, hbefore⟩ := hother.splits
      have honly : before = TwoHosts.revalidated := by
        simp [TwoHosts.revalidated, TwoHosts.notModified, List.cons_eq_append_iff] at hsplit
        exact hsplit.1
      rw [honly, hreached] at hbefore
      cases hbefore
      have hsame := hphase.symm.trans hother.phase
      cases hsame
      cases hcandidate.symm.trans hfound
      exact ⟨by decide, hurl, hpartition⟩) reached task round made ⟨304, [], none⟩ "now" hanswered _ _ _ hreuses
  exact ⟨reached, task, round, made, found, hanswered, hreuses, hasked⟩

/-- The second host says "not modified" to a request that did not ask, or asked with a credential of its own. -/
theorem unasked_body_reused : (∃ reached task round made, Answered (TwoHosts.call "mapped-if-present") .empty
        (TwoHosts.ledAway ++ [TwoHosts.notModified]) reached task round made ⟨304, [], none⟩ "now" ∧
      Reuses (answeredRound (TwoHosts.call "mapped-if-present") reached.vault task round made ⟨304, [], none⟩ "now")
        "artifact" "digest" 4 ∧ made.conditional = none ∧ made.request.url = "https://b.test/" ∧
      ∀ candidate, task.candidate = some candidate → ¬ Asked task made candidate) ∧
      ∃ reached task round made, Answered (TwoHosts.call "mapped-if-present") .empty
          (TwoHosts.ledToSecret ++ [TwoHosts.notModified]) reached task round made ⟨304, [], none⟩ "now" ∧
        Reuses (answeredRound (TwoHosts.call "mapped-if-present") reached.vault task round made ⟨304, [], none⟩ "now")
          "artifact" "digest" 4 ∧ task.credentialRef = none ∧
        ∀ candidate, task.candidate = some candidate → ¬ Asked task made candidate := by
  constructor
  · have hwaiting : (TwoHosts.waiting TwoHosts.ledAway).any (fun (task, round, made) =>
        decide (task.candidate = some (TwoHosts.candidate "https://a.test/") ∧ made.conditional = none ∧
          made.request.url = "https://b.test/")) = true := by decide +kernel
    obtain ⟨⟨task, round, made⟩, hsome, hchecked⟩ := (Option.any_eq_true _ _).mp hwaiting
    obtain ⟨hcandidate, hconditional, hurl⟩ := of_decide_eq_true hchecked
    obtain ⟨reached, hreached, hphase⟩ := TwoHosts.waiting_reached hsome
    refine ⟨reached, task, round, made, ⟨⟨TwoHosts.ledAway, [], rfl, hreached⟩, hphase⟩,
      reuses_iff.2 ⟨rfl, _, hcandidate, rfl, rfl, rfl⟩, hconditional, hurl, fun candidate _ hasked => ?_⟩
    obtain ⟨validators, _, hsent⟩ := hasked.conditional
    cases hconditional.symm.trans hsent
  · have hwaiting : (TwoHosts.waiting TwoHosts.ledToSecret).any (fun (task, round, made) =>
        decide (task.candidate = some (TwoHosts.candidate "https://b.test/") ∧ task.credentialRef = none ∧
          made.credential.isSome = true)) = true := by decide +kernel
    obtain ⟨⟨task, round, made⟩, hsome, hchecked⟩ := (Option.any_eq_true _ _).mp hwaiting
    obtain ⟨hcandidate, hpartition, hcredential⟩ := of_decide_eq_true hchecked
    obtain ⟨reached, hreached, hphase⟩ := TwoHosts.waiting_reached hsome
    refine ⟨reached, task, round, made, ⟨⟨TwoHosts.ledToSecret, [], rfl, hreached⟩, hphase⟩,
      reuses_iff.2 ⟨rfl, _, hcandidate, rfl, rfl, rfl⟩, hpartition, fun candidate _ hasked => ?_⟩
    have hnone := hasked.partition.trans hpartition
    rw [Option.map_eq_none_iff] at hnone
    rw [hnone] at hcredential
    cases hcredential

end AvenOS.HttpResources
