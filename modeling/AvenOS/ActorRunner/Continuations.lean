import AvenOS.ActorRunner.RunLifecycle

/-! # Continuations

One continuation of a run can be answered at most: exactly one while the run waits, none once it has
succeeded. A result that is refused for its continuation or its unmet goals leaves all of them. -/
namespace AvenOS.ActorRunner
open Actors LabelledRun

/-! ## Lists of continuations -/

section Lists
variable {continuations : List PlanRunContinuation} {index position : ℕ}

def PendingIn (continuations : List PlanRunContinuation) (position : ℕ) : Prop :=
  ∃ continuation, continuations[position]? = some continuation ∧ continuation.pending = true

def ContinuationIds (continuations : List PlanRunContinuation) : List String :=
  continuations.map PlanRunContinuation.continuationId

theorem continuationIds_set_state (state : ContinuationState) :
    ContinuationIds (setContinuationState continuations index state) = ContinuationIds continuations := by
  refine List.ext_getElem? fun position => ?_
  simp only [ContinuationIds, setContinuationState, List.getElem?_map, List.getElem?_modify, Option.map_map]
  cases continuations[position]? with
  | none => rfl
  | some continuation => by_cases h : index = position <;> simp [h]

theorem setContinuationState_getElem? (state : ContinuationState) :
    (setContinuationState continuations index state)[position]? = continuations[position]?.map fun continuation =>
        if index = position then { continuation with state := state } else continuation := by
  simp only [setContinuationState, List.getElem?_modify]
  by_cases h : index = position <;> simp [h]

theorem pendingIn_resolved : PendingIn (setContinuationState continuations index .resolved) position ↔
      position ≠ index ∧ PendingIn continuations position := by
  unfold PendingIn
  rw [setContinuationState_getElem?]
  cases continuations[position]? with
  | none => simp
  | some continuation =>
    by_cases h : index = position
    · simp [h, PlanRunContinuation.pending]
    · simp [h, Ne.symm h]

theorem pendingIn_postponed (hpending : PendingIn continuations index) :
    PendingIn (setContinuationState continuations index .postponed) position ↔ PendingIn continuations position := by
  by_cases h : index = position
  · subst h
    obtain ⟨continuation, hat, hcan⟩ := hpending
    refine iff_of_true ?_ ⟨continuation, hat, hcan⟩
    refine ⟨{ continuation with state := .postponed }, ?_, by simp [PlanRunContinuation.pending]⟩
    rw [setContinuationState_getElem?, hat]
    simp
  · unfold PendingIn
    rw [setContinuationState_getElem?]
    simp [h]

def upsertPosition (continuations : List PlanRunContinuation) (continuation : PlanRunContinuation) :
    ℕ :=
  (continuations.findIdx? fun candidate =>
    candidate.continuationId == continuation.continuationId).getD continuations.length

theorem upsertContinuation_getElem? (continuation : PlanRunContinuation) :
    (upsertContinuation continuations continuation)[position]? =
      if position = upsertPosition continuations continuation then some continuation
      else continuations[position]? := by
  unfold upsertContinuation upsertPosition
  cases hfound : continuations.findIdx? fun candidate =>
      candidate.continuationId == continuation.continuationId with
  | none =>
    rcases Nat.lt_trichotomy position continuations.length with hlt | heq | hgt
    · simp [List.getElem?_append_left hlt, hlt.ne]
    · simp [heq]
    · rw [List.getElem?_eq_none (by simp; omega)]
      simp [hgt.ne', List.getElem?_eq_none (by omega : continuations.length ≤ position)]
  | some found =>
    obtain ⟨hlt, -, -⟩ := List.findIdx?_eq_some_iff_getElem.mp hfound
    by_cases h : position = found
    · simp [h, hlt]
    · simp [h, Ne.symm h]

variable {continuation : PlanRunContinuation}

theorem pendingIn_upsert (hopen : continuation.state = .«open») :
    PendingIn (upsertContinuation continuations continuation) position ↔
      position = upsertPosition continuations continuation ∨ PendingIn continuations position := by
  unfold PendingIn
  rw [upsertContinuation_getElem?]
  by_cases h : position = upsertPosition continuations continuation
  · simp [h, PlanRunContinuation.pending, hopen]
  · simp [h]

theorem continuationIds_upsert (hids : (ContinuationIds continuations).Nodup) :
    (ContinuationIds (upsertContinuation continuations continuation)).Nodup := by
  unfold upsertContinuation
  cases hfound : continuations.findIdx? fun candidate =>
      candidate.continuationId == continuation.continuationId with
  | none =>
    have habsent := List.findIdx?_eq_none_iff.mp hfound
    simp only [ContinuationIds, List.map_append, List.map_singleton]
    refine List.nodup_append.mpr ⟨hids, by simp, fun id hid other hother => ?_⟩
    obtain ⟨candidate, hcandidate, rfl⟩ := List.mem_map.mp hid
    rw [List.mem_singleton.mp hother]
    simpa using habsent candidate hcandidate
  | some found =>
    obtain ⟨hlt, hat, -⟩ := List.findIdx?_eq_some_iff_getElem.mp hfound
    have hsame : ContinuationIds (continuations.set found continuation) = ContinuationIds continuations := by
      refine List.ext_getElem? fun position => ?_
      simp only [ContinuationIds, List.map_set, List.getElem?_set, List.length_map]
      by_cases h : found = position
      · subst h
        simp [hlt, ← beq_iff_eq.mp hat]
      · simp [h]
    simp only [hsame]
    exact hids

theorem upsertPosition_of_mem {asked : PlanRunContinuation} (hids : (ContinuationIds continuations).Nodup)
    (hat : continuations[position]? = some asked) (hid : asked.continuationId = continuation.continuationId) :
    upsertPosition continuations continuation = position := by
  unfold upsertPosition
  obtain ⟨hlt, hasked⟩ := List.getElem?_eq_some_iff.mp hat
  cases hfound : continuations.findIdx? fun candidate =>
      candidate.continuationId == continuation.continuationId with
  | none =>
    have habsent := List.findIdx?_eq_none_iff.mp hfound asked (List.mem_of_getElem? hat)
    simp [hid] at habsent
  | some found =>
    obtain ⟨hlt', hat', -⟩ := List.findIdx?_eq_some_iff_getElem.mp hfound
    have hfoundLt : found < (ContinuationIds continuations).length := by simpa [ContinuationIds]
    have hpositionLt : position < (ContinuationIds continuations).length := by
      simpa [ContinuationIds]
    have hsame : (ContinuationIds continuations)[found] = (ContinuationIds continuations)[position] := by
      simp only [ContinuationIds, List.getElem_map, hasked, hid]
      exact beq_iff_eq.mp hat'
    exact (hids.getElem_inj_iff).mp hsame

end Lists

/-! ## Records -/

structure ContinuationsOk (record : PlanRunRecord) : Prop where
  ids : (ContinuationIds record.continuations).Nodup
  /-- One continuation can be answered at most. -/
  single : ∀ index other, PendingAt record index → PendingAt record other → index = other
  accepted : record.state = .accepted → record.continuations = []
  waiting : record.state = .waitingForInput → ∃! index, PendingAt record index
  succeeded : record.state = .succeeded → (∀ index, ¬ PendingAt record index) ∧
    ∃ earlier last, record.checkpoints = earlier ++ [last] ∧ last.remainingGoals = []

theorem newRecord_continuationsOk (request : PlanRunStartRequest) (runId now : String) :
    ContinuationsOk (newRecord request runId now) where
  ids := List.nodup_nil
  single := fun index _ hpending => by
    obtain ⟨_, hat, -⟩ := hpending
    simp [newRecord] at hat
  accepted := fun _ => rfl
  waiting := fun h => by cases h
  succeeded := fun h => by cases h

section Records
variable {record next : PlanRunRecord} {attempt : Attempt}

variable {resolved : Option ℕ} {continuations : List PlanRunContinuation} {result : PlanRunExecutionResult}

theorem resolveAnswered_ids {again : Option String} :
    ContinuationIds (resolveAnswered record resolved again) = ContinuationIds record.continuations := by
  unfold resolveAnswered
  cases resolved with
  | none => rfl
  | some index =>
    dsimp only
    split
    · rfl
    · exact continuationIds_set_state .resolved

theorem not_pending_answered (hok : ContinuationsOk record) (hanswers : Answers record attempt)
    (position : ℕ) : ¬ PendingIn (resolveAnswered record attempt.resolved none) position := by
  cases attempt with
  | accepted =>
    rintro ⟨continuation, hat, -⟩
    have hnone : record.continuations = [] := hok.accepted hanswers
    simp [Attempt.resolved, resolveAnswered, hnone] at hat
  | resumed index kind expectedRevision =>
    obtain ⟨-, continuation, hat, hcan⟩ := hanswers
    have hpending : PendingAt record index := ⟨continuation, hat, hcan⟩
    simp only [Attempt.resolved, resolveAnswered, hat, Option.map_some]
    rw [if_neg (by simp)]
    intro h
    obtain ⟨hne, hother⟩ := pendingIn_resolved.1 h
    exact hne (hok.single position index hother hpending)

theorem pending_asked (hok : ContinuationsOk record) (hanswers : Answers record attempt)
    {continuation : PlanRunContinuation} (hopen : continuation.state = .«open») (position : ℕ) :
    PendingIn (upsertContinuation
      (resolveAnswered record attempt.resolved (some continuation.continuationId)) continuation) position ↔
    position = upsertPosition
      (resolveAnswered record attempt.resolved (some continuation.continuationId)) continuation := by
  rw [pendingIn_upsert hopen]
  refine ⟨fun h => h.elim id fun hpending => ?_, .inl⟩
  cases attempt with
  | accepted =>
    have hnone : record.continuations = [] := hok.accepted hanswers
    obtain ⟨asked, hat, -⟩ := hpending
    simp [Attempt.resolved, resolveAnswered, hnone] at hat
  | resumed index kind expectedRevision =>
    obtain ⟨-, asked, hat, hcan⟩ := hanswers
    have hanswered : PendingAt record index := ⟨asked, hat, hcan⟩
    simp only [Attempt.resolved, resolveAnswered, hat, Option.map_some, Option.some.injEq] at hpending ⊢
    by_cases hid : asked.continuationId = continuation.continuationId
    · rw [if_pos hid] at hpending ⊢
      rw [upsertPosition_of_mem hok.ids hat hid]
      exact hok.single position index hpending hanswered
    · rw [if_neg hid] at hpending ⊢
      obtain ⟨hne, hother⟩ := pendingIn_resolved.1 hpending
      exact absurd (hok.single position index hother hanswered) hne

theorem Continued.ids (hok : ContinuationsOk record) (h : Continued record resolved continuations) :
    (ContinuationIds continuations).Nodup := by
  cases h with
  | untouched => exact hok.ids
  | answered => rw [resolveAnswered_ids]; exact hok.ids
  | asked continuation hopen => exact continuationIds_upsert (by rw [resolveAnswered_ids]; exact hok.ids)

theorem Continued.single (hok : ContinuationsOk record) (hanswers : Answers record attempt)
    (h : Continued record attempt.resolved continuations) {index other : ℕ} (hindex : PendingIn continuations index)
    (hother : PendingIn continuations other) : index = other := by
  cases h with
  | untouched => exact hok.single index other hindex hother
  | answered => exact absurd hindex (not_pending_answered hok hanswers index)
  | asked continuation hopen =>
    rw [pending_asked hok hanswers hopen] at hindex hother
    rw [hindex, hother]

theorem concluded_continuationsOk (hok : ContinuationsOk record) (hanswers : Answers record attempt)
    (h : Concluded record attempt next) : ContinuationsOk next := by
  cases h with
  | failed left message now hleft =>
    exact
      { ids := hleft.continuations.ids hok
        single := fun _ _ => hleft.continuations.single hok hanswers
        accepted := fun h => by cases h
        waiting := fun h => by cases h
        succeeded := fun h => by cases h }
  | applied result applied now happlied =>
    cases happlied with
    | asks continuation pushed hcontinuation hopen hordinal =>
      have hasked : Continued record attempt.resolved _ := .asked continuation hopen
      exact
        { ids := hasked.ids hok
          single := fun _ _ => hasked.single hok hanswers
          accepted := fun h => by cases h
          waiting := fun _ => ⟨_, (pending_asked hok hanswers hopen _).mpr rfl,
            fun other hother => (pending_asked hok hanswers hopen other).mp hother⟩
          succeeded := fun h => by cases h }
    | completes pushed hcontinuation hgoals hordinal =>
      have hanswered : Continued record attempt.resolved _ := .answered
      exact
        { ids := hanswered.ids hok
          single := fun _ _ => hanswered.single hok hanswers
          accepted := fun h => by cases h
          waiting := fun h => by cases h
          succeeded := fun _ => ⟨not_pending_answered hok hanswers, record.checkpoints, pushed, rfl, hgoals⟩ }

theorem Change.continuationsOk (h : Change record next) (hok : ContinuationsOk record) : ContinuationsOk next := by
  cases h with
  | reported progress now hstate => exact ⟨hok.ids, hok.single, hok.accepted, hok.waiting, hok.succeeded⟩
  | concluded attempt outcome tick hanswers =>
    exact concluded_continuationsOk hok hanswers (conclude_cases record attempt outcome tick)
  | postponed index now hstate hpending =>
    have hsame : ∀ position, PendingAt (ActorRunner.postponed record index now) position ↔
        PendingAt record position := fun position => pendingIn_postponed hpending
    have hstate' : (ActorRunner.postponed record index now).state = .waitingForInput := hstate
    exact
      { ids := by
          change (ContinuationIds (setContinuationState record.continuations index .postponed)).Nodup
          rw [continuationIds_set_state]
          exact hok.ids
        single := fun i j hi hj => hok.single i j ((hsame i).mp hi) ((hsame j).mp hj)
        accepted := fun h => by rw [hstate'] at h; cases h
        waiting := fun _ => by
          simp only [hsame]
          exact hok.waiting hstate
        succeeded := fun h => by rw [hstate'] at h; cases h }
  | withdrawn now hstate hallowed =>
    exact
      { ids := hok.ids
        single := hok.single
        accepted := fun h => by cases h
        waiting := fun h => by cases h
        succeeded := fun h => by cases h }

/-! ## Results that are refused -/

/-- A result with an invalid continuation, or with goals that nothing asks about, or with a
continuation and no goal left. -/
def Refused (result : PlanRunExecutionResult) : Prop :=
  match result.continuation with
  | some continuation => assertContinuation continuation ≠ .ok () ∨
      result.remainingGoals.getD [] = []
  | none => result.remainingGoals.getD [] ≠ []

theorem applyResult_refused (record : PlanRunRecord) (h : Refused result) (resolved : Option ℕ)
    (checkpointId now : String) :
    ∃ message, applyResult record result resolved checkpointId now = (record, .error message) := by
  unfold Refused at h
  unfold applyResult
  dsimp only
  cases hcontinuation : result.continuation with
  | none =>
    rw [hcontinuation] at h
    dsimp only
    rw [if_pos h]
    exact ⟨_, rfl⟩
  | some continuation =>
    rw [hcontinuation] at h
    dsimp only
    cases hassert : assertContinuation continuation with
    | error message => exact ⟨message, rfl⟩
    | ok _ =>
      have hgoals : result.remainingGoals.getD [] = [] := h.resolve_left (by rw [hassert]; simp)
      dsimp only
      rw [if_pos hgoals]
      exact ⟨_, rfl⟩

theorem conclude_refused (record : PlanRunRecord) (h : Refused result) (attempt : Attempt) (tick : Tick) :
    ∃ failure, conclude record attempt (.ok result) tick =
      { record with
        state := .failed
        failure := some failure
        revision := record.revision + 1
        updatedAt := tick.now } := by
  obtain ⟨message, hrefused⟩ := applyResult_refused record h attempt.resolved tick.uuid tick.now
  exact ⟨_, by rw [conclude, hrefused]; rfl⟩

end Records

/-! ## Runs -/

section Run
variable {runner : Runner} {w : World} {actions : List Action}

/-- What is stored after some steps, and what a refused result makes of it. -/
theorem run_continuations (h : run (step runner) World.start actions = some w) :
    (∀ runId row, w.runs runId = some row → ContinuationsOk row.record) ∧
    ∀ session record attempt result tick, w.calls session = some (.executing record attempt) →
      Refused result → ∃ failure w',
        step runner w (.finish session tick (.ok result)) = some w' ∧
        w'.calls session = some (.saving { record with
          state := .failed
          failure := some failure
          revision := record.revision + 1
          updatedAt := tick.now } attempt) ∧
        ∀ row, w.runs record.runId = some row → savable row attempt = true → row.record = record := by
  refine ⟨fun runId row hrow => run_records newRecord_continuationsOk
    (fun _ _ hchange => hchange.continuationsOk) h hrow, ?_⟩
  intro session record attempt result tick hcall hrefused
  obtain ⟨failure, hconclude⟩ := conclude_refused record hrefused attempt tick
  have hok := (run_worldOk h).calls session _ hcall
  refine ⟨failure, w.setCall session (.saving (conclude record attempt (.ok result) tick) attempt),
    ?_, ?_, fun row hrow hsavable => hok.based.2.stored hrow hsavable⟩
  · simp [step, hcall, finishingStep]
  · rw [← hconclude]
    exact Function.update_self _ _ _

end Run

def continuationsAfter (actions : List Action) : Option (PlanRunState × List ContinuationState) :=
  (run (step (commandRunner false)) World.start actions).bind fun w =>
    (w.runs "run").map fun row =>
      (row.state, row.record.continuations.map PlanRunContinuation.state)

/-- A run that is cancelled while it waits does not wait, and what it asked stays open; so does what a
resumption that throws has answered. -/
theorem withdrawn_run_keeps_continuation :
    continuationsAfter (waiting ++ cancelled 2) = some (.cancelled, [.«open»]) ∧
    continuationsAfter (resuming ++ finished 2 (.error "broken")) = some (.failed, [.«open»]) := by
  decide +kernel

theorem run_continuations_waiting : ∃ w, run (step (commandRunner false)) World.start waiting = some w ∧
    ∀ runId row, w.runs runId = some row → ContinuationsOk row.record := by
  have hsome : (run (step (commandRunner false)) World.start waiting).isSome = true := by
    decide +kernel
  obtain ⟨w, hw⟩ := Option.isSome_iff_exists.mp hsome
  exact ⟨w, hw, (run_continuations hw).1⟩

end AvenOS.ActorRunner
