import AvenOS.ActorRunner.SqlRunner

/-! # What can happen to a record

The four ways in which a stored record is replaced, and what each of them keeps: the revision grows,
the state moves on, checkpoints are appended, and continuations stay in order. -/
namespace AvenOS.ActorRunner
open Actors

/-- The continuation at a position can still be answered. -/
def PendingAt (record : PlanRunRecord) (index : ℕ) : Prop :=
  ∃ continuation, record.continuations[index]? = some continuation ∧ continuation.pending = true

def Answers (record : PlanRunRecord) : Attempt → Prop
  | .accepted => record.state = .accepted
  | .resumed index _ _ => record.state = .waitingForInput ∧ PendingAt record index

inductive Change : PlanRunRecord → PlanRunRecord → Prop
  | reported (record : PlanRunRecord) (progress : Record) (now : String)
      (hstate : record.state = .accepted) : Change record (reported record progress now)
  | concluded (record : PlanRunRecord) (attempt : Attempt)
      (outcome : Except String PlanRunExecutionResult) (tick : Tick)
      (hanswers : Answers record attempt) : Change record (conclude record attempt outcome tick)
  | postponed (record : PlanRunRecord) (index : ℕ) (now : String)
      (hstate : record.state = .waitingForInput) (hpending : PendingAt record index) :
      Change record (postponed record index now)
  | withdrawn (record : PlanRunRecord) (now : String) (hstate : record.state ≠ .cancelled)
      (hallowed : assertPlanRunTransition record.state .cancelled = .ok ()) :
      Change record (withdrawn record now)

/-! ## Concluding -/

variable {record record' : PlanRunRecord} {result : PlanRunExecutionResult} {checkpointId now : String}

variable {e : String} {resolved : Option ℕ}

theorem pushCheckpoint_error (h : pushCheckpoint record result checkpointId now = (record', .error e)) :
    record' = record := by
  unfold pushCheckpoint at h
  cases hcheckpoint : checkpoint record result checkpointId now with
  | error e' =>
    rw [hcheckpoint] at h
    exact (congrArg Prod.fst h).symm
  | ok pushed =>
    rw [hcheckpoint] at h
    cases congrArg Prod.snd h

theorem pushCheckpoint_ok (h : pushCheckpoint record result checkpointId now = (record', .ok ())) :
    ∃ pushed : PlanRunCheckpoint, pushed.ordinal = record.checkpoints.length ∧
      pushed.remainingGoals = result.remainingGoals.getD [] ∧
      record' = { record with checkpoints := record.checkpoints ++ [pushed] } := by
  unfold pushCheckpoint checkpoint at h
  cases hportable : assertPortableRunValue (.obj (result.output.getD [])) "$" with
  | error e =>
    rw [hportable] at h
    cases congrArg Prod.snd h
  | ok _ =>
    rw [hportable] at h
    exact ⟨_, rfl, rfl, (congrArg Prod.fst h).symm⟩

/-- A result that is accepted, with what it asks next or without. -/
inductive Applied (record : PlanRunRecord) (result : PlanRunExecutionResult) (resolved : Option ℕ) :
    PlanRunRecord → Prop
  | asks (continuation : PlanRunContinuation) (pushed : PlanRunCheckpoint)
      (hcontinuation : result.continuation = some continuation)
      (hopen : continuation.state = .«open»)
      (hordinal : pushed.ordinal = record.checkpoints.length) :
      Applied record result resolved
        { record with
          continuations := upsertContinuation
            (resolveAnswered record resolved (some continuation.continuationId)) continuation
          state := .waitingForInput
          checkpoints := record.checkpoints ++ [pushed] }
  | completes (pushed : PlanRunCheckpoint) (hcontinuation : result.continuation = none)
      (hgoals : pushed.remainingGoals = [])
      (hordinal : pushed.ordinal = record.checkpoints.length) :
      Applied record result resolved
        { record with
          continuations := resolveAnswered record resolved none
          state := .succeeded
          checkpoints := record.checkpoints ++ [pushed] }

theorem assertContinuation_open {continuation : PlanRunContinuation}
    (h : assertContinuation continuation = .ok ()) : continuation.state = .«open» := by
  unfold assertContinuation at h
  by_contra hne
  rw [if_pos hne] at h
  cases h

theorem applyResult_ok (h : applyResult record result resolved checkpointId now = (record', .ok ())) :
    Applied record result resolved record' := by
  unfold applyResult at h
  dsimp only at h
  cases hcontinuation : result.continuation with
  | some continuation =>
    simp only [hcontinuation] at h
    cases hassert : assertContinuation continuation with
    | error e =>
      simp only [hassert] at h
      cases congrArg Prod.snd h
    | ok _ =>
      simp only [hassert] at h
      by_cases hgoals : result.remainingGoals.getD [] = []
      · rw [if_pos hgoals] at h
        cases congrArg Prod.snd h
      · rw [if_neg hgoals] at h
        have hopen := assertContinuation_open hassert
        obtain ⟨pushed, hordinal, -, rfl⟩ := pushCheckpoint_ok h
        exact .asks continuation pushed hcontinuation hopen hordinal
  | none =>
    simp only [hcontinuation] at h
    by_cases hgoals : result.remainingGoals.getD [] = []
    · rw [if_neg (by simpa using hgoals)] at h
      obtain ⟨pushed, hordinal, hpushed, rfl⟩ := pushCheckpoint_ok h
      exact .completes pushed hcontinuation (hpushed.trans hgoals) hordinal
    · rw [if_pos hgoals] at h
      cases congrArg Prod.snd h

/-- The continuations at a throw: nothing is done yet, or the answered one is resolved, or the next one
is asked as well. -/
inductive Continued (record : PlanRunRecord) (resolved : Option ℕ) : List PlanRunContinuation → Prop
  | untouched : Continued record resolved record.continuations
  | answered : Continued record resolved (resolveAnswered record resolved none)
  | asked (continuation : PlanRunContinuation) (hopen : continuation.state = .«open») :
      Continued record resolved (upsertContinuation
        (resolveAnswered record resolved (some continuation.continuationId)) continuation)

/-- A record that an attempt has given up on. -/
structure Abandoned (record : PlanRunRecord) (resolved : Option ℕ) (left : PlanRunRecord) : Prop where
  checkpoints : left.checkpoints = record.checkpoints
  revision : left.revision = record.revision
  runId : left.runId = record.runId
  request : left.request = record.request
  continuations : Continued record resolved left.continuations

theorem Abandoned.refl (record : PlanRunRecord) (resolved : Option ℕ) :
    Abandoned record resolved record := ⟨rfl, rfl, rfl, rfl, .untouched⟩

theorem applyResult_error (h : applyResult record result resolved checkpointId now = (record', .error e)) :
    Abandoned record resolved record' := by
  unfold applyResult at h
  dsimp only at h
  cases hcontinuation : result.continuation with
  | some continuation =>
    simp only [hcontinuation] at h
    cases hassert : assertContinuation continuation with
    | error e =>
      simp only [hassert] at h
      cases h
      exact .refl record resolved
    | ok _ =>
      simp only [hassert] at h
      by_cases hgoals : result.remainingGoals.getD [] = []
      · rw [if_pos hgoals] at h
        cases h
        exact .refl record resolved
      · rw [if_neg hgoals] at h
        rw [pushCheckpoint_error h]
        exact ⟨rfl, rfl, rfl, rfl, .asked continuation (assertContinuation_open hassert)⟩
  | none =>
    simp only [hcontinuation] at h
    by_cases hgoals : result.remainingGoals.getD [] = []
    · rw [if_neg (by simpa using hgoals)] at h
      rw [pushCheckpoint_error h]
      exact ⟨rfl, rfl, rfl, rfl, .answered⟩
    · rw [if_pos hgoals] at h
      cases h
      exact .refl record resolved

/-- An attempt ends as its result says, or as a failure. -/
inductive Concluded (record : PlanRunRecord) (attempt : Attempt) : PlanRunRecord → Prop
  | applied (result : PlanRunExecutionResult) (applied : PlanRunRecord) (now : String)
      (happlied : Applied record result attempt.resolved applied) :
      Concluded record attempt (touch applied now)
  | failed (left : PlanRunRecord) (message now : String)
      (hleft : Abandoned record attempt.resolved left) :
      Concluded record attempt (touch (failRecord left attempt message) now)

theorem conclude_cases (record : PlanRunRecord) (attempt : Attempt)
    (outcome : Except String PlanRunExecutionResult) (tick : Tick) :
    Concluded record attempt (conclude record attempt outcome tick) := by
  unfold conclude
  cases outcome with
  | error message => exact .failed record message tick.now (.refl record _)
  | ok result =>
    rcases happly : applyResult record result attempt.resolved tick.uuid tick.now with ⟨applied, r⟩
    simp only [happly]
    cases r with
    | error message => exact .failed applied message tick.now (applyResult_error happly)
    | ok _ => exact .applied result applied tick.now (applyResult_ok happly)

/-! ## What a change keeps -/

/-- The moves that stored states make: an attempt on an accepted run counts as running, and so does an
attempt on a run that waits. -/
def Moved (source target : PlanRunState) : Prop :=
  source = target ∨ target ∈ transitions source ∨
    (source = .accepted ∨ source = .waitingForInput) ∧ target ∈ transitions .running

def Numbered (record : PlanRunRecord) : Prop :=
  record.checkpoints.map PlanRunCheckpoint.ordinal = List.range record.checkpoints.length

section Change
variable {record next : PlanRunRecord}

theorem Change.revision (h : Change record next) : next.revision = record.revision + 1 := by
  cases h with
  | concluded attempt outcome tick =>
    have hconcluded := conclude_cases record attempt outcome tick
    generalize conclude record attempt outcome tick = next at hconcluded ⊢
    cases hconcluded with
    | applied result applied now happlied => cases happlied <;> rfl
    | failed left message now hleft => simp [touch, failRecord, hleft.revision]
  | _ => rfl

theorem Change.runId (h : Change record next) : next.runId = record.runId := by
  cases h with
  | concluded attempt outcome tick =>
    have hconcluded := conclude_cases record attempt outcome tick
    generalize conclude record attempt outcome tick = next at hconcluded ⊢
    cases hconcluded with
    | applied result applied now happlied => cases happlied <;> rfl
    | failed left message now hleft => exact hleft.runId
  | _ => rfl

theorem Change.checkpoints (h : Change record next) : next.checkpoints = record.checkpoints ∨
    ∃ pushed : PlanRunCheckpoint, pushed.ordinal = record.checkpoints.length ∧
      next.checkpoints = record.checkpoints ++ [pushed] := by
  cases h with
  | concluded attempt outcome tick =>
    have hconcluded := conclude_cases record attempt outcome tick
    generalize conclude record attempt outcome tick = next at hconcluded ⊢
    cases hconcluded with
    | applied result applied now happlied =>
      cases happlied with
      | asks continuation pushed _ _ hordinal => exact .inr ⟨pushed, hordinal, rfl⟩
      | completes pushed _ _ hordinal => exact .inr ⟨pushed, hordinal, rfl⟩
    | failed left message now hleft => exact .inl hleft.checkpoints
  | _ => exact .inl rfl

theorem Change.numbered (h : Change record next) (hrecord : Numbered record) : Numbered next := by
  rcases h.checkpoints with hsame | ⟨pushed, hordinal, happended⟩
  · unfold Numbered at hrecord ⊢
    rw [hsame, hrecord]
  · unfold Numbered at hrecord ⊢
    rw [happended, List.map_append, hrecord, List.length_append, List.map_singleton, hordinal]
    exact List.range_succ.symm

theorem moved_concluded {attempt : Attempt} (hanswers : Answers record attempt)
    (h : Concluded record attempt next) : Moved record.state next.state := by
  have hstate : record.state = .accepted ∨ record.state = .waitingForInput := by
    cases attempt with
    | accepted => exact .inl hanswers
    | resumed index kind expectedRevision => exact .inr hanswers.1
  have hrunning : next.state ∈ transitions .running := by
    cases h with
    | applied result applied now happlied => cases happlied <;> simp [touch, transitions]
    | failed left message now hleft => simp [touch, failRecord, transitions]
  exact .inr (.inr ⟨hstate, hrunning⟩)

theorem Change.moved (h : Change record next) : Moved record.state next.state := by
  cases h with
  | reported progress now hstate => exact .inl rfl
  | concluded attempt outcome tick hanswers =>
    exact moved_concluded hanswers (conclude_cases record attempt outcome tick)
  | postponed index now hstate hpending => exact .inl rfl
  | withdrawn now hstate hallowed =>
    unfold assertPlanRunTransition at hallowed
    by_cases hmove : record.state = .cancelled ∨ .cancelled ∈ transitions record.state
    · exact hmove.imp_right .inl
    · rw [if_neg hmove] at hallowed
      cases hallowed

theorem Change.not_accepted (h : Change record next) (hstate : record.state ≠ .accepted) :
    next.state ≠ .accepted := by
  cases h with
  | reported progress now hstate' => exact absurd hstate' hstate
  | concluded attempt outcome tick hanswers =>
    have hconcluded := conclude_cases record attempt outcome tick
    generalize conclude record attempt outcome tick = next at hconcluded ⊢
    cases hconcluded with
    | applied result applied now happlied => cases happlied <;> simp [touch]
    | failed left message now hleft => simp [touch, failRecord]
  | postponed index now hstate' hpending => exact hstate
  | withdrawn now hstate' hallowed => simp [ActorRunner.withdrawn, touch]

theorem Change.not_final (h : Change record next) : record.state ≠ .cancelled ∧ record.state ≠ .succeeded := by
  cases h with
  | reported progress now hstate => simp [hstate]
  | concluded attempt outcome tick hanswers =>
    cases attempt with
    | accepted =>
      have hstate : record.state = .accepted := hanswers
      simp [hstate]
    | resumed index kind expectedRevision => simp [hanswers.1]
  | postponed index now hstate hpending => simp [hstate]
  | withdrawn now hstate hallowed =>
    refine ⟨hstate, fun hsucceeded => ?_⟩
    rw [hsucceeded] at hallowed
    cases hallowed

end Change

end AvenOS.ActorRunner
