import AvenOS.ActorRunner.RunnerSteps

/-! # Attempts and what is seen of them

How a step takes its call from one stage to the next, what it adds to the log, and what it does to the
unsettled runs, as long as no process is lost. An attempt is entered under the lock of its run, and the
call that entered it ends by saving, by being overtaken, or not at all. -/
namespace AvenOS.ActorRunner
open Actors LabelledRun

def Call.outside : Call → Prop
  | .marking _ _ => False
  | .executing _ _ => False
  | .saving _ _ => False
  | .settling _ _ => False
  | .releasing _ _ => False
  | _ => True

def Answer.saved : Answer → Prop
  | .handle _ => True
  | .executed updated => updated = true
  | .failed _ => False

theorem savedAnswer_saved (record : PlanRunRecord) (attempt : Attempt) : (savedAnswer record attempt).saved := by
  cases attempt with
  | accepted => rfl
  | resumed index kind expectedRevision => trivial

theorem overtakenAnswer_not_saved (attempt : Attempt) : ¬ (overtakenAnswer attempt).saved := by
  cases attempt with
  | accepted => simp [overtakenAnswer, Answer.saved]
  | resumed index kind expectedRevision => exact id

/-! ## Passages -/

inductive Passage (runner : Runner) (w w' : World) (session : ℕ) :
    Option Call → Option Call → List Event → Prop
  | opened (next : Option Call) (hidle : w.sessions ≤ session)
      (hfresh : ∀ call, next = some call → call.fresh) (hmarks : w'.executionUnsettled = w.executionUnsettled) :
      Passage runner w w' session none next []
  | outside (call next : Call) (hcall : call.outside) (hnext : next.outside)
      (hmarks : w'.executionUnsettled = w.executionUnsettled) :
      Passage runner w w' session (some call) (some next) []
  | answered (call : Call) (request : PlanRunStartRequest) (answer : Answer) (hcall : call.outside)
      (hmarks : w'.executionUnsettled = w.executionUnsettled) :
      Passage runner w w' session (some call) none [.answered request answer]
  | given (call : Call) (runId : String) (answer : Answer) (hcall : call.outside)
      (hmarks : w'.executionUnsettled = w.executionUnsettled) :
      Passage runner w w' session (some call) none [.returned session runId answer]
  | prepared (runId : String) (purpose : Purpose) (record : PlanRunRecord) (attempt : Attempt)
      (row : Row) (hrow : w.runs record.runId = some row) (hsavable : savable row attempt = true)
      (hid : record.runId = runId) (hmarks : w'.executionUnsettled = w.executionUnsettled) :
      Passage runner w w' session (some (.loading runId purpose)) (some (.marking record attempt)) []
  | refused (call : Call) (runId : String) (answer : Answer)
      (hcall : call.outside ∨ ∃ record attempt, call = .marking record attempt)
      (hmarks : w'.executionUnsettled = w.executionUnsettled) :
      Passage runner w w' session (some call) (some (.releasing runId answer)) []
  | entered (record : PlanRunRecord) (attempt : Attempt)
      (hmarks : if runner.customerExecutionBarrier then record.runId ∉ w.executionUnsettled ∧
          w'.executionUnsettled = w.executionUnsettled ++ [record.runId]
        else w'.executionUnsettled = w.executionUnsettled) :
      Passage runner w w' session (some (.marking record attempt)) (some (.executing record attempt))
        [.entered session record.runId attempt]
  | reported (record next : PlanRunRecord) (attempt : Attempt) (hid : next.runId = record.runId)
      (hmarks : w'.executionUnsettled = w.executionUnsettled) :
      Passage runner w w' session (some (.executing record attempt)) (some (.executing next attempt)) []
  | finished (record next : PlanRunRecord) (attempt : Attempt) (hid : next.runId = record.runId)
      (hmarks : w'.executionUnsettled = w.executionUnsettled) :
      Passage runner w w' session (some (.executing record attempt)) (some (.saving next attempt)) []
  | saved (record : PlanRunRecord) (attempt : Attempt) (row : Row)
      (hrow : w'.runs record.runId = some row) (hstate : row.state ≠ .accepted)
      (hmarks : w'.executionUnsettled = w.executionUnsettled) :
      Passage runner w w' session (some (.saving record attempt))
        (some (.settling record.runId (savedAnswer record attempt))) []
  | overtaken (record : PlanRunRecord) (attempt : Attempt) (row : Row)
      (hrow : w'.runs record.runId = some row) (hcancelled : row.state = .cancelled)
      (hmarks : w'.executionUnsettled = w.executionUnsettled) :
      Passage runner w w' session (some (.saving record attempt))
        (some (.releasing record.runId (overtakenAnswer attempt))) []
  | settled (runId : String) (answer : Answer)
      (hmarks : if runner.customerExecutionBarrier then
          w'.executionUnsettled = w.executionUnsettled.filter (· ≠ runId)
        else w'.executionUnsettled = w.executionUnsettled) :
      Passage runner w w' session (some (.settling runId answer)) (some (.releasing runId answer)) []
  | released (runId : String) (answer : Answer)
      (hmarks : w'.executionUnsettled = w.executionUnsettled) :
      Passage runner w w' session (some (.releasing runId answer)) none
        [.returned session runId answer]

structure Passes (runner : Runner) (w w' : World) (session : ℕ) (events : List Event) : Prop where
  log : w'.log = w.log ++ events
  passage : Passage runner w w' session (w.calls session) (w'.calls session) events

section Passes
variable {runner : Runner} {w w' : World} {session : ℕ} {tick : Tick} {call : Call}

theorem passes_update {next : Option Call} {events : List Event}
    (hcall : w.calls session = some call) (hcalls : w'.calls = Function.update w.calls session next)
    (hlog : w'.log = w.log ++ events) (h : Passage runner w w' session (some call) next events) :
    Passes runner w w' session events := by
  refine ⟨hlog, ?_⟩
  rw [hcall, hcalls, Function.update_self]
  exact h

theorem passes_outside {next : Call} (hcall : w.calls session = some call) (hout : call.outside)
    (hnext : next.outside) : Passes runner w (w.setCall session next) session [] :=
  passes_update hcall rfl (List.append_nil _).symm (.outside call next hout hnext rfl)

variable {request : PlanRunStartRequest} {answer : Answer} {runId : String} {purpose : Purpose}
    {record : PlanRunRecord}

theorem passes_answered (hcall : w.calls session = some call) (hout : call.outside) :
    Passes runner w (w.answer session request answer) session [.answered request answer] :=
  passes_update hcall rfl rfl (.answered call request answer hout rfl)

theorem passes_given (hcall : w.calls session = some call) (hout : call.outside) :
    Passes runner w (w.give session runId answer) session [.returned session runId answer] :=
  passes_update hcall rfl rfl (.given call runId answer hout rfl)

theorem passes_refused (hcall : w.calls session = some call)
    (hout : call.outside ∨ ∃ record attempt, call = .marking record attempt) :
    Passes runner w (w.setCall session (.releasing runId answer)) session [] :=
  passes_update hcall rfl (List.append_nil _).symm (.refused call runId answer hout rfl)

/-! ## Every statement is a passage -/

theorem startingStep_passes (hcall : w.calls session = some (.starting request)) :
    ∃ events, Passes runner w (startingStep runner w session request) session events := by
  unfold startingStep
  cases admitted request with
  | error message => exact ⟨_, passes_answered hcall trivial⟩
  | ok _ =>
    dsimp only
    split
    · exact ⟨_, passes_answered hcall trivial⟩
    · exact ⟨_, passes_outside hcall trivial trivial⟩

theorem insertingStep_passes (hlive : session < w.sessions) (hcall : w.calls session = some (.inserting request))
    (h : insertingStep runner w session tick request = some w') :
    ∃ events, Passes runner w w' session events := by
  unfold insertingStep at h
  cases hprior : w.priorRun request with
  | some prior =>
    simp only [hprior] at h
    cases h
    exact ⟨_, passes_outside hcall trivial trivial⟩
  | none =>
    simp only [hprior] at h
    by_cases hused : (w.runs tick.uuid).isSome = true
    · rw [if_pos hused] at h
      cases h
    · rw [if_neg hused] at h
      cases h
      refine ⟨_, rfl, ?_⟩
      have hgone : Function.update (Function.update w.calls session none) w.sessions
          (some (Call.fencing tick.uuid .execute)) session = none := by
        rw [Function.update_of_ne (by omega), Function.update_self]
      change Passage runner w _ session (w.calls session) (Function.update (Function.update w.calls
        session none) w.sessions (some (Call.fencing tick.uuid .execute)) session) _
      rw [hcall, hgone]
      exact .answered _ request _ trivial rfl

theorem replayingStep_passes (hcall : w.calls session = some (.replaying request)) :
    ∃ events, Passes runner w (replayingStep runner w session request) session events := by
  unfold replayingStep
  cases w.priorRun request with
  | none => exact ⟨_, passes_answered hcall trivial⟩
  | some prior =>
    dsimp only
    split <;> exact ⟨_, passes_answered hcall trivial⟩

theorem fencingStep_passes (hcall : w.calls session = some (.fencing runId purpose)) :
    ∃ events, Passes runner w (fencingStep runner w session runId purpose) session events := by
  unfold fencingStep
  split
  · exact ⟨_, passes_given hcall trivial⟩
  · exact ⟨_, passes_outside hcall trivial trivial⟩

theorem claimingStep_passes (hcall : w.calls session = some (.claiming runId purpose)) :
    ∃ events, Passes runner w (claimingStep runner w session runId purpose) session events := by
  unfold claimingStep
  cases w.locks (runner.lockKey runId) with
  | some holder => exact ⟨_, passes_given hcall trivial⟩
  | none => exact ⟨_, passes_update hcall rfl (List.append_nil _).symm (.outside _ _ trivial trivial rfl)⟩

theorem prepareResume_cases {submission : PlanRunContinuationSubmission}
    {now : String} (h : prepareResume record submission now = .ok call) : call.outside ∨
      ∃ index kind, call = .marking record (.resumed index kind record.revision) := by
  unfold prepareResume at h
  cases hindex : requiredContinuation record submission.continuationId with
  | error e =>
    rw [hindex] at h
    cases h
  | ok index =>
    rw [hindex] at h
    cases submission with
    | postpone requestId continuationId =>
      cases h
      exact .inl trivial
    | submit requestId continuationId kind value =>
      cases hat : record.continuations[index]? with
      | none =>
        simp only [bind, Except.bind, hat] at h
        cases h
      | some continuation =>
        simp only [bind, Except.bind, hat] at h
        by_cases hkind : kind ≠ continuation.kind
        · rw [if_pos hkind] at h
          cases h
        · rw [if_neg hkind] at h
          cases h
          exact .inr ⟨index, continuation.kind, rfl⟩

theorem loadingStep_passes (hw : WorldOk runner w) (hcall : w.calls session = some (.loading runId purpose)) :
    ∃ events, Passes runner w (loadingStep w session tick runId purpose) session events := by
  unfold loadingStep
  cases purpose with
  | execute =>
    dsimp only
    cases hfound : (w.runs runId).filter fun row => row.state = .accepted with
    | none => exact ⟨_, passes_refused hcall (.inl trivial)⟩
    | some row =>
      obtain ⟨hrow, hstate⟩ := Option.filter_eq_some_iff.mp hfound
      have hid := (hw.table.rows runId row hrow).runId
      exact ⟨_, passes_update hcall rfl (List.append_nil _).symm
        (.prepared runId .execute row.record .accepted row (hid ▸ hrow) hstate hid rfl)⟩
  | resume submission =>
    dsimp only
    cases submission.portable with
    | error message => exact ⟨_, passes_refused hcall (.inl trivial)⟩
    | ok _ =>
      dsimp only
      cases hfound : (w.runs runId).filter fun row => row.state = .waitingForInput with
      | none => exact ⟨_, passes_refused hcall (.inl trivial)⟩
      | some row =>
        obtain ⟨hrow, hstate⟩ := Option.filter_eq_some_iff.mp hfound
        have hok := hw.table.rows runId row hrow
        dsimp only
        cases hprepare : prepareResume row.record submission tick.now with
        | error message => exact ⟨_, passes_refused hcall (.inl trivial)⟩
        | ok next =>
          rcases prepareResume_cases hprepare with hout | ⟨index, kind, rfl⟩
          · exact ⟨_, passes_outside hcall trivial hout⟩
          · refine ⟨_, passes_update hcall rfl (List.append_nil _).symm
              (.prepared runId (.resume submission) row.record _ row (hok.runId ▸ hrow) ?_ hok.runId rfl)⟩
            simp [savable, of_decide_eq_true hstate, hok.revision]

variable {attempt : Attempt}

theorem markingStep_passes (hw : WorldOk runner w) (hcall : w.calls session = some (.marking record attempt)) :
    ∃ events, Passes runner w (markingStep runner w session tick record attempt) session events := by
  have hanswers : Answers record attempt := (hw.calls session _ hcall).based.1
  unfold markingStep
  cases hmark : w.beginExecution runner record.runId with
  | none => exact ⟨_, passes_refused hcall (.inr ⟨record, attempt, rfl⟩)⟩
  | some marked =>
    have hmarks : if runner.customerExecutionBarrier then record.runId ∉ w.executionUnsettled ∧
        marked.executionUnsettled = w.executionUnsettled ++ [record.runId]
        else marked.executionUnsettled = w.executionUnsettled := by
      unfold World.beginExecution at hmark
      by_cases hbarrier : runner.customerExecutionBarrier = true
      · rw [if_pos hbarrier] at hmark ⊢
        split at hmark
        · rename_i hfree
          cases hmark
          simp only [Bool.and_eq_true, Bool.not_eq_true', List.contains_eq_mem, decide_eq_false_iff_not] at hfree
          exact ⟨hfree.2, rfl⟩
        · cases hmark
      · rw [if_neg hbarrier] at hmark ⊢
        cases hmark
        rfl
    rw [beginExecution_some hmark]
    dsimp only
    cases hmay : mayRun record attempt with
    | error message =>
      exfalso
      cases attempt with
      | accepted => cases hmay
      | resumed index kind expectedRevision =>
        simp only [mayRun, hanswers.1] at hmay
        cases hmay
    | ok _ => exact ⟨_, passes_update hcall rfl rfl (.entered record attempt hmarks)⟩

theorem savingStep_passes (hw : WorldOk runner w) (hcall : w.calls session = some (.saving record attempt)) :
    ∃ events, Passes runner w (savingStep w session record attempt) session events := by
  obtain ⟨base, outcome, moment, hanswers, hcurrent, hrecord⟩ := (hw.calls session _ hcall).based
  have hchange : Change base record := hrecord ▸ .concluded base attempt outcome moment hanswers
  have hid := hchange.runId
  unfold savingStep
  cases hfound : (w.runs record.runId).filter fun row => savable row attempt with
  | none =>
    rw [hid] at hfound
    obtain ⟨row, hrow, hcancelled⟩ := hcurrent.cancelled hfound
    exact ⟨_, passes_update hcall rfl (List.append_nil _).symm
      (.overtaken record attempt row (hid ▸ hrow) hcancelled rfl)⟩
  | some row =>
    have hstate : record.state ≠ .accepted := by
      have hconcluded := conclude_cases base attempt outcome moment
      rw [← hrecord] at hconcluded
      cases hconcluded with
      | applied result applied now happlied => cases happlied <;> simp [touch]
      | failed left message now hleft => simp [touch, failRecord]
    exact ⟨_, passes_update hcall rfl (List.append_nil _).symm
      (.saved record attempt (row.write record) (Function.update_self _ _ _) hstate rfl)⟩

theorem settlingStep_passes (hcall : w.calls session = some (.settling runId answer)) :
    ∃ events, Passes runner w (settlingStep runner w session runId answer) session events := by
  unfold settlingStep
  dsimp only
  by_cases hbarrier : runner.customerExecutionBarrier = true
  · rw [if_pos hbarrier]
    exact ⟨_, passes_update hcall rfl (List.append_nil _).symm (.settled runId answer (by rw [if_pos hbarrier]; rfl))⟩
  · rw [if_neg hbarrier]
    exact ⟨_, passes_update hcall rfl (List.append_nil _).symm (.settled runId answer (by rw [if_neg hbarrier]; rfl))⟩

theorem postponingStep_passes {expectedRevision : ℕ}
    (hcall : w.calls session = some (.postponing record expectedRevision)) :
    ∃ events, Passes runner w (postponingStep w session record expectedRevision) session events := by
  unfold postponingStep
  split
  · exact ⟨_, passes_refused hcall (.inl trivial)⟩
  · exact ⟨_, passes_update hcall rfl (List.append_nil _).symm (.refused _ _ _ (.inl trivial) rfl)⟩

theorem cancellingStep_passes (hcall : w.calls session = some (.cancelling runId)) :
    ∃ events, Passes runner w (cancellingStep w session tick runId) session events := by
  unfold cancellingStep
  cases w.runs runId with
  | none => exact ⟨_, passes_given hcall trivial⟩
  | some row =>
    dsimp only
    split
    · exact ⟨_, passes_given hcall trivial⟩
    · cases assertPlanRunTransition row.record.state .cancelled with
      | error message => exact ⟨_, passes_given hcall trivial⟩
      | ok _ => exact ⟨_, passes_outside hcall trivial trivial⟩

theorem withdrawingStep_passes (hcall : w.calls session = some (.withdrawing record)) :
    ∃ events, Passes runner w (withdrawingStep w session record) session events := by
  unfold withdrawingStep
  split
  · exact ⟨_, passes_given hcall trivial⟩
  · exact ⟨_, passes_update hcall rfl rfl (.given _ _ _ trivial rfl)⟩

theorem reportingStep_passes {progress : Record} (hcall : w.calls session = some call)
    (h : reportingStep w session tick progress call = some w') :
    ∃ events, Passes runner w w' session events := by
  unfold reportingStep at h
  cases call with
  | executing record attempt =>
    cases attempt with
    | resumed index kind expectedRevision => cases h
    | accepted =>
      dsimp only at h
      cases hportable : assertPortableRunValue (.obj progress) "$" with
      | error e =>
        simp only [hportable] at h
        cases h
        refine ⟨[], (List.append_nil _).symm, ?_⟩
        rw [hcall]
        exact .reported record record .accepted rfl rfl
      | ok _ =>
        simp only [hportable] at h
        cases hfound : (w.runs record.runId).filter fun row => row.state = .accepted with
        | none =>
          simp only [hfound] at h
          cases h
          exact ⟨_, passes_update hcall rfl (List.append_nil _).symm (.reported record _ _ rfl rfl)⟩
        | some row =>
          simp only [hfound] at h
          cases h
          exact ⟨_, passes_update hcall rfl (List.append_nil _).symm (.reported record _ _ rfl rfl)⟩
  | _ => cases h

theorem finishingStep_passes (hw : WorldOk runner w)
    {outcome : Except String PlanRunExecutionResult} (hcall : w.calls session = some call)
    (h : finishingStep w session tick outcome call = some w') :
    ∃ events, Passes runner w w' session events := by
  unfold finishingStep at h
  cases call with
  | executing record attempt =>
    cases h
    have hanswers : Answers record attempt := (hw.calls session _ hcall).based.1
    exact ⟨_, passes_update hcall rfl (List.append_nil _).symm
      (.finished record _ attempt (Change.concluded record attempt outcome tick hanswers).runId rfl)⟩
  | _ => cases h

theorem advance_passes (hw : WorldOk runner w) (hcall : w.calls session = some call)
    (h : advance runner w session tick call = some w') : ∃ events, Passes runner w w' session events := by
  cases call with
  | starting request => cases h; exact startingStep_passes hcall
  | inserting request => exact insertingStep_passes (sessions_lt hw hcall) hcall h
  | replaying request => cases h; exact replayingStep_passes hcall
  | fencing runId purpose => cases h; exact fencingStep_passes hcall
  | claiming runId purpose => cases h; exact claimingStep_passes hcall
  | loading runId purpose => cases h; exact loadingStep_passes hw hcall
  | marking record attempt => cases h; exact markingStep_passes hw hcall
  | executing record attempt => cases h
  | saving record attempt => cases h; exact savingStep_passes hw hcall
  | postponing record expectedRevision => cases h; exact postponingStep_passes hcall
  | settling runId answer => cases h; exact settlingStep_passes hcall
  | releasing runId answer =>
    cases h
    exact ⟨_, passes_update hcall rfl rfl (.released runId answer rfl)⟩
  | cancelling runId => cases h; exact cancellingStep_passes hcall
  | withdrawing record => cases h; exact withdrawingStep_passes hcall

/-- An action that loses no process. -/
def Action.kept : Action → Prop
  | .crash _ => False
  | _ => True

theorem passes_open (hw : WorldOk runner w) (hfresh : call.fresh) :
    Passes runner w (w.openCall call) w.sessions [] := by
  refine ⟨(List.append_nil _).symm, ?_⟩
  rw [hw.idle w.sessions (le_refl _)]
  refine .opened _ (le_refl _) (fun next hnext => ?_) rfl
  have hcall : Function.update w.calls w.sessions (some call) w.sessions = some next := hnext
  rw [Function.update_self] at hcall
  cases hcall
  exact hfresh

theorem step_passes (hw : WorldOk runner w) {action : Action} (hkept : action.kept)
    (h : step runner w action = some w') : ∃ events, Passes runner w w' (action.actor w) events := by
  cases action with
  | start request => cases h; exact ⟨_, passes_open hw trivial⟩
  | execute runId => cases h; exact ⟨_, passes_open hw trivial⟩
  | resume runId submission => cases h; exact ⟨_, passes_open hw trivial⟩
  | cancel runId => cases h; exact ⟨_, passes_open hw trivial⟩
  | setEnabled enabled =>
    cases h
    have hidle := hw.idle w.sessions (le_refl _)
    refine ⟨[], (List.append_nil _).symm, ?_⟩
    change Passage runner w _ w.sessions (w.calls w.sessions) (w.calls w.sessions) []
    rw [hidle]
    exact .opened none (le_refl _) (by simp) rfl
  | advance session tick =>
    obtain ⟨call, hcall, hnext⟩ := Option.bind_eq_some_iff.mp h
    exact advance_passes hw hcall hnext
  | report session tick progress =>
    obtain ⟨call, hcall, hnext⟩ := Option.bind_eq_some_iff.mp h
    exact reportingStep_passes hcall hnext
  | finish session tick outcome =>
    obtain ⟨call, hcall, hnext⟩ := Option.bind_eq_some_iff.mp h
    exact finishingStep_passes hw hcall hnext
  | crash session => exact hkept.elim

end Passes

/-! ## The log -/

def Call.past (runId : String) (attempt : Attempt) : Call → Prop
  | .executing record own => record.runId = runId ∧ own = attempt
  | .saving record own => record.runId = runId ∧ own = attempt
  | .settling own answer => own = runId ∧ answer.saved
  | .releasing own _ => own = runId
  | _ => False

theorem Call.past.not_outside {call : Call} {runId : String} {attempt : Attempt}
    (h : call.past runId attempt) : ¬ call.outside := by
  cases call with
  | executing record own => exact id
  | saving record own => exact id
  | settling own answer => exact id
  | releasing own answer => exact id
  | _ => exact h.elim

theorem Call.fresh.outside {call : Call} (h : call.fresh) : call.outside := by
  cases call with
  | starting request => trivial
  | fencing runId purpose => trivial
  | cancelling runId => trivial
  | _ => exact h.elim

def Event.enters (session : ℕ) : Event → Bool
  | .entered own _ _ => own == session
  | _ => false

structure LogOk (w : World) : Prop where
  entered : ∀ session runId attempt, .entered session runId attempt ∈ w.log →
    session < w.sessions ∧ ∀ call, w.calls session = some call → call.past runId attempt
  inside : ∀ session record attempt, w.calls session = some (.executing record attempt) ∨
    w.calls session = some (.saving record attempt) →
    .entered session record.runId attempt ∈ w.log
  settling : ∀ session runId answer, w.calls session = some (.settling runId answer) →
    answer.saved ∧ ∃ attempt, .entered session runId attempt ∈ w.log
  returned : ∀ session runId answer, .returned session runId answer ∈ w.log →
    session < w.sessions ∧ w.calls session = none
  once : ∀ session, (w.log.filter (Event.enters session)).length ≤ 1

section Log
variable {runner : Runner} {w w' : World} {session : ℕ} {events : List Event}

theorem Moves.others_cases (h : Moves runner w w' session) {other : ℕ} (hother : other ≠ session)
    {call : Call} (hcall : w'.calls other = some call) :
    w.calls other = some call ∨ w.sessions ≤ other ∧ call.fresh := by
  rcases h.others other hother with hsame | ⟨hnew, call', hcall', hfresh⟩
  · exact .inl (hsame ▸ hcall)
  · rw [hcall] at hcall'
    cases hcall'
    exact .inr ⟨hnew, hfresh⟩

variable {before after : Option Call} {runId : String} {attempt : Attempt}

section
variable (h : Passage runner w w' session before after events)
include h

theorem Passage.past (hlive : session < w.sessions) (hbefore : ∀ call, before = some call → call.past runId attempt) :
    ∀ call, after = some call → call.past runId attempt := by
  rintro call rfl
  cases h with
  | opened next hidle => omega
  | outside before next hcall => exact absurd hcall (hbefore _ rfl).not_outside
  | prepared own purpose => exact (hbefore _ rfl).elim
  | refused before own answer hcall =>
    rcases hcall with hout | ⟨record, own, rfl⟩
    · exact absurd hout (hbefore _ rfl).not_outside
    · exact (hbefore _ rfl).elim
  | entered record own hmarks => exact (hbefore _ rfl).elim
  | reported record next own hid hmarks =>
    obtain ⟨hsame, howned⟩ := hbefore _ rfl
    exact ⟨hid.trans hsame, howned⟩
  | finished record next own hid hmarks =>
    obtain ⟨hsame, howned⟩ := hbefore _ rfl
    exact ⟨hid.trans hsame, howned⟩
  | saved record own row => exact ⟨(hbefore _ rfl).1, savedAnswer_saved _ _⟩
  | overtaken record own row => exact (hbefore _ rfl).1
  | settled own answer => exact (hbefore _ rfl).1

variable {own : ℕ} {answer : Answer}

theorem Passage.entered_event (hevent : .entered own runId attempt ∈ events) : own = session ∧ ∃ record : PlanRunRecord,
      record.runId = runId ∧ before = some (.marking record attempt) ∧
      after = some (.executing record attempt) := by
  cases h with
  | entered record attempt hmarks =>
    obtain ⟨rfl, rfl, rfl⟩ := Event.entered.inj (List.mem_singleton.mp hevent)
    exact ⟨rfl, record, rfl, rfl, rfl⟩
  | answered => cases List.mem_singleton.mp hevent
  | given => cases List.mem_singleton.mp hevent
  | released => cases List.mem_singleton.mp hevent
  | _ => cases hevent

theorem Passage.returned_event (hevent : .returned own runId answer ∈ events) : own = session ∧ after = none ∧
      ∃ call, before = some call ∧ (call.outside ∨ call = .releasing runId answer) := by
  cases h with
  | given call own answer hcall hmarks =>
    obtain ⟨rfl, rfl, rfl⟩ := Event.returned.inj (List.mem_singleton.mp hevent)
    exact ⟨rfl, rfl, call, rfl, .inl hcall⟩
  | released own answer hmarks =>
    obtain ⟨rfl, rfl, rfl⟩ := Event.returned.inj (List.mem_singleton.mp hevent)
    exact ⟨rfl, rfl, _, rfl, .inr rfl⟩
  | answered => cases List.mem_singleton.mp hevent
  | entered => cases List.mem_singleton.mp hevent
  | _ => cases hevent

theorem Passage.inside {record : PlanRunRecord}
    (hafter : after = some (.executing record attempt) ∨ after = some (.saving record attempt)) :
    .entered session record.runId attempt ∈ events ∨ ∃ earlier : PlanRunRecord,
      earlier.runId = record.runId ∧ before = some (.executing earlier attempt) := by
  cases h with
  | opened next hidle hfresh =>
    rcases hafter with rfl | rfl
    · exact (hfresh _ rfl).elim
    · exact (hfresh _ rfl).elim
  | outside call next hcall hnext =>
    rcases hafter with hafter | hafter
    · cases hafter
      exact hnext.elim
    · cases hafter
      exact hnext.elim
  | entered own attempt hmarks =>
    rcases hafter with hafter | hafter
    · cases hafter
      exact .inl (List.mem_singleton.mpr rfl)
    · cases hafter
  | reported earlier next attempt hid hmarks =>
    rcases hafter with hafter | hafter
    · cases hafter
      exact .inr ⟨earlier, hid.symm, rfl⟩
    · cases hafter
  | finished earlier next attempt hid hmarks =>
    rcases hafter with hafter | hafter
    · cases hafter
    · cases hafter
      exact .inr ⟨earlier, hid.symm, rfl⟩
  | _ => rcases hafter with hafter | hafter <;> cases hafter

theorem Passage.settling (hafter : after = some (.settling runId answer)) : answer.saved ∧
      ∃ (record : PlanRunRecord) (attempt : Attempt), record.runId = runId ∧
        before = some (.saving record attempt) := by
  cases h with
  | opened next hidle hfresh =>
    subst hafter
    exact (hfresh _ rfl).elim
  | outside call next hcall hnext =>
    cases hafter
    exact hnext.elim
  | saved record attempt row =>
    cases hafter
    exact ⟨savedAnswer_saved record attempt, record, attempt, rfl, rfl⟩
  | _ => cases hafter

theorem Passage.events_length : events.length ≤ 1 := by
  cases h <;> simp

end

theorem Passes.mem_log (h : Passes runner w w' session events) {event : Event} :
    event ∈ w'.log ↔ event ∈ w.log ∨ event ∈ events := by
  rw [h.log, List.mem_append]

section Kept
variable (hlog : LogOk w) (hw : WorldOk runner w) (hmoves : Moves runner w w' session)
  (hpasses : Passes runner w w' session events)
include hlog hw hmoves hpasses

variable {own : ℕ} {runId : String}

theorem LogOk.entered_kept {attempt : Attempt} (hevent : .entered own runId attempt ∈ w'.log) :
    own < w'.sessions ∧ ∀ call, w'.calls own = some call → call.past runId attempt := by
  have hgrown := hmoves.sessions
  rcases hpasses.mem_log.mp hevent with hold | hnew
  · obtain ⟨hlive, hpast⟩ := hlog.entered own runId attempt hold
    refine ⟨by omega, fun call hcall => ?_⟩
    by_cases hown : own = session
    · subst hown
      exact hpasses.passage.past hlive hpast call hcall
    · rcases hmoves.others_cases hown hcall with hsame | ⟨hidle, -⟩
      · exact hpast call hsame
      · omega
  · obtain ⟨rfl, record, hid, hbefore, hafter⟩ := hpasses.passage.entered_event hnew
    have hlive := sessions_lt hw hbefore
    refine ⟨by omega, fun call hcall => ?_⟩
    rw [hafter] at hcall
    cases hcall
    exact ⟨hid, rfl⟩

theorem LogOk.inside_kept {record : PlanRunRecord} {attempt : Attempt}
    (hinside : w'.calls own = some (.executing record attempt) ∨ w'.calls own = some (.saving record attempt)) :
    .entered own record.runId attempt ∈ w'.log := by
  by_cases hown : own = session
  · subst hown
    rcases hpasses.passage.inside hinside with hnew | ⟨earlier, hid, hbefore⟩
    · exact hpasses.mem_log.mpr (.inr hnew)
    · exact hpasses.mem_log.mpr (.inl (hid ▸ hlog.inside own earlier attempt (.inl hbefore)))
  · refine hpasses.mem_log.mpr (.inl (hlog.inside own record attempt ?_))
    rcases hinside with hcall | hcall
    · rcases hmoves.others_cases hown hcall with hsame | ⟨-, hfresh⟩
      · exact .inl hsame
      · exact hfresh.elim
    · rcases hmoves.others_cases hown hcall with hsame | ⟨-, hfresh⟩
      · exact .inr hsame
      · exact hfresh.elim

theorem LogOk.settling_kept {answer : Answer} (hcall : w'.calls own = some (.settling runId answer)) :
    answer.saved ∧ ∃ attempt, .entered own runId attempt ∈ w'.log := by
  by_cases hown : own = session
  · subst hown
    obtain ⟨hsaved, record, attempt, rfl, hbefore⟩ := hpasses.passage.settling hcall
    exact ⟨hsaved, attempt, hpasses.mem_log.mpr (.inl (hlog.inside own record attempt (.inr hbefore)))⟩
  · rcases hmoves.others_cases hown hcall with hsame | ⟨-, hfresh⟩
    · obtain ⟨hsaved, attempt, hentered⟩ := hlog.settling own runId answer hsame
      exact ⟨hsaved, attempt, hpasses.mem_log.mpr (.inl hentered)⟩
    · exact hfresh.elim

theorem LogOk.returned_kept {answer : Answer}
    (hevent : .returned own runId answer ∈ w'.log) : own < w'.sessions ∧ w'.calls own = none := by
  have hgrown := hmoves.sessions
  rcases hpasses.mem_log.mp hevent with hold | hnew
  · obtain ⟨hlive, hnone⟩ := hlog.returned own runId answer hold
    refine ⟨by omega, ?_⟩
    by_cases hown : own = session
    · subst hown
      have hpassage := hpasses.passage
      rw [hnone] at hpassage
      generalize w'.calls own = after at hpassage
      cases hpassage with
      | opened next hidle => omega
    · rcases hmoves.others own hown with hsame | ⟨hidle, -⟩
      · rw [hsame, hnone]
      · omega
  · obtain ⟨rfl, hafter, call, hbefore, -⟩ := hpasses.passage.returned_event hnew
    have hlive := sessions_lt hw hbefore
    exact ⟨by omega, hafter⟩

theorem LogOk.once_kept (own : ℕ) : (w'.log.filter (Event.enters own)).length ≤ 1 := by
  rw [hpasses.log, List.filter_append]
  by_cases hentered : ∃ event ∈ events, event.enters own = true
  · obtain ⟨event, hevent, henters⟩ := hentered
    cases event with
    | entered other runId attempt =>
      have hother : other = own := by simpa [Event.enters] using henters
      subst hother
      obtain ⟨rfl, record, -, hbefore, -⟩ := hpasses.passage.entered_event hevent
      have hnever : w.log.filter (Event.enters other) = [] := by
        refine List.filter_eq_nil_iff.mpr fun event hold hby => ?_
        cases event with
        | entered own runId' attempt' =>
          have hown : own = other := by simpa [Event.enters] using hby
          subst hown
          exact (hlog.entered own runId' attempt' hold).2 _ hbefore
        | answered request answer => cases hby
        | returned own runId answer => cases hby
      rw [hnever, List.nil_append]
      exact (List.length_filter_le _ _).trans hpasses.passage.events_length
    | answered request answer => cases henters
    | returned other runId answer => cases henters
  · have hnone : events.filter (Event.enters own) = [] :=
      List.filter_eq_nil_iff.mpr fun event hevent henters => hentered ⟨event, hevent, henters⟩
    rw [hnone, List.append_nil]
    exact hlog.once own

theorem LogOk.moves : LogOk w' where
  entered := fun _ _ _ => hlog.entered_kept hw hmoves hpasses
  inside := fun _ _ _ => hlog.inside_kept hw hmoves hpasses
  settling := fun _ _ _ => hlog.settling_kept hw hmoves hpasses
  returned := fun _ _ _ => hlog.returned_kept hw hmoves hpasses
  once := hlog.once_kept hw hmoves hpasses

end Kept

theorem start_logOk : LogOk World.start where
  entered := fun _ _ _ h => by cases h
  inside := fun _ _ _ h => by rcases h with h | h <;> cases h
  settling := fun _ _ _ h => by cases h
  returned := fun _ _ _ h => by cases h
  once := fun _ => Nat.zero_le _

end Log

end AvenOS.ActorRunner
