import AvenOS.ActorRunner.RunnerMoves

/-! # Every step moves one session

One lemma for each statement, and from them: whatever the steps, every stored record comes from the
one it replaced. -/
namespace AvenOS.ActorRunner
open Actors LabelledRun

section Steps
variable {runner : Runner} {w w' : World} {session : ℕ} {tick : Tick}

/-! ## Calls that read -/

variable {runId : String} {answer : Answer} {call : Call} {record : PlanRunRecord}

theorem callOk_releasing (hlocked : w.locks (runner.lockKey runId) = some session) :
    CallOk runner w session (.releasing runId answer) :=
  ⟨by rintro _ ⟨⟩; exact hlocked, trivial⟩

theorem callOk_unlocked (hholds : call.holds = none) (hbased : Based w call) : CallOk runner w session call :=
  ⟨by simp [hholds], hbased⟩

variable {unsettled : List String} {log : List Event} {attempt : Attempt} {action : Action}

theorem moves_end (hw : WorldOk runner w) (hlive : session < w.sessions) : Moves runner w
      { w with calls := Function.update w.calls session none, executionUnsettled := unsettled, log } session :=
  moves_call hw hlive (by simp)

theorem moves_next (hw : WorldOk runner w) {c : Call} (hlive : session < w.sessions)
    (hown : CallOk runner w session c) : Moves runner w
      { w with calls := Function.update w.calls session (some c), executionUnsettled := unsettled, log } session :=
  moves_call hw hlive (by rintro _ ⟨⟩; exact hown)

theorem startingStep_moves (hw : WorldOk runner w) (hlive : session < w.sessions)
    (request : PlanRunStartRequest) : Moves runner w (startingStep runner w session request) session := by
  unfold startingStep
  cases admitted request with
  | error message => exact moves_end hw hlive
  | ok _ =>
    dsimp only
    split
    · exact moves_end hw hlive
    · exact moves_next (c := .inserting request) hw hlive (callOk_unlocked rfl trivial)

theorem replayingStep_moves (hw : WorldOk runner w) (hlive : session < w.sessions)
    (request : PlanRunStartRequest) : Moves runner w (replayingStep runner w session request) session := by
  unfold replayingStep
  cases w.priorRun request with
  | none => exact moves_end hw hlive
  | some prior =>
    dsimp only
    split <;> exact moves_end hw hlive

theorem fencingStep_moves (hw : WorldOk runner w) (hlive : session < w.sessions) (runId : String)
    (purpose : Purpose) : Moves runner w (fencingStep runner w session runId purpose) session := by
  unfold fencingStep
  split
  · exact moves_end hw hlive
  · exact moves_next (c := .claiming runId purpose) hw hlive (callOk_unlocked rfl trivial)

theorem requiredContinuation_ok {continuationId : String} {index : ℕ}
    (h : requiredContinuation record continuationId = .ok index) : PendingAt record index := by
  unfold requiredContinuation at h
  split at h
  · cases h
  · rename_i found hfound
    cases h
    obtain ⟨hlt, hat, -⟩ := List.findIdx?_eq_some_iff_getElem.mp hfound
    simp only [Bool.and_eq_true] at hat
    exact ⟨_, List.getElem?_eq_getElem hlt, hat.2⟩

theorem prepareResume_based {submission : PlanRunContinuationSubmission}
    {now : String} (h : prepareResume record submission now = .ok call) {row : Row}
    (hstate : row.state = .waitingForInput) (hok : RowOk record.runId row)
    (hrecord : row.record = record) (hrow : w.runs record.runId = some row)
    (hlocked : w.locks (runner.lockKey record.runId) = some session) : CallOk runner w session call := by
  have hwaiting : record.state = .waitingForInput := by rw [← hrecord, ← hok.state, hstate]
  unfold prepareResume at h
  cases hindex : requiredContinuation record submission.continuationId with
  | error e =>
    rw [hindex] at h
    cases h
  | ok index =>
    have hpending := requiredContinuation_ok hindex
    rw [hindex] at h
    cases submission with
    | postpone requestId continuationId =>
      cases h
      refine ⟨by rintro _ ⟨⟩; exact hlocked, record, index, now, hwaiting, hpending, rfl,
        by simp [hrow], fun row' hrow' _ _ => ?_⟩
      rw [hrow] at hrow'
      cases hrow'
      exact hrecord
    | submit requestId continuationId kind value =>
      obtain ⟨continuation, hat, hcan⟩ := hpending
      simp only [bind, Except.bind, hat] at h
      by_cases hkind : kind ≠ continuation.kind
      · rw [if_pos hkind] at h
        cases h
      · rw [if_neg hkind] at h
        cases h
        refine ⟨by rintro _ ⟨⟩; exact hlocked, ⟨hwaiting, continuation, hat, hcan⟩, row, hrow, .inr ⟨?_, hrecord⟩⟩
        simp [savable, hstate, hok.revision, hrecord]

theorem loadingStep_moves (hw : WorldOk runner w) (hlive : session < w.sessions)
    {purpose : Purpose} (hlocked : w.locks (runner.lockKey runId) = some session) :
    Moves runner w (loadingStep w session tick runId purpose) session := by
  have hrelease : ∀ answer, Moves runner w (w.setCall session (.releasing runId answer)) session :=
    fun answer => moves_next hw hlive (callOk_releasing hlocked)
  unfold loadingStep
  cases purpose with
  | execute =>
    dsimp only
    cases hfound : (w.runs runId).filter fun row => row.state = .accepted with
    | none => exact hrelease _
    | some row =>
      obtain ⟨hrow, hstate⟩ := Option.filter_eq_some_iff.mp hfound
      have hok := hw.table.rows runId row hrow
      rw [← hok.runId] at hrow hlocked
      exact moves_next (c := .marking row.record .accepted) hw hlive
        ⟨by rintro _ ⟨⟩; exact hlocked, hok.state.symm.trans (of_decide_eq_true hstate), row, hrow, .inr ⟨hstate, rfl⟩⟩
  | resume submission =>
    dsimp only
    cases submission.portable with
    | error message => exact hrelease _
    | ok _ =>
      dsimp only
      cases hfound : (w.runs runId).filter fun row => row.state = .waitingForInput with
      | none => exact hrelease _
      | some row =>
        obtain ⟨hrow, hstate⟩ := Option.filter_eq_some_iff.mp hfound
        have hok := hw.table.rows runId row hrow
        dsimp only
        cases hprepare : prepareResume row.record submission tick.now with
        | error message => exact hrelease _
        | ok call =>
          have hid := hok.runId
          rw [← hid] at hrow hlocked hok
          exact moves_next hw hlive (prepareResume_based hprepare (of_decide_eq_true hstate) hok rfl hrow hlocked)

theorem cancellingStep_moves (hw : WorldOk runner w) (hlive : session < w.sessions)
    (runId : String) : Moves runner w (cancellingStep w session tick runId) session := by
  unfold cancellingStep
  cases hrow : w.runs runId with
  | none => exact moves_end hw hlive
  | some row =>
    dsimp only
    by_cases hcancelled : row.record.state = .cancelled
    · rw [if_pos hcancelled]
      exact moves_end hw hlive
    · rw [if_neg hcancelled]
      cases hallowed : assertPlanRunTransition row.record.state .cancelled with
      | error message => exact moves_end hw hlive
      | ok _ =>
        have hok := hw.table.rows runId row hrow
        rw [← hok.runId] at hrow
        refine moves_next (c := .withdrawing (withdrawn row.record tick.now)) hw hlive
          (callOk_unlocked rfl ⟨row.record, tick.now, hcancelled, hallowed,
          rfl, by simp [hrow], ?_⟩)
        intro row' hrow'
        rw [hrow] at hrow'
        cases hrow'
        exact ⟨hok.revision.ge, fun _ => rfl⟩

/-! ## The lock -/

theorem claimingStep_moves (hw : WorldOk runner w) (hlive : session < w.sessions) (runId : String)
    (purpose : Purpose) : Moves runner w (claimingStep runner w session runId purpose) session := by
  unfold claimingStep
  cases hlock : w.locks (runner.lockKey runId) with
  | some holder => exact moves_end hw hlive
  | none =>
    refine moves_lock hw hlive (by simp [hlock]) ?_
    rintro _ ⟨⟩
    refine ⟨?_, trivial⟩
    rintro _ ⟨⟩
    exact Function.update_self _ _ _

theorem releasingStep_moves (hw : WorldOk runner w) (hlive : session < w.sessions) (hlocked : w.locks (runner.lockKey runId) = some session) :
    Moves runner w (releasingStep runner w session runId answer) session := by
  refine moves_lock hw hlive (fun other hother hheld => ?_) (by simp)
  rw [hlocked] at hheld
  exact hother (Option.some.inj hheld).symm

/-! ## The mark -/

theorem beginExecution_some {marked : World} (h : w.beginExecution runner runId = some marked) :
    marked = w.setUnsettled marked.executionUnsettled := by
  unfold World.beginExecution at h
  split at h
  · split at h
    · cases h
      rfl
    · cases h
  · cases h
    rfl

theorem markingStep_moves (hw : WorldOk runner w) (hlive : session < w.sessions)
    (hok : CallOk runner w session (.marking record attempt)) :
    Moves runner w (markingStep runner w session tick record attempt) session := by
  unfold markingStep
  cases hmark : w.beginExecution runner record.runId with
  | none =>
    exact moves_next hw hlive (callOk_releasing (hok.locked _ rfl))
  | some marked =>
    rw [beginExecution_some hmark]
    dsimp only
    obtain ⟨hanswers, hcurrent⟩ := hok.based
    cases hmay : mayRun record attempt with
    | error message =>
      exfalso
      cases attempt with
      | accepted => cases hmay
      | resumed index kind expectedRevision =>
        simp only [mayRun, hanswers.1] at hmay
        cases hmay
    | ok _ =>
      exact moves_next (c := .executing record attempt) hw hlive
        ⟨by rintro _ ⟨⟩; exact hok.locked _ rfl, hanswers, hcurrent⟩

theorem settlingStep_moves (hw : WorldOk runner w) (hlive : session < w.sessions) (hlocked : w.locks (runner.lockKey runId) = some session) :
    Moves runner w (settlingStep runner w session runId answer) session := by
  unfold settlingStep
  dsimp only
  split <;>
    exact moves_next hw hlive (callOk_releasing hlocked)

/-! ## Rows that are replaced -/

theorem savingStep_moves (hw : WorldOk runner w) (hlive : session < w.sessions)
    (hok : CallOk runner w session (.saving record attempt)) :
    Moves runner w (savingStep w session record attempt) session := by
  have hlocked := hok.locked _ rfl
  obtain ⟨base, outcome, moment, hanswers, hcurrent, hrecord⟩ := hok.based
  have hchange : Change base record := hrecord ▸ .concluded base attempt outcome moment hanswers
  unfold savingStep
  cases hfound : (w.runs record.runId).filter fun row => savable row attempt with
  | none => exact moves_next hw hlive (callOk_releasing hlocked)
  | some row =>
    obtain ⟨hrow, hsavable⟩ := Option.filter_eq_some_iff.mp hfound
    have hbase : row.record = base := hcurrent.stored (hchange.runId ▸ hrow) hsavable
    refine moves_write hw hlive hrow (hbase ▸ hchange) (.inr hlocked) ?_
    rintro _ ⟨⟩
    exact ⟨by rintro _ ⟨⟩; exact hlocked, trivial⟩

theorem postponingStep_moves (hw : WorldOk runner w) (hlive : session < w.sessions) {expectedRevision : ℕ}
    (hok : CallOk runner w session (.postponing record expectedRevision)) :
    Moves runner w (postponingStep w session record expectedRevision) session := by
  have hlocked := hok.locked _ rfl
  obtain ⟨base, index, now, hstate, hpending, rfl, hsome, hcurrent⟩ := hok.based
  unfold postponingStep
  cases hfound : (w.runs (postponed base index now).runId).filter fun row =>
      row.state = .waitingForInput && row.revision = expectedRevision with
  | none => exact moves_next hw hlive (callOk_releasing hlocked)
  | some row =>
    obtain ⟨hrow, hguard⟩ := Option.filter_eq_some_iff.mp hfound
    simp only [Bool.and_eq_true, decide_eq_true_eq] at hguard
    have hbase : row.record = base := hcurrent row hrow hguard.1 hguard.2
    have hchange : Change row.record (postponed base index now) := hbase ▸ .postponed base index now hstate hpending
    refine moves_write hw hlive hrow hchange (.inr hlocked) ?_
    rintro _ ⟨⟩
    exact ⟨by rintro _ ⟨⟩; exact hlocked, trivial⟩

theorem withdrawingStep_moves (hw : WorldOk runner w) (hlive : session < w.sessions) (hok : CallOk runner w session (.withdrawing record)) :
    Moves runner w (withdrawingStep w session record) session := by
  obtain ⟨base, now, hstate, hallowed, rfl, hsome, hcurrent⟩ := hok.based
  unfold withdrawingStep
  cases hfound : (w.runs (withdrawn base now).runId).filter fun row =>
      row.revision = (withdrawn base now).revision - 1 with
  | none => exact moves_end hw hlive
  | some row =>
    obtain ⟨hrow, hguard⟩ := Option.filter_eq_some_iff.mp hfound
    have hbase : row.record = base := (hcurrent row hrow).2 (of_decide_eq_true hguard)
    have hchange : Change row.record (withdrawn base now) := hbase ▸ .withdrawn base now hstate hallowed
    exact moves_write hw hlive hrow hchange (.inl rfl) (by simp)

theorem reportingStep_moves (hw : WorldOk runner w) {progress : Record} (hcall : w.calls session = some call)
    (h : reportingStep w session tick progress call = some w') : Moves runner w w' session := by
  have hlive := sessions_lt hw hcall
  have hok := hw.calls session call hcall
  unfold reportingStep at h
  cases call with
  | executing record attempt =>
    cases attempt with
    | resumed index kind expectedRevision => cases h
    | accepted =>
      obtain ⟨hanswers, hcurrent⟩ := hok.based
      have hlocked := hok.locked _ rfl
      have hstate : record.state = .accepted := hanswers
      dsimp only at h
      cases hportable : assertPortableRunValue (.obj progress) "$" with
      | error e =>
        simp only [hportable] at h
        cases h
        have hnext : Moves runner w { w with calls := Function.update w.calls session (some (.executing record .accepted)) } session :=
          moves_next hw hlive hok
        rwa [Function.update_eq_self_iff.mpr hcall.symm] at hnext
      | ok _ =>
        simp only [hportable] at h
        cases hfound : (w.runs record.runId).filter fun row => row.state = .accepted with
        | none =>
          simp only [hfound] at h
          cases h
          obtain ⟨row, hrow, hcancelled⟩ := hcurrent.cancelled hfound
          exact moves_next (c := .executing (reported record progress tick.now) .accepted) hw hlive
            ⟨by rintro _ ⟨⟩; exact hlocked, hstate, row, hrow, .inl hcancelled⟩
        | some row =>
          simp only [hfound] at h
          cases h
          obtain ⟨hrow, haccepted⟩ := Option.filter_eq_some_iff.mp hfound
          have hrecord : row.record = record := hcurrent.stored hrow haccepted
          have hwrite : ({ row with
              revision := (reported record progress tick.now).revision
              record := reported record progress tick.now } : Row) =
              row.write (reported record progress tick.now) := by
            have hsame : row.state = (reported record progress tick.now).state :=
              (of_decide_eq_true haccepted).trans hstate.symm
            rw [Row.write, ← hsame]
          rw [hwrite]
          refine moves_write hw hlive hrow (hrecord ▸ .reported record progress tick.now hstate) (.inr hlocked) ?_
          rintro _ ⟨⟩
          have hwritten : Function.update w.runs record.runId
              (some (row.write (reported record progress tick.now))) record.runId =
              some (row.write (reported record progress tick.now)) := Function.update_self _ _ _
          exact ⟨by rintro _ ⟨⟩; exact hlocked, hstate, _, hwritten, .inr ⟨decide_eq_true hstate, rfl⟩⟩
  | _ => cases h

theorem finishingStep_moves (hw : WorldOk runner w) {outcome : Except String PlanRunExecutionResult}
    (hcall : w.calls session = some call)
    (h : finishingStep w session tick outcome call = some w') : Moves runner w w' session := by
  have hok := hw.calls session call hcall
  unfold finishingStep at h
  cases call with
  | executing record attempt =>
    cases h
    obtain ⟨hanswers, hcurrent⟩ := hok.based
    have hid := (Change.concluded record attempt outcome tick hanswers).runId
    refine moves_next (c := .saving (conclude record attempt outcome tick) attempt) hw
      (sessions_lt hw hcall) ⟨?_, record, outcome, tick, hanswers, hcurrent, rfl⟩
    rintro _ ⟨⟩
    rw [hid]
    exact hok.locked _ rfl
  | _ => cases h

/-! ## New rows and lost processes -/

theorem insertingStep_moves (hw : WorldOk runner w) (hlive : session < w.sessions)
    {request : PlanRunStartRequest} (h : insertingStep runner w session tick request = some w') :
    Moves runner w w' session := by
  unfold insertingStep at h
  cases hprior : w.priorRun request with
  | some prior =>
    simp only [hprior] at h
    cases h
    exact moves_next (c := .replaying request) hw hlive (callOk_unlocked rfl trivial)
  | none =>
    simp only [hprior] at h
    by_cases hused : (w.runs tick.uuid).isSome = true
    · rw [if_pos hused] at h
      cases h
    · rw [if_neg hused] at h
      cases h
      have habsent : w.runs tick.uuid = none := by simpa using hused
      refine
        { sessions := Nat.le_succ _
          idle := fun other hother => ?_
          others := fun other hother => ?_
          own := fun call hcall => ?_
          locks := fun _ _ _ hheld => hheld
          rows := fun runId => ?_
          ids := fun runId => ?_
          single := fun runId runId' hnone hnone' hsome hsome' => ?_ }
      · have hlt : w.sessions + 1 ≤ other := hother
        change Function.update (Function.update w.calls session none) w.sessions
          (some (Call.fencing tick.uuid .execute)) other = none
        rw [Function.update_of_ne (by omega), update_idle hw hlive (by omega)]
      · by_cases hnew : other = w.sessions
        · subst hnew
          exact .inr ⟨le_refl _, _, Function.update_self _ _ _, trivial⟩
        · left
          change Function.update (Function.update w.calls session none) w.sessions
            (some (Call.fencing tick.uuid .execute)) other = w.calls other
          rw [Function.update_of_ne hnew, Function.update_of_ne hother]
      · have hnone : Function.update (Function.update w.calls session none) w.sessions
            (some (Call.fencing tick.uuid .execute)) session = some call := hcall
        rw [Function.update_of_ne (by omega), Function.update_self] at hnone
        cases hnone
      · by_cases hrun : runId = tick.uuid
        · subst hrun
          exact .inserted request tick.now habsent (Function.update_self _ _ _) hprior
        · exact .same (Function.update_of_ne hrun _ _)
      · change runId ∈ w.ids ++ [tick.uuid] ↔ runId ∈ w.ids ∨ w.runs runId = none ∧ (Function.update w.runs tick.uuid
            (some (newRow runner request tick.uuid tick.now)) runId).isSome = true
        by_cases hrun : runId = tick.uuid
        · subst hrun
          simp [habsent]
        · rw [Function.update_of_ne hrun]
          simp only [List.mem_append, List.mem_singleton, hrun, or_false]
          constructor
          · exact .inl
          · rintro (hmem | ⟨hnone, hsome⟩)
            · exact hmem
            · rw [hnone] at hsome
              cases hsome
      · have hnew : ∀ id, w.runs id = none → (Function.update w.runs tick.uuid
            (some (newRow runner request tick.uuid tick.now)) id).isSome = true → id = tick.uuid := by
          intro id habsent' hpresent
          by_contra hid
          rw [Function.update_of_ne hid, habsent'] at hpresent
          cases hpresent
        rw [hnew runId hnone hsome, hnew runId' hnone' hsome']

theorem crashed_moves (hw : WorldOk runner w) : Moves runner w (crashed w session) session where
  sessions := le_refl _
  idle := fun other hother => by
    change Function.update w.calls session none other = none
    by_cases hsame : other = session
    · rw [hsame, Function.update_self]
    · rw [Function.update_of_ne hsame, hw.idle other hother]
  others := fun other hother => .inl (Function.update_of_ne hother _ _)
  own := fun call hcall => by
    have hnone : Function.update w.calls session none session = some call := hcall
    rw [Function.update_self] at hnone
    cases hnone
  locks := fun key other hother hheld => by
    have hne : w.locks key ≠ some session := by
      rw [hheld]
      simpa using hother
    change (if w.locks key = some session then none else w.locks key) = some other
    rw [if_neg hne, hheld]
  rows := fun _ => .same rfl
  ids := ids_kept w (crashed w session) rfl fun _ hnone => hnone
  single := single_kept w (crashed w session) fun _ hnone => hnone

/-! ## The machine -/

theorem advance_moves (hw : WorldOk runner w) (hcall : w.calls session = some call)
    (h : advance runner w session tick call = some w') : Moves runner w w' session := by
  have hlive := sessions_lt hw hcall
  have hok := hw.calls session call hcall
  cases call with
  | starting request => cases h; exact startingStep_moves hw hlive request
  | inserting request => exact insertingStep_moves hw hlive h
  | replaying request => cases h; exact replayingStep_moves hw hlive request
  | fencing runId purpose => cases h; exact fencingStep_moves hw hlive runId purpose
  | claiming runId purpose => cases h; exact claimingStep_moves hw hlive runId purpose
  | loading runId purpose => cases h; exact loadingStep_moves hw hlive (hok.locked _ rfl)
  | marking record attempt => cases h; exact markingStep_moves hw hlive hok
  | executing record attempt => cases h
  | saving record attempt => cases h; exact savingStep_moves hw hlive hok
  | postponing record expectedRevision => cases h; exact postponingStep_moves hw hlive hok
  | settling runId answer => cases h; exact settlingStep_moves hw hlive (hok.locked _ rfl)
  | releasing runId answer => cases h; exact releasingStep_moves hw hlive (hok.locked _ rfl)
  | cancelling runId => cases h; exact cancellingStep_moves hw hlive runId
  | withdrawing record => cases h; exact withdrawingStep_moves hw hlive hok

def Action.actor (w : World) : Action → ℕ
  | .advance session _ => session
  | .report session _ _ => session
  | .finish session _ _ => session
  | .crash session => session
  | _ => w.sessions

theorem step_moves (hw : WorldOk runner w) (h : step runner w action = some w') :
    Moves runner w w' (action.actor w) := by
  cases action with
  | start request => cases h; exact moves_open hw trivial
  | execute runId => cases h; exact moves_open hw trivial
  | resume runId submission => cases h; exact moves_open hw trivial
  | cancel runId => cases h; exact moves_open hw trivial
  | setEnabled enabled => cases h; exact moves_stay hw
  | advance session tick =>
    obtain ⟨call, hcall, hnext⟩ := Option.bind_eq_some_iff.mp h
    exact advance_moves hw hcall hnext
  | report session tick progress =>
    obtain ⟨call, hcall, hnext⟩ := Option.bind_eq_some_iff.mp h
    exact reportingStep_moves hw hcall hnext
  | finish session tick outcome =>
    obtain ⟨call, hcall, hnext⟩ := Option.bind_eq_some_iff.mp h
    exact finishingStep_moves hw hcall hnext
  | crash session => cases h; exact crashed_moves hw

theorem step_worldOk (hw : WorldOk runner w) (h : step runner w action = some w') : WorldOk runner w' :=
  (step_moves hw h).worldOk hw

theorem start_worldOk : WorldOk runner World.start where
  table :=
    { rows := fun _ _ hrow => by cases hrow
      ids := fun _ => by simp [World.start]
      unique := fun _ _ _ _ hrow => by cases hrow }
  idle := fun _ _ => rfl
  calls := fun _ _ hcall => by cases hcall

theorem run_worldOk {actions : List Action} (h : run (step runner) World.start actions = some w) : WorldOk runner w :=
  run_invariant (P := fun _ => True) (fun _ _ _ _ hw hstep => step_worldOk hw hstep)
    (fun _ _ => trivial) start_worldOk h

end Steps

end AvenOS.ActorRunner
