import AvenOS.ActorRunner.RunnerLog
import AvenOS.ActorRunner.RunLifecycle

/-! # The execution barrier

With the barrier on, the unsettled runs are those whose attempt has started without a durable end: it
is in flight, or a cancellation overtook it. -/
namespace AvenOS.ActorRunner
open Actors LabelledRun

def Call.marks : Call → Option String
  | .executing record _ => some record.runId
  | .saving record _ => some record.runId
  | .settling runId _ => some runId
  | _ => none

def Call.attempts : Call → Option String
  | .marking record _ => some record.runId
  | call => call.marks

/-- A session that has marked a run has an attempt in hand, or is about to remove its mark. -/
def InFlight (w : World) (session : ℕ) (runId : String) : Prop :=
  (w.calls session).bind Call.marks = some runId

/-- A session has entered an attempt and found that its run was cancelled meanwhile. -/
def Overtaken (w : World) (session : ℕ) (runId : String) : Prop :=
  ∃ attempt, .entered session runId attempt ∈ w.log ∧
    (w.calls session = some (.releasing runId (overtakenAnswer attempt)) ∨
      .returned session runId (overtakenAnswer attempt) ∈ w.log)

variable {call : Call}

theorem Call.marks_attempts {runId : String} (h : call.marks = some runId) : call.attempts = some runId := by
  cases call with
  | marking record attempt => cases h
  | _ => exact h

theorem Call.attempts_holds {runId : String} (h : call.attempts = some runId) : call.holds = some runId := by
  cases call with
  | marking record attempt => exact h
  | executing record attempt => exact h
  | saving record attempt => exact h
  | settling own answer => exact h
  | _ => cases h

theorem Call.fresh.marks (h : call.fresh) : call.marks = none := by
  cases call with
  | starting request => rfl
  | fencing runId purpose => rfl
  | cancelling runId => rfl
  | _ => exact h.elim

theorem Call.outside.attempts (h : call.outside) : call.attempts = none := by
  cases call with
  | marking record attempt => exact h.elim
  | executing record attempt => exact h.elim
  | saving record attempt => exact h.elim
  | settling runId answer => exact h.elim
  | releasing runId answer => exact h.elim
  | _ => rfl

theorem Call.outside.marks (h : call.outside) : call.marks = none := by
  cases hmarks : call.marks with
  | none => rfl
  | some runId =>
    have hattempts := Call.marks_attempts hmarks
    rw [h.attempts] at hattempts
    cases hattempts

section Barrier
variable {runner : Runner} {w w' : World} {session : ℕ} {events : List Event}

/-! ## One attempt for a run -/

variable {other own : ℕ} {runId : String} {before after : Option Call}

theorem attempts_exclusive (hw : WorldOk runner w) {one : ℕ} {call call' : Call}
    (hcall : w.calls one = some call) (hcall' : w.calls other = some call')
    (hattempts : call.attempts = some runId) (hattempts' : call'.attempts = some runId) : one = other := by
  have hlocked := (hw.calls one call hcall).locked runId (Call.attempts_holds hattempts)
  have hlocked' := (hw.calls other call' hcall').locked runId (Call.attempts_holds hattempts')
  rw [hlocked] at hlocked'
  exact Option.some.inj hlocked'

theorem inFlight_exclusive (hw : WorldOk runner w) {one : ℕ}
    (h : InFlight w one runId) (h' : InFlight w other runId) : one = other := by
  obtain ⟨call, hcall, hmarks⟩ := Option.bind_eq_some_iff.mp h
  obtain ⟨call', hcall', hmarks'⟩ := Option.bind_eq_some_iff.mp h'
  exact attempts_exclusive hw hcall hcall' (Call.marks_attempts hmarks) (Call.marks_attempts hmarks')

theorem inFlight_others (hw : WorldOk runner w) (hmoves : Moves runner w w' session)
    (hother : other ≠ session) : InFlight w' other runId ↔ InFlight w other runId := by
  unfold InFlight
  rcases hmoves.others other hother with hsame | ⟨hidle, call, hcall, hfresh⟩
  · rw [hsame]
  · rw [hcall, hw.idle other hidle]
    simp [hfresh.marks]

/-! ## Attempts that are overtaken -/

theorem Overtaken.kept (hlog : LogOk w) (hmoves : Moves runner w w' session)
    (hpasses : Passes runner w w' session events) (h : Overtaken w own runId) : Overtaken w' own runId := by
  obtain ⟨attempt, hentered, hend⟩ := h
  refine ⟨attempt, hpasses.mem_log.mpr (.inl hentered), ?_⟩
  rcases hend with hcall | hreturned
  · by_cases hown : own = session
    · subst hown
      have hpassage := hpasses.passage
      rw [hcall] at hpassage
      right
      refine hpasses.mem_log.mpr (.inr ?_)
      generalize w'.calls own = after at hpassage
      cases hpassage with
      | outside call next hout => exact hout.elim
      | answered call request answer hout => exact hout.elim
      | given call own answer hout => exact hout.elim
      | refused call own answer hout =>
        rcases hout with hout | ⟨record, attempt, hmarking⟩
        · exact hout.elim
        · cases hmarking
      | released own answer => exact List.mem_singleton.mpr rfl
    · left
      rcases hmoves.others own hown with hsame | ⟨hidle, -⟩
      · rw [hsame, hcall]
      · have hlive := (hlog.entered own runId attempt hentered).1
        omega
  · exact .inr (hpasses.mem_log.mpr (.inl hreturned))

/-- The step in which an attempt finds its run cancelled. -/
structure Overtakes (w w' : World) (session : ℕ) (runId : String) : Prop where
  before : ∃ (record : PlanRunRecord) (attempt : Attempt),
    w.calls session = some (.saving record attempt) ∧ record.runId = runId
  after : ∃ answer, w'.calls session = some (.releasing runId answer)
  cancelled : ∃ row, w'.runs runId = some row ∧ row.state = .cancelled

theorem Passage.overtakes {attempt own : Attempt} (h : Passage runner w w' session before after events)
    (hpast : ∀ call, before = some call → call.past runId own)
    (hsettling : ∀ answer, before = some (.settling runId answer) → answer.saved)
    (hbefore : w.calls session = before) (hcalls : w'.calls session = after)
    (hafter : after = some (.releasing runId (overtakenAnswer attempt))) : Overtakes w w' session runId := by
  cases h with
  | opened next hidle hfresh =>
    subst hafter
    exact (hfresh _ rfl).elim
  | outside call next hcall => exact absurd hcall (hpast _ rfl).not_outside
  | refused call own answer hcall =>
    rcases hcall with hout | ⟨record, attempt, rfl⟩
    · exact absurd hout (hpast _ rfl).not_outside
    · exact (hpast _ rfl).elim
  | overtaken record attempt' row hrow hcancelled =>
    have hid : record.runId = runId := (hpast _ rfl).1
    subst hid
    exact ⟨⟨record, attempt', hbefore, rfl⟩, ⟨_, hcalls⟩, row, hrow, hcancelled⟩
  | settled own answer =>
    obtain ⟨rfl, rfl⟩ := Call.releasing.inj (Option.some.inj hafter)
    exact absurd (hsettling _ rfl) (overtakenAnswer_not_saved attempt)
  | _ => cases hafter

theorem Overtaken.back (hlog : LogOk w) (hw : WorldOk runner w) (hmoves : Moves runner w w' session)
    (hpasses : Passes runner w w' session events) (h : Overtaken w' own runId) :
    Overtaken w own runId ∨ own = session ∧ Overtakes w w' session runId := by
  obtain ⟨attempt, hentered, hend⟩ := h
  have hlog' : LogOk w' := hlog.moves hw hmoves hpasses
  rcases hpasses.mem_log.mp hentered with hold | hnew
  · obtain ⟨hlive, hpast⟩ := hlog.entered own runId attempt hold
    rcases hend with hcall | hreturned
    · by_cases hown : own = session
      · subst hown
        exact .inr ⟨rfl, hpasses.passage.overtakes hpast
          (fun answer hsettling => (hlog.settling own runId answer hsettling).1) rfl rfl hcall⟩
      · rcases hmoves.others_cases hown hcall with hsame | ⟨-, hfresh⟩
        · exact .inl ⟨attempt, hold, .inl hsame⟩
        · exact hfresh.elim
    · left
      rcases hpasses.mem_log.mp hreturned with hold' | hnew
      · exact ⟨attempt, hold, .inr hold'⟩
      · obtain ⟨rfl, -, call, hcall, hout | rfl⟩ := hpasses.passage.returned_event hnew
        · exact absurd hout (hpast call hcall).not_outside
        · exact ⟨attempt, hold, .inl hcall⟩
  · -- an attempt that is entered now is not over
    exfalso
    obtain ⟨rfl, record, -, -, hafter⟩ := hpasses.passage.entered_event hnew
    rcases hend with hcall | hreturned
    · rw [hafter] at hcall
      cases hcall
    · have hnone := (hlog'.returned own runId _ hreturned).2
      rw [hafter] at hnone
      cases hnone

/-- What holds of overtaken runs, with the barrier on or off. -/
structure OvertakenOk (w : World) : Prop where
  cancelled : ∀ session runId, Overtaken w session runId →
    ∃ row, w.runs runId = some row ∧ row.state = .cancelled
  free : ∀ session call runId, w.calls session = some call → call.attempts = some runId →
    ∀ other, ¬ Overtaken w other runId

theorem RowMoves.cancelled (h : RowMoves runner w w' session runId)
    (hok : ∀ row, w.runs runId = some row → RowOk runId row)
    (hcancelled : ∃ row, w.runs runId = some row ∧ row.state = .cancelled) :
    ∃ row, w'.runs runId = some row ∧ row.state = .cancelled := by
  obtain ⟨row, hrow, hstate⟩ := hcancelled
  obtain ⟨later, hlater, hfollows⟩ := h.follows (hok row hrow) hrow
  exact ⟨later, hlater, by rw [hfollows.final (.inr hstate), hstate]⟩

theorem Passage.attempts (h : Passage runner w w' session before after events)
    (hafter : after.bind Call.attempts = some runId) : before.bind Call.attempts = some runId ∨
      ∃ row attempt, w.runs runId = some row ∧ savable row attempt = true := by
  cases h with
  | opened next hidle hfresh =>
    obtain ⟨call, rfl, hattempts⟩ := Option.bind_eq_some_iff.mp hafter
    rw [(hfresh call rfl).outside.attempts] at hattempts
    cases hattempts
  | outside call next hcall hnext =>
    rw [Option.bind_some, hnext.attempts] at hafter
    cases hafter
  | prepared own purpose record attempt row hrow hsavable =>
    cases hafter
    exact .inr ⟨row, attempt, hrow, hsavable⟩
  | entered record attempt hmarks => exact .inl hafter
  | reported record next attempt hid hmarks =>
    rw [← hafter]
    exact .inl (congrArg some hid.symm)
  | finished record next attempt hid hmarks =>
    rw [← hafter]
    exact .inl (congrArg some hid.symm)
  | saved record attempt row => exact .inl hafter
  | _ => cases hafter

theorem OvertakenOk.moves (hok : OvertakenOk w) (hlog : LogOk w) (hw : WorldOk runner w)
    (hmoves : Moves runner w w' session) (hpasses : Passes runner w w' session events) : OvertakenOk w' := by
  refine ⟨fun own runId hovertaken => ?_, fun own call runId hcall hattempts other hovertaken => ?_⟩
  · rcases hovertaken.back hlog hw hmoves hpasses with hold | ⟨-, hnew⟩
    · exact (hmoves.rows runId).cancelled (hw.table.rows runId) (hok.cancelled own runId hold)
    · exact hnew.cancelled
  · have hw' : WorldOk runner w' := hmoves.worldOk hw
    rcases hovertaken.back hlog hw hmoves hpasses with hold | ⟨-, hnew⟩
    · by_cases hown : own = session
      · subst hown
        have hafter : (w'.calls own).bind Call.attempts = some runId := by rw [hcall]; exact hattempts
        rcases hpasses.passage.attempts hafter with hbefore | ⟨row, attempt, hrow, hsavable⟩
        · obtain ⟨before, hbefore, hattempts'⟩ := Option.bind_eq_some_iff.mp hbefore
          exact hok.free own before runId hbefore hattempts' other hold
        · obtain ⟨row', hrow', hcancelled⟩ := hok.cancelled other runId hold
          rw [hrow] at hrow'
          cases hrow'
          exact savable_not_cancelled hsavable hcancelled
      · rcases hmoves.others_cases hown hcall with hsame | ⟨-, hfresh⟩
        · exact hok.free own call runId hsame hattempts other hold
        · rw [hfresh.outside.attempts] at hattempts
          cases hattempts
    · -- the session that is overtaken has had the lock
      obtain ⟨record, attempt, hsaving, hid⟩ := hnew.before
      obtain ⟨answer, hreleasing⟩ := hnew.after
      by_cases hown : own = session
      · subst hown
        rw [hreleasing] at hcall
        cases hcall
        cases hattempts
      · rcases hmoves.others_cases hown hcall with hsame | ⟨-, hfresh⟩
        · exact hown (attempts_exclusive hw hsame hsaving hattempts (congrArg some hid))
        · rw [hfresh.outside.attempts] at hattempts
          cases hattempts

/-! ## The unsettled runs -/

/-- A run whose attempt has not ended durably. -/
def Unsettled (w : World) (runId : String) : Prop :=
  (∃ session, InFlight w session runId) ∨ ∃ session, Overtaken w session runId

inductive Marking (w w' : World) (session : ℕ) : Prop
  | kept (hmarks : w'.executionUnsettled = w.executionUnsettled)
      (hflight : ∀ runId, InFlight w' session runId ↔ InFlight w session runId)
  | entered (runId : String) (hfree : runId ∉ w.executionUnsettled)
      (hmarks : w'.executionUnsettled = w.executionUnsettled ++ [runId])
      (hbefore : ∀ other, ¬ InFlight w session other)
      (hafter : ∀ other, InFlight w' session other ↔ other = runId)
  | overtaken (runId : String) (hmarks : w'.executionUnsettled = w.executionUnsettled)
      (hbefore : ∀ other, InFlight w session other ↔ other = runId)
      (hafter : ∀ other, ¬ InFlight w' session other) (hovertaken : Overtaken w' session runId)
  | settled (runId : String) (answer : Answer)
      (hmarks : w'.executionUnsettled = w.executionUnsettled.filter (· ≠ runId))
      (hbefore : w.calls session = some (.settling runId answer))
      (hafter : ∀ other, ¬ InFlight w' session other)

theorem not_inFlight {call : Option Call} (hcall : w.calls own = call)
    (hmarks : call.bind Call.marks = none) (runId : String) : ¬ InFlight w own runId := by
  unfold InFlight
  rw [hcall, hmarks]
  exact nofun

theorem marking_kept (hbefore : w.calls session = before) (hafter : w'.calls session = after)
    (hsame : after.bind Call.marks = before.bind Call.marks)
    (hmarks : w'.executionUnsettled = w.executionUnsettled) : Marking w w' session := by
  refine .kept hmarks fun runId => ?_
  unfold InFlight
  rw [hbefore, hafter, hsame]

theorem Passage.marking (h : Passage runner w w' session before after events)
    (hbarrier : runner.customerExecutionBarrier = true) (hbefore : w.calls session = before)
    (hafter : w'.calls session = after) (hinside : ∀ (record : PlanRunRecord) (attempt : Attempt),
      before = some (.saving record attempt) → .entered session record.runId attempt ∈ w'.log) :
    Marking w w' session := by
  cases h with
  | opened next hidle hfresh hmarks =>
    refine marking_kept hbefore hafter ?_ hmarks
    cases after with
    | none => rfl
    | some call => exact (hfresh call rfl).marks
  | outside call next hcall hnext hmarks =>
    exact marking_kept hbefore hafter (hnext.marks.trans hcall.marks.symm) hmarks
  | answered call request answer hcall hmarks =>
    exact marking_kept hbefore hafter hcall.marks.symm hmarks
  | given call runId answer hcall hmarks =>
    exact marking_kept hbefore hafter hcall.marks.symm hmarks
  | prepared own purpose record attempt row hrow hsavable hid hmarks =>
    exact marking_kept hbefore hafter rfl hmarks
  | refused call runId answer hcall hmarks =>
    refine marking_kept hbefore hafter ?_ hmarks
    rcases hcall with hout | ⟨record, attempt, rfl⟩
    · exact hout.marks.symm
    · rfl
  | entered record attempt hmarks =>
    rw [if_pos hbarrier] at hmarks
    refine .entered record.runId hmarks.1 hmarks.2 (not_inFlight hbefore rfl) fun other => ?_
    unfold InFlight
    rw [hafter]
    exact ⟨fun h => (Option.some.inj h).symm, fun h => congrArg some h.symm⟩
  | reported record next attempt hid hmarks =>
    exact marking_kept hbefore hafter (congrArg some hid) hmarks
  | finished record next attempt hid hmarks =>
    exact marking_kept hbefore hafter (congrArg some hid) hmarks
  | saved record attempt row hrow hstate hmarks => exact marking_kept hbefore hafter rfl hmarks
  | overtaken record attempt row hrow hcancelled hmarks =>
    refine .overtaken record.runId hmarks (fun other => ?_) (not_inFlight hafter rfl)
      ⟨attempt, hinside record attempt rfl, .inl hafter⟩
    unfold InFlight
    rw [hbefore]
    exact ⟨fun h => (Option.some.inj h).symm, fun h => congrArg some h.symm⟩
  | settled runId answer hmarks =>
    rw [if_pos hbarrier] at hmarks
    exact .settled runId answer hmarks hbefore (not_inFlight hafter rfl)
  | released runId answer hmarks => exact marking_kept hbefore hafter rfl hmarks

theorem Overtakes.inFlight (h : Overtakes w w' session runId) :
    InFlight w session runId ∧ ∀ other, ¬ InFlight w' session other := by
  obtain ⟨record, attempt, hsaving, hid⟩ := h.before
  obtain ⟨answer, hreleasing⟩ := h.after
  refine ⟨?_, not_inFlight hreleasing rfl⟩
  unfold InFlight
  rw [hsaving]
  exact congrArg some hid

structure BarrierOk (w : World) : Prop where
  nodup : w.executionUnsettled.Nodup
  exact : ∀ runId, runId ∈ w.executionUnsettled ↔ Unsettled w runId

section Steps
variable (hw : WorldOk runner w) (hlog : LogOk w) (hmoves : Moves runner w w' session)
  (hpasses : Passes runner w w' session events)
include hw hlog hmoves hpasses

theorem unsettled_moves (runId : String) : Unsettled w' runId ↔
    (∃ other, other ≠ session ∧ InFlight w other runId) ∨ InFlight w' session runId ∨
      (∃ other, Overtaken w other runId) ∨ Overtaken w' session runId := by
  constructor
  · rintro (⟨own, hflight⟩ | ⟨own, hovertaken⟩)
    · by_cases hown : own = session
      · subst hown
        exact .inr (.inl hflight)
      · exact .inl ⟨own, hown, (inFlight_others hw hmoves hown).mp hflight⟩
    · rcases hovertaken.back hlog hw hmoves hpasses with hold | ⟨rfl, -⟩
      · exact .inr (.inr (.inl ⟨own, hold⟩))
      · exact .inr (.inr (.inr hovertaken))
  · rintro (⟨own, hown, hflight⟩ | hflight | ⟨own, hovertaken⟩ | hovertaken)
    · exact .inl ⟨own, (inFlight_others hw hmoves hown).mpr hflight⟩
    · exact .inl ⟨session, hflight⟩
    · exact .inr ⟨own, hovertaken.kept hlog hmoves hpasses⟩
    · exact .inr ⟨session, hovertaken⟩

theorem BarrierOk.moves (h : BarrierOk w) (hok : OvertakenOk w) (hmarking : Marking w w' session) : BarrierOk w' := by
  have hunsettled := unsettled_moves hw hlog hmoves hpasses
  -- an attempt that is overtaken has been in flight
  have hback : ∀ runId, Overtaken w' session runId → Overtaken w session runId ∨
      InFlight w session runId ∧ ∀ other, ¬ InFlight w' session other := fun runId hovertaken =>
    (hovertaken.back hlog hw hmoves hpasses).imp_right fun h => h.2.inFlight
  cases hmarking with
  | kept hmarks hflight =>
    refine ⟨hmarks ▸ h.nodup, fun runId => ?_⟩
    rw [hmarks, h.exact, hunsettled]
    constructor
    · rintro (⟨own, hown⟩ | hovertaken)
      · by_cases hsame : own = session
        · subst hsame
          exact .inr (.inl ((hflight runId).mpr hown))
        · exact .inl ⟨own, hsame, hown⟩
      · exact .inr (.inr (.inl hovertaken))
    · rintro (⟨own, -, hown⟩ | hown | hovertaken | hovertaken)
      · exact .inl ⟨own, hown⟩
      · exact .inl ⟨session, (hflight runId).mp hown⟩
      · exact .inr hovertaken
      · rcases hback runId hovertaken with hold | ⟨hin, hout⟩
        · exact .inr ⟨session, hold⟩
        · exact absurd ((hflight runId).mpr hin) (hout runId)
  | entered marked hfree hmarks hbefore hafter =>
    refine ⟨?_, fun runId => ?_⟩
    · rw [hmarks]
      exact List.nodup_append.mpr ⟨h.nodup, List.nodup_singleton _, fun one hone other hother => by
        rw [List.mem_singleton.mp hother]
        rintro rfl
        exact hfree hone⟩
    · rw [hmarks, List.mem_append, List.mem_singleton, h.exact, hunsettled, hafter]
      constructor
      · rintro ((⟨own, hown⟩ | hovertaken) | hsame)
        · refine .inl ⟨own, ?_, hown⟩
          rintro rfl
          exact hbefore runId hown
        · exact .inr (.inr (.inl hovertaken))
        · exact .inr (.inl hsame)
      · rintro (⟨own, -, hown⟩ | hsame | hovertaken | hovertaken)
        · exact .inl (.inl ⟨own, hown⟩)
        · exact .inr hsame
        · exact .inl (.inr hovertaken)
        · rcases hback runId hovertaken with hold | ⟨hin, -⟩
          · exact .inl (.inr ⟨session, hold⟩)
          · exact absurd hin (hbefore runId)
  | overtaken marked hmarks hbefore hafter hovertaken =>
    refine ⟨hmarks ▸ h.nodup, fun runId => ?_⟩
    rw [hmarks, h.exact, hunsettled]
    constructor
    · rintro (⟨own, hown⟩ | hold)
      · by_cases hsame : own = session
        · subst hsame
          rw [(hbefore runId).mp hown]
          exact .inr (.inr (.inr hovertaken))
        · exact .inl ⟨own, hsame, hown⟩
      · exact .inr (.inr (.inl hold))
    · rintro (⟨own, -, hown⟩ | hown | hold | hnew)
      · exact .inl ⟨own, hown⟩
      · exact absurd hown (hafter runId)
      · exact .inr hold
      · rcases hback runId hnew with hold | ⟨hin, -⟩
        · exact .inr ⟨session, hold⟩
        · exact .inl ⟨session, hin⟩
  | settled settled answer hmarks hbefore hafter =>
    have hflight : InFlight w session settled := by
      unfold InFlight
      rw [hbefore]
      rfl
    refine ⟨by rw [hmarks]; exact h.nodup.filter _, fun runId => ?_⟩
    rw [hmarks, List.mem_filter, decide_eq_true_eq, h.exact, hunsettled]
    constructor
    · rintro ⟨⟨own, hown⟩ | hold, hne⟩
      · refine .inl ⟨own, ?_, hown⟩
        rintro rfl
        exact hne (Option.some.inj (hown.symm.trans hflight))
      · exact .inr (.inr (.inl hold))
    · have hfree := hok.free session _ settled hbefore rfl
      rintro (⟨own, hother, hown⟩ | hown | ⟨own, hold⟩ | hnew)
      · refine ⟨.inl ⟨own, hown⟩, ?_⟩
        rintro rfl
        exact hother (inFlight_exclusive hw hown hflight)
      · exact absurd hown (hafter runId)
      · refine ⟨.inr ⟨own, hold⟩, ?_⟩
        rintro rfl
        exact hfree own hold
      · rcases hnew.back hlog hw hmoves hpasses with hold | ⟨-, htakes⟩
        · refine ⟨.inr ⟨session, hold⟩, ?_⟩
          rintro rfl
          exact hfree session hold
        · obtain ⟨record, attempt, hsaving, -⟩ := htakes.before
          rw [hbefore] at hsaving
          cases hsaving

end Steps

/-- What holds as long as no process is lost. -/
structure AttemptsOk (runner : Runner) (w : World) : Prop where
  world : WorldOk runner w
  log : LogOk w
  overtaken : OvertakenOk w
  barrier : runner.customerExecutionBarrier = true → BarrierOk w

theorem step_attemptsOk (hok : AttemptsOk runner w) {action : Action} (hkept : action.kept)
    (h : step runner w action = some w') : AttemptsOk runner w' := by
  have hmoves := step_moves hok.world h
  obtain ⟨events, hpasses⟩ := step_passes hok.world hkept h
  refine ⟨hmoves.worldOk hok.world, hok.log.moves hok.world hmoves hpasses,
    hok.overtaken.moves hok.log hok.world hmoves hpasses, fun hbarrier => ?_⟩
  refine (hok.barrier hbarrier).moves hok.world hok.log hmoves hpasses hok.overtaken
    (hpasses.passage.marking hbarrier rfl rfl fun record attempt hsaving => ?_)
  exact hpasses.mem_log.mpr (.inl (hok.log.inside _ record attempt (.inr hsaving)))

theorem start_attemptsOk : AttemptsOk runner World.start where
  world := start_worldOk
  log := start_logOk
  overtaken :=
    { cancelled := fun _ _ h => by obtain ⟨_, h, -⟩ := h; cases h
      free := fun _ _ _ h => by cases h }
  barrier := fun _ =>
    { nodup := List.nodup_nil
      exact := fun runId => by
        refine ⟨fun h => (List.not_mem_nil h).elim, ?_⟩
        rintro (⟨_, h⟩ | ⟨_, _, h, -⟩) <;> cases h }

theorem run_attemptsOk {actions : List Action} (hkept : ∀ action ∈ actions, action.kept)
    (h : run (step runner) World.start actions = some w) : AttemptsOk runner w :=
  run_invariant (P := Action.kept) (fun _ _ _ hkept hok hstep => step_attemptsOk hok hkept hstep)
    hkept start_attemptsOk h

/-- The unsettled runs, and what a call that is over has left of its mark. -/
theorem run_unsettled {actions : List Action} (hbarrier : runner.customerExecutionBarrier = true)
    (hkept : ∀ action ∈ actions, action.kept) (h : run (step runner) World.start actions = some w) :
    w.executionUnsettled.Nodup ∧ (∀ runId, runId ∈ w.executionUnsettled ↔
      (∃ session, InFlight w session runId) ∨ ∃ session, Overtaken w session runId) ∧
    (∀ session runId, Overtaken w session runId → ∃ row, w.runs runId = some row ∧ row.state = .cancelled) ∧
    ∀ session runId answer, .returned session runId answer ∈ w.log →
      runId ∈ w.executionUnsettled → (∃ other, other ≠ session ∧ InFlight w other runId) ∨
        ∃ other, Overtaken w other runId := by
  have hok := run_attemptsOk hkept h
  have hbarrierOk := hok.barrier hbarrier
  refine ⟨hbarrierOk.nodup, hbarrierOk.exact, hok.overtaken.cancelled, ?_⟩
  intro session runId answer hreturned hmember
  rcases (hbarrierOk.exact runId).mp hmember with ⟨other, hflight⟩ | hovertaken
  · refine Or.inl ⟨other, ?_, hflight⟩
    rintro rfl
    exact not_inFlight (hok.log.returned other runId answer hreturned).2 rfl runId hflight
  · exact Or.inr hovertaken

end Barrier

/-- A run is cancelled while its executor runs, and the executor returns. -/
def overtaking : List Action :=
  executing ++ cancelled 2 ++ .finish 1 commandTick (.ok emptyResult) :: advances 1 2

/-- The attempt has returned, no call is in flight, and the run is still marked. -/
theorem overtaken_run_unsettled : (run (step (commandRunner true)) World.start overtaking).map (fun w =>
      (w.executionUnsettled, (w.calls 1).isNone, (w.calls 2).isNone)) = some (["run"], true, true) ∧
    stateAfter true overtaking = some .cancelled := by
  decide +kernel

theorem run_unsettled_overtaking : ∃ w, run (step (commandRunner true)) World.start overtaking = some w ∧
    w.executionUnsettled.Nodup := by
  have hsome : (run (step (commandRunner true)) World.start overtaking).isSome = true := by
    decide +kernel
  obtain ⟨w, hw⟩ := Option.isSome_iff_exists.mp hsome
  refine ⟨w, hw, (run_unsettled rfl (fun action haction => ?_) hw).1⟩
  simp only [overtaking, executing, cancelled, advances, List.replicate, List.cons_append,
    List.nil_append, List.append_assoc, List.mem_cons, List.not_mem_nil, or_false] at haction
  rcases haction with rfl | rfl | rfl | rfl | rfl | rfl | rfl | rfl | rfl | rfl | rfl | rfl | rfl <;>
    trivial

end AvenOS.ActorRunner
