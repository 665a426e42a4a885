import AvenOS.ActorRunner.RunChange

/-! # One statement of one session

What holds of every call at the statement it takes next, and what one step does to the rest of the
world: other calls stay where they are, other sessions keep their locks, and a row that is replaced is
replaced by a change of itself, which is a cancellation or made under the lock of the run. -/
namespace AvenOS.ActorRunner
open Actors

/-! ## What a call relies on -/

def Call.holds : Call → Option String
  | .loading runId _ => some runId
  | .marking record _ => some record.runId
  | .executing record _ => some record.runId
  | .saving record _ => some record.runId
  | .postponing record _ => some record.runId
  | .settling runId _ => some runId
  | .releasing runId _ => some runId
  | _ => none

/-- A call that has read nothing yet. -/
def Call.fresh : Call → Prop
  | .starting _ => True
  | .fencing _ _ => True
  | .cancelling _ => True
  | _ => False

def Current (w : World) (attempt : Attempt) (record : PlanRunRecord) : Prop :=
  ∃ row, w.runs record.runId = some row ∧
    (row.state = .cancelled ∨ savable row attempt = true ∧ row.record = record)

/-- What a call has in memory comes from the stored record it will replace. -/
def Based (w : World) : Call → Prop
  | .marking record attempt => Answers record attempt ∧ Current w attempt record
  | .executing record attempt => Answers record attempt ∧ Current w attempt record
  | .saving record attempt => ∃ base outcome tick, Answers base attempt ∧ Current w attempt base ∧
      record = conclude base attempt outcome tick
  | .postponing record expectedRevision => ∃ base index now, base.state = .waitingForInput ∧
      PendingAt base index ∧ record = postponed base index now ∧
      (w.runs base.runId).isSome = true ∧ ∀ row, w.runs base.runId = some row →
        row.state = .waitingForInput → row.revision = expectedRevision → row.record = base
  | .withdrawing record => ∃ base now, base.state ≠ .cancelled ∧
      assertPlanRunTransition base.state .cancelled = .ok () ∧ record = withdrawn base now ∧
      (w.runs base.runId).isSome = true ∧ ∀ row, w.runs base.runId = some row →
        base.revision ≤ row.revision ∧ (row.revision = base.revision → row.record = base)
  | _ => True

structure CallOk (runner : Runner) (w : World) (session : ℕ) (call : Call) : Prop where
  locked : ∀ runId, call.holds = some runId → w.locks (runner.lockKey runId) = some session
  based : Based w call

/-! ## Rows -/

/-- The columns repeat the record. -/
structure RowOk (runId : String) (row : Row) : Prop where
  runId : row.record.runId = runId
  state : row.state = row.record.state
  revision : row.revision = row.record.revision

inductive RowMoves (runner : Runner) (w w' : World) (session : ℕ) (runId : String) : Prop
  | same (hsame : w'.runs runId = w.runs runId)
  | inserted (request : PlanRunStartRequest) (now : String) (habsent : w.runs runId = none)
      (hrow : w'.runs runId = some (newRow runner request runId now))
      (hprior : w.priorRun request = none)
  | changed (old : Row) (record : PlanRunRecord) (hold : w.runs runId = some old)
      (hnew : w'.runs runId = some (old.write record)) (hchange : Change old.record record)
      (hguard : record.state = .cancelled ∨ w.locks (runner.lockKey runId) = some session)

structure TableOk (w : World) : Prop where
  rows : ∀ runId row, w.runs runId = some row → RowOk runId row
  ids : ∀ runId, runId ∈ w.ids ↔ (w.runs runId).isSome = true
  unique : ∀ runId runId' row row', w.runs runId = some row → w.runs runId' = some row' →
    row.subjectId = row'.subjectId → row.idempotencyKey = row'.idempotencyKey → runId = runId'

structure WorldOk (runner : Runner) (w : World) : Prop where
  table : TableOk w
  idle : ∀ session, w.sessions ≤ session → w.calls session = none
  calls : ∀ session call, w.calls session = some call → CallOk runner w session call

structure Moves (runner : Runner) (w w' : World) (session : ℕ) : Prop where
  sessions : w.sessions ≤ w'.sessions
  idle : ∀ other, w'.sessions ≤ other → w'.calls other = none
  others : ∀ other, other ≠ session → w'.calls other = w.calls other ∨
    w.sessions ≤ other ∧ ∃ call, w'.calls other = some call ∧ call.fresh
  own : ∀ call, w'.calls session = some call → CallOk runner w' session call
  locks : ∀ key other, other ≠ session → w.locks key = some other → w'.locks key = some other
  rows : ∀ runId, RowMoves runner w w' session runId
  ids : ∀ runId, runId ∈ w'.ids ↔ runId ∈ w.ids ∨ w.runs runId = none ∧ (w'.runs runId).isSome = true
  /-- One row is new at most. -/
  single : ∀ runId runId', w.runs runId = none → w.runs runId' = none →
    (w'.runs runId).isSome = true → (w'.runs runId').isSome = true → runId = runId'

theorem callOk_fresh {runner : Runner} {w : World} {session : ℕ} {call : Call} (h : call.fresh) :
    CallOk runner w session call := by
  cases call with
  | starting request => exact ⟨by simp [Call.holds], trivial⟩
  | fencing runId purpose => exact ⟨by simp [Call.holds], trivial⟩
  | cancelling runId => exact ⟨by simp [Call.holds], trivial⟩
  | _ => exact h.elim

section Moves
variable {runner : Runner} {w w' : World} {session : ℕ}

variable {runId : String} {row : Row} {attempt : Attempt} {record : PlanRunRecord}

theorem RowMoves.isSome (h : RowMoves runner w w' session runId)
    (hsome : (w.runs runId).isSome = true) : (w'.runs runId).isSome = true := by
  cases h with
  | same hsame => rwa [hsame]
  | inserted request now habsent hrow hprior => simp [hrow]
  | changed old record hold hnew hchange hguard => simp [hnew]

theorem savable_not_cancelled (h : savable row attempt = true) : row.state ≠ .cancelled := by
  cases attempt with
  | accepted => simp_all [savable]
  | resumed index kind expectedRevision => simp_all [savable]

theorem Current.stored (h : Current w attempt record) (hrow : w.runs record.runId = some row) (hsavable : savable row attempt = true) :
    row.record = record := by
  obtain ⟨row', hrow', hcancelled | ⟨-, hrecord⟩⟩ := h
  · rw [hrow] at hrow'
    cases hrow'
    exact absurd hcancelled (savable_not_cancelled hsavable)
  · rw [hrow] at hrow'
    cases hrow'
    exact hrecord

theorem Current.cancelled (h : Current w attempt record)
    (hovertaken : (w.runs record.runId).filter (fun row => savable row attempt) = none) :
    ∃ row, w.runs record.runId = some row ∧ row.state = .cancelled := by
  obtain ⟨row, hrow, hcancelled | ⟨hsavable, -⟩⟩ := h
  · exact ⟨row, hrow, hcancelled⟩
  · rw [hrow, Option.filter_some, if_pos hsavable] at hovertaken
    cases hovertaken

variable {other : ℕ} {request : PlanRunStartRequest}

theorem Current.moves (h : Current w attempt record) (hother : other ≠ session)
    (hlocked : w.locks (runner.lockKey record.runId) = some other)
    (hmoves : RowMoves runner w w' session record.runId) : Current w' attempt record := by
  obtain ⟨row, hrow, hrecord⟩ := h
  cases hmoves with
  | same hsame => exact ⟨row, hsame.trans hrow, hrecord⟩
  | inserted request now habsent hnew hprior =>
    rw [habsent] at hrow
    cases hrow
  | changed old next hold hnew hchange hguard =>
    rcases hguard with hcancelled | hheld
    · exact ⟨_, hnew, .inl hcancelled⟩
    · rw [hlocked] at hheld
      exact absurd (Option.some.inj hheld) hother

theorem Based.moves {call : Call} (htable : TableOk w) (h : CallOk runner w other call) (hother : other ≠ session)
    (hrows : ∀ runId, RowMoves runner w w' session runId) : Based w' call := by
  have hbased := h.based
  cases call with
  | marking record attempt =>
    exact ⟨hbased.1, hbased.2.moves hother (h.locked _ rfl) (hrows _)⟩
  | executing record attempt =>
    exact ⟨hbased.1, hbased.2.moves hother (h.locked _ rfl) (hrows _)⟩
  | saving record attempt =>
    obtain ⟨base, outcome, tick, hanswers, hcurrent, rfl⟩ := hbased
    have hid := (Change.concluded base attempt outcome tick hanswers).runId
    have hlocked : w.locks (runner.lockKey base.runId) = some other := hid ▸ h.locked _ rfl
    exact ⟨base, outcome, tick, hanswers, hcurrent.moves hother hlocked (hrows _), rfl⟩
  | postponing record expectedRevision =>
    obtain ⟨base, index, now, hstate, hpending, rfl, hsome, hcurrent⟩ := hbased
    have hmoves := hrows base.runId
    refine ⟨base, index, now, hstate, hpending, rfl, hmoves.isSome hsome, ?_⟩
    intro row hrow hwaiting hrevision
    cases hmoves with
    | same hsame => exact hcurrent row (hsame ▸ hrow) hwaiting hrevision
    | inserted request now habsent hnew hprior =>
      rw [habsent] at hsome
      cases hsome
    | changed old next hold hnew hchange hguard =>
      rw [hnew] at hrow
      cases hrow
      rcases hguard with hcancelled | hheld
      · have hwaiting' : next.state = .waitingForInput := hwaiting
        rw [hcancelled] at hwaiting'
        cases hwaiting'
      · have hlocked : w.locks (runner.lockKey base.runId) = some other := h.locked _ rfl
        rw [hlocked] at hheld
        exact absurd (Option.some.inj hheld) hother
  | withdrawing record =>
    obtain ⟨base, now, hstate, hallowed, rfl, hsome, hcurrent⟩ := hbased
    have hmoves := hrows base.runId
    refine ⟨base, now, hstate, hallowed, rfl, hmoves.isSome hsome, ?_⟩
    intro row hrow
    cases hmoves with
    | same hsame => exact hcurrent row (hsame ▸ hrow)
    | inserted request now habsent hnew hprior =>
      rw [habsent] at hsome
      cases hsome
    | changed old next hold hnew hchange hguard =>
      rw [hnew] at hrow
      cases hrow
      -- a change makes the revision larger than the one that was read
      have hle := (hcurrent old hold).1
      have hrevision := hchange.revision
      have hcolumn := (htable.rows _ old hold).revision
      refine ⟨?_, fun heq => ?_⟩
      · change base.revision ≤ next.revision
        omega
      · change next.revision = base.revision at heq
        omega
  | _ => trivial

theorem RowMoves.rowOk (h : RowMoves runner w w' session runId) (hok : ∀ row, w.runs runId = some row → RowOk runId row)
    (hrow : w'.runs runId = some row) : RowOk runId row := by
  cases h with
  | same hsame => exact hok row (hsame ▸ hrow)
  | inserted request now habsent hnew hprior =>
    rw [hnew] at hrow
    cases hrow
    exact ⟨rfl, rfl, rfl⟩
  | changed old record hold hnew hchange hguard =>
    rw [hnew] at hrow
    cases hrow
    exact ⟨hchange.runId.trans (hok old hold).runId, rfl, rfl⟩

theorem RowMoves.identity (h : RowMoves runner w w' session runId)
    (hrow : w'.runs runId = some row) : (∃ old, w.runs runId = some old ∧
      old.subjectId = row.subjectId ∧ old.idempotencyKey = row.idempotencyKey ∧
      old.materialHash = row.materialHash) ∨
    ∃ request now, w.priorRun request = none ∧ row = newRow runner request runId now ∧ w.runs runId = none := by
  cases h with
  | same hsame => exact .inl ⟨row, hsame ▸ hrow, rfl, rfl, rfl⟩
  | inserted request now habsent hnew hprior =>
    rw [hnew] at hrow
    cases hrow
    exact .inr ⟨request, now, hprior, rfl, habsent⟩
  | changed old record hold hnew hchange hguard =>
    rw [hnew] at hrow
    cases hrow
    exact .inl ⟨old, hold, rfl, rfl, rfl⟩

theorem priorRun_none (htable : TableOk w) (h : w.priorRun request = none) (hrow : w.runs runId = some row)
    (hsubject : row.subjectId = request.subjectId) : row.idempotencyKey ≠ request.idempotencyKey := by
  intro hkey
  have hmem : runId ∈ w.ids := (htable.ids runId).mpr (by simp [hrow])
  have hnone := List.findSome?_eq_none_iff.mp h runId hmem
  simp [hrow, hsubject, hkey] at hnone

theorem priorRun_some {prior : Row} (h : w.priorRun request = some prior) : ∃ runId, w.runs runId = some prior ∧
      prior.subjectId = request.subjectId ∧ prior.idempotencyKey = request.idempotencyKey := by
  obtain ⟨runId, -, hfound⟩ := List.exists_of_findSome?_eq_some h
  obtain ⟨hrow, hkeys⟩ := Option.filter_eq_some_iff.mp hfound
  simp only [Bool.and_eq_true, beq_iff_eq] at hkeys
  exact ⟨runId, hrow, hkeys⟩

theorem Moves.table (h : Moves runner w w' session) (htable : TableOk w) : TableOk w' := by
  refine ⟨fun runId row hrow => (h.rows runId).rowOk (htable.rows runId) hrow, fun runId => ?_, ?_⟩
  · rw [h.ids, htable.ids]
    constructor
    · rintro (hsome | ⟨-, hsome⟩)
      · exact (h.rows runId).isSome hsome
      · exact hsome
    · intro hsome
      cases hold : w.runs runId with
      | none => exact .inr ⟨rfl, hsome⟩
      | some old => exact .inl rfl
  · intro runId runId' row row' hrow hrow' hsubject hkey
    rcases (h.rows runId).identity hrow with ⟨old, hold, hs, hk, -⟩ | ⟨request, now, hprior, rfl, hnone⟩
    · rcases (h.rows runId').identity hrow' with
        ⟨old', hold', hs', hk', -⟩ | ⟨request, now, hprior, rfl, hnone⟩
      · exact htable.unique runId runId' old old' hold hold' (by rw [hs, hs', hsubject]) (by rw [hk, hk', hkey])
      · exact absurd (hk.trans hkey) (priorRun_none htable hprior hold (hs.trans hsubject))
    · rcases (h.rows runId').identity hrow' with
        ⟨old', hold', hs', hk', -⟩ | ⟨request', now', hprior', rfl, hnone'⟩
      · exact absurd (hk'.trans hkey.symm) (priorRun_none htable hprior hold' (hs'.trans hsubject.symm))
      · exact h.single runId runId' hnone hnone' (by simp [hrow]) (by simp [hrow'])

theorem Moves.worldOk (h : Moves runner w w' session) (hw : WorldOk runner w) : WorldOk runner w' := by
  refine ⟨h.table hw.table, h.idle, fun other call hcall => ?_⟩
  by_cases hother : other = session
  · subst hother
    exact h.own call hcall
  · rcases h.others other hother with hsame | ⟨-, call', hcall', hfresh⟩
    · rw [hsame] at hcall
      have hok := hw.calls other call hcall
      exact ⟨fun runId hholds => h.locks _ other hother (hok.locked runId hholds),
        Based.moves hw.table hok hother h.rows⟩
    · rw [hcall] at hcall'
      cases hcall'
      exact callOk_fresh hfresh

end Moves

/-! ## The shapes of a step -/

section Shapes
variable {runner : Runner} {w w' : World} {session : ℕ}

variable {call : Call} {next : Option Call} {unsettled : List String} {log : List Event}

theorem CallOk.congr (h : CallOk runner w session call) (hruns : w'.runs = w.runs)
    (hlocks : w'.locks = w.locks) : CallOk runner w' session call := by
  refine ⟨by rw [hlocks]; exact h.locked, ?_⟩
  have hbased := h.based
  cases call <;> simpa only [Based, Current, hruns] using hbased

theorem sessions_lt (hw : WorldOk runner w) (hcall : w.calls session = some call) : session < w.sessions := by
  by_contra hle
  rw [hw.idle session (Nat.le_of_not_lt hle)] at hcall
  cases hcall

theorem update_idle (hw : WorldOk runner w) (hlive : session < w.sessions)
    {other : ℕ} (hother : w.sessions ≤ other) : Function.update w.calls session next other = none := by
  rw [Function.update_of_ne (by omega), hw.idle other hother]

theorem ids_kept (w w' : World) (hids : w'.ids = w.ids)
    (hkept : ∀ runId, w.runs runId = none → w'.runs runId = none) (runId : String) :
    runId ∈ w'.ids ↔ runId ∈ w.ids ∨ w.runs runId = none ∧ (w'.runs runId).isSome = true := by
  rw [hids]
  constructor
  · exact .inl
  · rintro (hmem | ⟨hnone, hsome⟩)
    · exact hmem
    · rw [hkept runId hnone] at hsome
      cases hsome

theorem single_kept (w w' : World) (hkept : ∀ runId, w.runs runId = none → w'.runs runId = none)
    (runId runId' : String) (hnone : w.runs runId = none) (_ : w.runs runId' = none)
    (hsome : (w'.runs runId).isSome = true) (_ : (w'.runs runId').isSome = true) : runId = runId' := by
  rw [hkept runId hnone] at hsome
  cases hsome

/-- What a live session may do: it replaces its own call, and no row comes or goes. -/
theorem moves_live (hw : WorldOk runner w) (hlive : session < w.sessions)
    (hcalls : w'.calls = Function.update w.calls session next) (hsessions : w'.sessions = w.sessions)
    (hids : w'.ids = w.ids) (hown : ∀ call, next = some call → CallOk runner w' session call)
    (hlocks : ∀ key other, other ≠ session → w.locks key = some other → w'.locks key = some other)
    (hrows : ∀ runId, RowMoves runner w w' session runId)
    (hkept : ∀ runId, w.runs runId = none → w'.runs runId = none) : Moves runner w w' session where
  sessions := hsessions.ge
  idle := fun other hother => by
    rw [hcalls]
    exact update_idle hw hlive (hsessions ▸ hother)
  others := fun other hother => .inl (by rw [hcalls, Function.update_of_ne hother])
  own := fun call hcall => by
    rw [hcalls, Function.update_self] at hcall
    exact hown call hcall
  locks := hlocks
  rows := hrows
  ids := ids_kept w w' hids hkept
  single := single_kept w w' hkept

theorem moves_call (hw : WorldOk runner w) (hlive : session < w.sessions)
    (hown : ∀ call, next = some call → CallOk runner w session call) :
    Moves runner w { w with calls := Function.update w.calls session next, executionUnsettled := unsettled, log }
      session :=
  moves_live hw hlive rfl rfl rfl (fun call hcall => (hown call hcall).congr rfl rfl)
    (fun _ _ _ hheld => hheld) (fun _ => .same rfl) fun _ hnone => hnone

theorem moves_lock (hw : WorldOk runner w) {key : ℤ} {holder : Option ℕ} (hlive : session < w.sessions)
    (hkey : ∀ other, other ≠ session → w.locks key ≠ some other)
    (hown : ∀ call, next = some call → CallOk runner
      { w with locks := Function.update w.locks key holder, calls := Function.update w.calls session next, log }
      session call) :
    Moves runner w
      { w with locks := Function.update w.locks key holder, calls := Function.update w.calls session next, log }
      session := by
  refine moves_live hw hlive rfl rfl rfl hown (fun key' other hother hheld => ?_) (fun _ => .same rfl)
    fun _ hnone => hnone
  have hne : key' ≠ key := by
    rintro rfl
    exact hkey other hother hheld
  exact (Function.update_of_ne hne _ _).trans hheld

theorem moves_open (hw : WorldOk runner w) (hfresh : call.fresh) : Moves runner w (w.openCall call) w.sessions where
  sessions := Nat.le_succ _
  idle := fun other hother => by
    have hne : other ≠ w.sessions := by
      have hlt : w.sessions + 1 ≤ other := hother
      omega
    change Function.update w.calls w.sessions (some call) other = none
    rw [Function.update_of_ne hne, hw.idle other (by
      have hlt : w.sessions + 1 ≤ other := hother
      omega)]
  others := fun other hother => .inl (Function.update_of_ne hother _ _)
  own := fun own hown => by
    have hcall : Function.update w.calls w.sessions (some call) w.sessions = some own := hown
    rw [Function.update_self] at hcall
    cases hcall
    exact callOk_fresh hfresh
  locks := fun _ _ _ hheld => hheld
  rows := fun _ => .same rfl
  ids := ids_kept w (w.openCall call) rfl fun _ hnone => hnone
  single := single_kept w (w.openCall call) fun _ hnone => hnone

theorem moves_stay (hw : WorldOk runner w) {enabled : Bool} :
    Moves runner w { w with executionEnabled := enabled } w.sessions where
  sessions := le_refl _
  idle := hw.idle
  others := fun _ _ => .inl rfl
  own := fun call hcall => by
    have hnone := hw.idle w.sessions (le_refl _)
    rw [show w.calls w.sessions = some call from hcall] at hnone
    cases hnone
  locks := fun _ _ _ hheld => hheld
  rows := fun _ => .same rfl
  ids := ids_kept w _ rfl fun _ hnone => hnone
  single := single_kept w _ fun _ hnone => hnone

theorem moves_write (hw : WorldOk runner w) (hlive : session < w.sessions)
    {runId : String} {old : Row} {record : PlanRunRecord} (hold : w.runs runId = some old)
    (hchange : Change old.record record)
    (hguard : record.state = .cancelled ∨ w.locks (runner.lockKey runId) = some session)
    (hown : ∀ call, next = some call → CallOk runner { w with
      runs := Function.update w.runs runId (some (old.write record))
      calls := Function.update w.calls session next, log } session call) :
    Moves runner w { w with
      runs := Function.update w.runs runId (some (old.write record))
      calls := Function.update w.calls session next, log } session := by
  refine moves_live hw hlive rfl rfl rfl hown (fun _ _ _ hheld => hheld) (fun other => ?_) fun other hnone => ?_
  · by_cases hother : other = runId
    · subst hother
      exact .changed old record hold (Function.update_self _ _ _) hchange hguard
    · exact .same (Function.update_of_ne hother _ _)
  · exact (Function.update_of_ne (by rintro rfl; simp [hold] at hnone) _ _).trans hnone

end Shapes

end AvenOS.ActorRunner
