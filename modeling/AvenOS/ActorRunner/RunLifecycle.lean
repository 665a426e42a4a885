import AvenOS.ActorRunner.RunnerSteps

/-! # The life of a run

Every stored record is made from the one it replaces, so revisions only grow, checkpoints are only
appended, and a run that has succeeded or was cancelled stays as it is. A failed run can still be
cancelled, and a run that waits for input takes the moves of a running one while it is resumed. -/
namespace AvenOS.ActorRunner
open Actors LabelledRun

structure Follows (row later : Row) : Prop where
  revision : row.revision ≤ later.revision
  same : row.revision = later.revision → later = row
  checkpoints : row.record.checkpoints <+: later.record.checkpoints
  final : row.state = .succeeded ∨ row.state = .cancelled → later = row
  failed : row.state = .failed → later = row ∨ later.state = .cancelled

theorem Follows.refl (row : Row) : Follows row row :=
  ⟨le_refl _, fun _ => rfl, List.prefix_refl _, fun _ => rfl, fun _ => .inl rfl⟩

theorem Follows.trans {row next later : Row} (h : Follows row next) (h' : Follows next later) : Follows row later where
  revision := h.revision.trans h'.revision
  same := fun hsame => by
    have hrevision := h.revision
    have hrevision' := h'.revision
    have hnext : next = row := h.same (by omega)
    have hlater : later = next := h'.same (by omega)
    rw [hlater, hnext]
  checkpoints := h.checkpoints.trans h'.checkpoints
  final := fun hfinal => by
    have hnext := h.final hfinal
    subst hnext
    exact h'.final hfinal
  failed := fun hfailed => by
    rcases h.failed hfailed with hnext | hcancelled
    · subst hnext
      exact h'.failed hfailed
    · exact .inr (by rw [h'.final (.inr hcancelled), hcancelled])

theorem Change.failed {record next : PlanRunRecord} (h : Change record next)
    (hfailed : record.state = .failed) : next.state = .cancelled := by
  cases h with
  | reported progress now hstate => rw [hfailed] at hstate; cases hstate
  | concluded attempt outcome tick hanswers =>
    cases attempt with
    | accepted =>
      have hstate : record.state = .accepted := hanswers
      rw [hfailed] at hstate
      cases hstate
    | resumed index kind expectedRevision =>
      have hstate := hanswers.1
      rw [hfailed] at hstate
      cases hstate
  | postponed index now hstate hpending => rw [hfailed] at hstate; cases hstate
  | withdrawn now hstate hallowed => rfl

theorem Change.follows {runId : String} {row : Row} {record : PlanRunRecord}
    (h : Change row.record record) (hok : RowOk runId row) : Follows row (row.write record) where
  revision := by
    change row.revision ≤ record.revision
    rw [h.revision, ← hok.revision]
    exact Nat.le_succ _
  same := fun hsame => by
    have hrevision : row.revision = record.revision := hsame
    rw [h.revision, ← hok.revision] at hrevision
    omega
  checkpoints := by
    change row.record.checkpoints <+: record.checkpoints
    rcases h.checkpoints with hsame | ⟨pushed, -, happended⟩
    · exact hsame ▸ List.prefix_refl _
    · rw [happended]
      exact List.prefix_append _ _
  final := fun hfinal => by
    have hnot := h.not_final
    rw [hok.state] at hfinal
    exact absurd hfinal (by simp [hnot])
  failed := fun hfailed => .inr (h.failed (hok.state ▸ hfailed))

section Run
variable {runner : Runner} {w w' : World}

variable {runId : String} {row : Row} {actions : List Action}

theorem RowMoves.follows {session : ℕ} (h : RowMoves runner w w' session runId) (hok : RowOk runId row)
    (hrow : w.runs runId = some row) : ∃ later, w'.runs runId = some later ∧ Follows row later := by
  cases h with
  | same hsame => exact ⟨row, hsame.trans hrow, .refl row⟩
  | inserted request now habsent hnew hprior =>
    rw [habsent] at hrow
    cases hrow
  | changed old record hold hnew hchange hguard =>
    rw [hrow] at hold
    cases hold
    exact ⟨_, hnew, hchange.follows hok⟩

def RowsFollow (w w' : World) : Prop :=
  ∀ runId row, w.runs runId = some row → ∃ later, w'.runs runId = some later ∧ Follows row later

theorem run_rowsFollow (hw : WorldOk runner w) (h : run (step runner) w actions = some w') : RowsFollow w w' := by
  refine run_relates (I := WorldOk runner) (P := fun _ => True)
    (fun _ _ _ _ hs hstep => step_worldOk hs hstep) (fun s runId row hrow => ⟨row, hrow, .refl row⟩)
    (fun s t u hst htu runId row hrow => ?_) (fun s action s' _ hs hstep runId row hrow => ?_)
    (fun _ _ => trivial) hw h
  · obtain ⟨next, hnext, hfollows⟩ := hst runId row hrow
    obtain ⟨later, hlater, hfollows'⟩ := htu runId next hnext
    exact ⟨later, hlater, hfollows.trans hfollows'⟩
  · exact ((step_moves hs hstep).rows runId).follows (hs.table.rows runId row hrow) hrow

theorem run_records {R : PlanRunRecord → Prop} (hnew : ∀ request runId now, R (newRecord request runId now))
    (hchange : ∀ record next, Change record next → R record → R next)
    (h : run (step runner) World.start actions = some w) (hrow : w.runs runId = some row) : R row.record := by
  refine (run_invariant (I := fun w => WorldOk runner w ∧
    ∀ runId row, w.runs runId = some row → R row.record) (P := fun _ => True)
    (fun s action s' _ hs hstep => ⟨step_worldOk hs.1 hstep, fun runId row hrow => ?_⟩)
    (fun _ _ => trivial) ⟨start_worldOk, fun _ _ hrow => by cases hrow⟩ h).2 runId row hrow
  cases (step_moves hs.1 hstep).rows runId with
  | same hsame => exact hs.2 runId row (hsame ▸ hrow)
  | inserted request now habsent hrow' hprior =>
    rw [hrow'] at hrow
    cases hrow
    exact hnew request runId now
  | changed old record hold hrow' hreplaced hguard =>
    rw [hrow'] at hrow
    cases hrow
    exact hchange old.record record hreplaced (hs.2 runId old hold)

/-- The columns repeat the record, whose checkpoints are numbered; a step replaces a row by a change of
its record, with a larger revision; and later rows follow earlier ones. -/
theorem run_lifecycle {actions : List Action} (h : run (step runner) World.start actions = some w) :
    (∀ runId row, w.runs runId = some row → RowOk runId row ∧ Numbered row.record) ∧
    (∀ action w', step runner w action = some w' → ∀ runId row, w.runs runId = some row →
      ∃ next, w'.runs runId = some next ∧ (next = row ∨ Change row.record next.record ∧
        next.revision = row.revision + 1 ∧ Moved row.state next.state)) ∧
    (∀ more w', run (step runner) w more = some w' → ∀ runId row, w.runs runId = some row →
      ∃ later, w'.runs runId = some later ∧ Follows row later) := by
  have hw := run_worldOk h
  refine ⟨fun runId row hrow => ⟨hw.table.rows runId row hrow, ?_⟩,
    fun action w' hstep runId row hrow => ?_, fun more w' hmore => run_rowsFollow hw hmore⟩
  · exact run_records (fun _ _ _ => rfl) (fun _ _ hchange => hchange.numbered) h hrow
  · have hok := hw.table.rows runId row hrow
    cases (step_moves hw hstep).rows runId with
    | same hsame => exact ⟨row, hsame.trans hrow, Or.inl rfl⟩
    | inserted request now habsent hnew hprior =>
      rw [habsent] at hrow
      cases hrow
    | changed old record hold hnew hchange hguard =>
      rw [hrow] at hold
      cases hold
      refine ⟨_, hnew, Or.inr ⟨hchange, ?_, ?_⟩⟩
      · change record.revision = row.revision + 1
        rw [hchange.revision, hok.revision]
      · rw [hok.state]
        exact hchange.moved

end Run

/-! ## Runs of one command -/

def commandRequest : PlanRunStartRequest where
  protocol := "aven/run/1"
  requestId := "request"
  idempotencyKey := "key"
  requestedAt := "now"
  skillRef := "skill"
  executionEnvironment := .server
  ingredients := .arr []
  goals := .arr []
  goalSpec := none
  parameters := []
  subjectId := "subject"
  security := []

/-- One key for every lock. -/
def commandRunner (barrier : Bool) : Runner := ⟨fun request => request.skillRef, fun _ => 0, barrier⟩

def commandTick : Tick := ⟨"now", "run"⟩

def advances (session count : ℕ) : List Action :=
  List.replicate count (.advance session commandTick)

def executing : List Action := .start commandRequest :: (advances 0 2 ++ advances 1 4)

def emptyResult : PlanRunExecutionResult := ⟨none, none, none, none, none, none, none⟩

def finished (session : ℕ) (outcome : Except String PlanRunExecutionResult) : List Action :=
  .finish session commandTick outcome :: advances session 3

/-- The executor asks for something, and is resumed with it. -/
def asked : PlanRunContinuation := ⟨"ask", .input, "schema", none, "prompt", .artifact, .«open»⟩

def waiting : List Action :=
  executing ++
    finished 1 (.ok { emptyResult with continuation := some asked, remainingGoals := some ["goal"] })

def resuming : List Action :=
  waiting ++ .resume "run" (.submit "request" "ask" .input .null) :: advances 2 4

def cancelled (session : ℕ) : List Action := .cancel "run" :: advances session 2

def stateAfter (barrier : Bool) (actions : List Action) : Option PlanRunState :=
  (run (step (commandRunner barrier)) World.start actions).bind fun w =>
    (w.runs "run").map Row.state

/-- A failed run is left, and a run that waits succeeds. -/
theorem failed_run_cancelled : (stateAfter false (executing ++ finished 1 (.error "broken")) = some .failed ∧
      stateAfter false (executing ++ finished 1 (.error "broken") ++ cancelled 2) = some .cancelled) ∧
    stateAfter false waiting = some .waitingForInput ∧
    stateAfter false (resuming ++ finished 2 (.ok emptyResult)) = some .succeeded ∧
    assertPlanRunTransition .waitingForInput .succeeded ≠ .ok () := by
  decide +kernel

/-- The lifecycle of a run that asks, is resumed and succeeds. -/
theorem run_lifecycle_resumed : ∃ w,
    run (step (commandRunner false)) World.start (resuming ++ finished 2 (.ok emptyResult)) = some w ∧
    ∀ runId row, w.runs runId = some row → RowOk runId row ∧ Numbered row.record := by
  have hsome : (run (step (commandRunner false)) World.start
      (resuming ++ finished 2 (.ok emptyResult))).isSome = true := by decide +kernel
  obtain ⟨w, hw⟩ := Option.isSome_iff_exists.mp hsome
  exact ⟨w, hw, (run_lifecycle hw).1⟩

end AvenOS.ActorRunner
