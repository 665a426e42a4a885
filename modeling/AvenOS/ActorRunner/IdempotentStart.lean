import AvenOS.ActorRunner.MaterialHash
import AvenOS.ActorRunner.RunLifecycle

/-! # Starts of one command

What a start has answered, as far as the table tells: it was turned away before it reached the table, or
its key is bound to a row, with its own hash or with another one. -/
namespace AvenOS.ActorRunner
open Actors LabelledRun

def boundMessage : String := "the idempotency key is already bound to another command"

/-- The processes share one table and one platform. -/
def hashingRunner (platform : Platform) (lockKey : String → ℤ) (barrier : Bool) : Runner :=
  ⟨materialHash platform, lockKey, barrier⟩

/-- A start that does not reach the table. -/
def TurnedAway (request : PlanRunStartRequest) (answer : Answer) : Prop :=
  ∃ message, answer = .failed message ∧ (admitted request = .error message ∨ message = pausedMessage)

structure Bound (w : World) (request : PlanRunStartRequest) (runId : String) (row : Row) : Prop where
  stored : w.runs runId = some row
  subject : row.subjectId = request.subjectId
  key : row.idempotencyKey = request.idempotencyKey

/-- What an answer tells about the table. -/
inductive StartAnswer (runner : Runner) (w : World) (request : PlanRunStartRequest) : Answer → Prop
  | away (answer : Answer) (h : TurnedAway request answer) : StartAnswer runner w request answer
  | found (handle : PlanRunHandle) (row : Row) (hadmitted : admitted request = .ok ())
      (hbound : Bound w request handle.runId row)
      (hhash : row.materialHash = runner.materialHash request) :
      StartAnswer runner w request (.handle handle)
  | conflicts (runId : String) (row : Row) (hadmitted : admitted request = .ok ())
      (hbound : Bound w request runId row) (hhash : row.materialHash ≠ runner.materialHash request) :
      StartAnswer runner w request (conflict boundMessage)

def Call.admits (request : PlanRunStartRequest) : Call → Prop
  | .inserting own => own = request
  | .replaying own => own = request
  | _ => False

def Call.request : Call → Option PlanRunStartRequest
  | .starting request => some request
  | .inserting request => some request
  | .replaying request => some request
  | _ => none

structure StartsOk (P : PlanRunStartRequest → Prop) (runner : Runner) (w : World) : Prop where
  requested : ∀ session call request, w.calls session = some call → call.request = some request →
    P request
  answered : ∀ request answer, .answered request answer ∈ w.log →
    P request ∧ StartAnswer runner w request answer
  admitted : ∀ session call request, w.calls session = some call → call.admits request →
    admitted request = .ok ()
  replaying : ∀ session request, w.calls session = some (.replaying request) →
    ∃ runId row, Bound w request runId row

theorem Call.admits_request {request : PlanRunStartRequest} {call : Call} (h : call.admits request) :
    call.request = some request := by
  cases call with
  | inserting own => exact congrArg some h
  | replaying own => exact congrArg some h
  | _ => exact h.elim

section Starts
variable {P : PlanRunStartRequest → Prop} {runner : Runner} {w w' : World} {session : ℕ} {tick : Tick}

/-! ## Bound keys stay bound -/

variable {request request' : PlanRunStartRequest} {runId : String} {row : Row} {answer : Answer}
    {call : Call}

theorem Bound.moves (h : Bound w request runId row) (hmoves : RowMoves runner w w' session runId) :
    ∃ later, Bound w' request runId later ∧ later.materialHash = row.materialHash := by
  obtain ⟨hrow, hsubject, hkey⟩ := h
  cases hmoves with
  | same hsame => exact ⟨row, ⟨hsame.trans hrow, hsubject, hkey⟩, rfl⟩
  | inserted own now habsent hnew hprior =>
    rw [habsent] at hrow
    cases hrow
  | changed old record hold hnew hchange hguard =>
    rw [hrow] at hold
    cases hold
    exact ⟨row.write record, ⟨hnew, hsubject, hkey⟩, rfl⟩

theorem StartAnswer.moves (h : StartAnswer runner w request answer)
    (hmoves : ∀ runId, RowMoves runner w w' session runId) : StartAnswer runner w' request answer := by
  cases h with
  | away answer h => exact .away answer h
  | found handle row hadmitted hbound hhash =>
    obtain ⟨later, hlater, hsame⟩ := hbound.moves (hmoves _)
    exact .found handle later hadmitted hlater (hsame.trans hhash)
  | conflicts runId row hadmitted hbound hhash =>
    obtain ⟨later, hlater, hsame⟩ := hbound.moves (hmoves _)
    exact .conflicts runId later hadmitted hlater (by rwa [hsame])

theorem Bound.unique (htable : TableOk w) {one other : String}
    {row' : Row} (h : Bound w request one row) (h' : Bound w request' other row')
    (hsubject : request.subjectId = request'.subjectId)
    (hkey : request.idempotencyKey = request'.idempotencyKey) : one = other ∧ row = row' := by
  have hsame : one = other := htable.unique one other row row' h.stored h'.stored
    (by rw [h.subject, h'.subject, hsubject]) (by rw [h.key, h'.key, hkey])
  subst hsame
  have hrow := h.stored
  rw [h'.stored] at hrow
  exact ⟨rfl, (Option.some.inj hrow).symm⟩

theorem bound_priorRun {prior : Row} (h : w.priorRun request = some prior) : ∃ runId, Bound w request runId prior := by
  obtain ⟨runId, hrow, hsubject, hkey⟩ := priorRun_some h
  exact ⟨runId, hrow, hsubject, hkey⟩

theorem priorRun_bound (htable : TableOk w) (h : Bound w request runId row) : w.priorRun request = some row := by
  cases hprior : w.priorRun request with
  | none => exact absurd h.key (priorRun_none htable hprior h.stored h.subject)
  | some prior =>
    obtain ⟨other, hother⟩ := bound_priorRun hprior
    rw [(hother.unique htable h rfl rfl).2]

/-! ## Steps of a start -/

/-- What one step of a start does: it goes on, it is over, or it has inserted its row. -/
inductive StartStep (runner : Runner) (w w' : World) (session : ℕ) (call : Call) : Prop
  | next (later : Call) (hrequest : later.request = call.request) (hquiet : w' = w.setCall session later)
      (hadmits : ∀ request, later.admits request → admitted request = .ok ())
      (hreplays : ∀ request, later = .replaying request → ∃ runId row, Bound w request runId row)
  | answered (request : PlanRunStartRequest) (answer : Answer) (hrequest : call.request = some request)
      (hquiet : w' = w.answer session request answer)
      (hanswer : StartAnswer runner w request answer)
  | inserted (request : PlanRunStartRequest) (tick : Tick) (hcall : call = .inserting request)
      (hadmitted : admitted request = .ok ()) (hprior : w.priorRun request = none)
      (hinserted : w' = ((w.insertRun tick.uuid (newRow runner request tick.uuid tick.now)).answer
        session request (.handle (handle (newRecord request tick.uuid tick.now)))).openCall
          (.fencing tick.uuid .execute))

theorem startingStep_starts (request : PlanRunStartRequest) :
    StartStep runner w (startingStep runner w session request) session (.starting request) := by
  unfold startingStep
  cases hadmitted : admitted request with
  | error message => exact .answered request _ rfl rfl (.away _ ⟨message, rfl, .inl hadmitted⟩)
  | ok _ =>
    dsimp only
    split
    · exact .answered request _ rfl rfl (.away _ ⟨pausedMessage, rfl, .inr rfl⟩)
    · exact .next (.inserting request) rfl rfl (fun own hown => hown ▸ hadmitted) (fun _ h => by cases h)

theorem insertingStep_starts (hadmitted : admitted request = .ok ())
    (h : insertingStep runner w session tick request = some w') :
    StartStep runner w w' session (.inserting request) := by
  unfold insertingStep at h
  cases hprior : w.priorRun request with
  | some prior =>
    simp only [hprior] at h
    cases h
    refine .next (.replaying request) rfl rfl (fun own hown => hown ▸ hadmitted) ?_
    rintro _ ⟨⟩
    obtain ⟨runId, hbound⟩ := bound_priorRun hprior
    exact ⟨runId, prior, hbound⟩
  | none =>
    simp only [hprior] at h
    by_cases hused : (w.runs tick.uuid).isSome = true
    · rw [if_pos hused] at h
      cases h
    · rw [if_neg hused] at h
      cases h
      exact .inserted request tick rfl hadmitted hprior rfl

theorem replayingStep_starts (htable : TableOk w) (hadmitted : admitted request = .ok ())
    (hbound : Bound w request runId row) :
    StartStep runner w (replayingStep runner w session request) session (.replaying request) := by
  have hrunId : row.record.runId = runId := (htable.rows runId row hbound.stored).runId
  unfold replayingStep
  rw [priorRun_bound htable hbound]
  dsimp only
  split
  · rename_i hhash
    subst hrunId
    exact .answered request _ rfl rfl (.found (handle row.record) row hadmitted hbound hhash)
  · rename_i hhash
    exact .answered request _ rfl rfl (.conflicts runId row hadmitted hbound hhash)

theorem start_step (hw : WorldOk runner w) (hstarts : StartsOk P runner w) (hcall : w.calls session = some call)
    (hstart : call.request = some request) (h : step runner w (.advance session tick) = some w') : StartStep runner w w' session call := by
  rw [step, hcall] at h
  cases call with
  | starting request =>
    cases h
    exact startingStep_starts request
  | inserting request => exact insertingStep_starts (hstarts.admitted session _ request hcall rfl) h
  | replaying request =>
    cases h
    obtain ⟨runId, row, hbound⟩ := hstarts.replaying session request hcall
    exact replayingStep_starts hw.table (hstarts.admitted session _ request hcall rfl) hbound
  | _ => cases hstart

/-! ## Every other step -/

structure Quiet (w w' : World) : Prop where
  log : ∀ request answer, .answered request answer ∈ w'.log → .answered request answer ∈ w.log
  calls : ∀ session call request, w'.calls session = some call → call.request = some request →
    w.calls session = some call

theorem quiet_calls (next : Option Call) (hcalls : w'.calls = Function.update w.calls session next)
    (hnext : ∀ call, next = some call → call.request = none) (own : ℕ) (call : Call)
    (request : PlanRunStartRequest) (hcall : w'.calls own = some call)
    (hrequest : call.request = some request) : w.calls own = some call := by
  rw [hcalls] at hcall
  by_cases hown : own = session
  · rw [hown, Function.update_self] at hcall
    rw [hnext call hcall] at hrequest
    cases hrequest
  · rwa [Function.update_of_ne hown] at hcall

theorem quiet_next (next : Call) (hnext : next.request = none) (hlog : w'.log = w.log)
    (hcalls : w'.calls = Function.update w.calls session (some next)) : Quiet w w' where
  log := fun _ _ h => hlog ▸ h
  calls := quiet_calls (some next) hcalls fun call h => by
    cases h
    exact hnext

theorem quiet_ended (hcalls : w'.calls = Function.update w.calls session none) :
    ∀ own call request, w'.calls own = some call → Call.request call = some request → w.calls own = some call :=
  quiet_calls none hcalls fun _ h => by cases h

theorem quiet_returned (hlog : w'.log = w.log ++ [.returned session runId answer])
    (hcalls : w'.calls = Function.update w.calls session none) : Quiet w w' where
  log := fun request own h => by
    rw [hlog, List.mem_append, List.mem_singleton] at h
    rcases h with hold | hnew
    · exact hold
    · cases hnew
  calls := quiet_ended hcalls

theorem markingStep_quiet (record : PlanRunRecord) (attempt : Attempt) :
    Quiet w (markingStep runner w session tick record attempt) := by
  unfold markingStep
  cases hmark : w.beginExecution runner record.runId with
  | none => exact quiet_next (.releasing record.runId _) rfl rfl rfl
  | some marked =>
    rw [beginExecution_some hmark]
    dsimp only
    cases mayRun record attempt with
    | error message => exact quiet_next (.saving _ attempt) rfl rfl rfl
    | ok _ =>
      refine ⟨fun request own h => ?_, quiet_calls (some (.executing record attempt)) rfl ?_⟩
      · rcases List.mem_append.mp h with hold | hnew
        · exact hold
        · cases List.mem_singleton.mp hnew
      · rintro _ ⟨⟩
        rfl

theorem prepareResume_request {record : PlanRunRecord} {submission : PlanRunContinuationSubmission}
    {now : String} (h : prepareResume record submission now = .ok call) : call.request = none := by
  unfold prepareResume at h
  cases hindex : requiredContinuation record submission.continuationId with
  | error e =>
    rw [hindex] at h
    cases h
  | ok index =>
    rw [hindex] at h
    cases submission with
    | postpone requestId continuationId =>
      cases h
      rfl
    | submit requestId continuationId kind value =>
      simp only [bind, Except.bind] at h
      split at h
      · cases h
      · split at h
        · cases h
        · cases h
          rfl

theorem loadingStep_quiet (runId : String) (purpose : Purpose) :
    Quiet w (loadingStep w session tick runId purpose) := by
  have hreleasing : ∀ answer, Quiet w (w.setCall session (.releasing runId answer)) :=
    fun answer => quiet_next (.releasing runId answer) rfl rfl rfl
  unfold loadingStep
  cases purpose with
  | execute =>
    dsimp only
    split
    · exact hreleasing _
    · exact quiet_next (.marking _ .accepted) rfl rfl rfl
  | resume submission =>
    dsimp only
    split
    · exact hreleasing _
    · split
      · exact hreleasing _
      · split
        · exact hreleasing _
        · rename_i hprepare
          exact quiet_next _ (prepareResume_request hprepare) rfl rfl

theorem advance_quiet (hstart : call.request = none)
    (h : advance runner w session tick call = some w') : Quiet w w' := by
  cases call with
  | starting request => cases hstart
  | inserting request => cases hstart
  | replaying request => cases hstart
  | fencing runId purpose =>
    cases h
    unfold fencingStep
    split
    · exact quiet_returned rfl rfl
    · exact quiet_next (.claiming runId purpose) rfl rfl rfl
  | claiming runId purpose =>
    cases h
    unfold claimingStep
    split
    · exact quiet_returned rfl rfl
    · exact quiet_next (.loading runId purpose) rfl rfl rfl
  | loading runId purpose =>
    cases h
    exact loadingStep_quiet runId purpose
  | marking record attempt =>
    cases h
    exact markingStep_quiet record attempt
  | executing record attempt => cases h
  | saving record attempt =>
    cases h
    unfold savingStep
    split
    · exact quiet_next (.releasing record.runId _) rfl rfl rfl
    · exact quiet_next (.settling record.runId _) rfl rfl rfl
  | postponing record expectedRevision =>
    cases h
    unfold postponingStep
    split <;> exact quiet_next (.releasing record.runId _) rfl rfl rfl
  | settling runId answer =>
    cases h
    unfold settlingStep
    dsimp only
    split <;> exact quiet_next (.releasing runId answer) rfl rfl rfl
  | releasing runId answer =>
    cases h
    exact quiet_returned rfl rfl
  | cancelling runId =>
    cases h
    unfold cancellingStep
    split
    · exact quiet_returned rfl rfl
    · split
      · exact quiet_returned rfl rfl
      · split
        · exact quiet_returned rfl rfl
        · exact quiet_next (.withdrawing _) rfl rfl rfl
  | withdrawing record =>
    cases h
    unfold withdrawingStep
    split <;> exact quiet_returned rfl rfl

theorem reportingStep_quiet {progress : Record} (hcall : w.calls session = some call)
    (h : reportingStep w session tick progress call = some w') : Quiet w w' := by
  unfold reportingStep at h
  split at h
  · split at h
    · cases h
      exact ⟨fun _ _ h => h, fun _ _ _ h _ => h⟩
    · split at h <;> (cases h; exact quiet_next (.executing _ .accepted) rfl rfl rfl)
  · cases h

theorem finishingStep_quiet {outcome : Except String PlanRunExecutionResult}
    (h : finishingStep w session tick outcome call = some w') : Quiet w w' := by
  unfold finishingStep at h
  split at h
  · cases h
    exact quiet_next (.saving _ _) rfl rfl rfl
  · cases h

theorem step_quiet {action : Action} (h : step runner w action = some w') :
    Quiet w w' ∨ (∃ request, action = .start request ∧ w' = w.openCall (.starting request)) ∨
      ∃ session tick call request, action = .advance session tick ∧
        w.calls session = some call ∧ call.request = some request := by
  cases action with
  | advance session tick =>
    obtain ⟨call, hcall, hnext⟩ := Option.bind_eq_some_iff.mp h
    cases hrequest : call.request with
    | none => exact .inl (advance_quiet hrequest hnext)
    | some request => exact .inr (.inr ⟨session, tick, call, request, rfl, hcall, hrequest⟩)
  | report session tick progress =>
    obtain ⟨call, hcall, hnext⟩ := Option.bind_eq_some_iff.mp h
    exact .inl (reportingStep_quiet hcall hnext)
  | finish session tick outcome =>
    obtain ⟨call, hcall, hnext⟩ := Option.bind_eq_some_iff.mp h
    exact .inl (finishingStep_quiet hnext)
  | setEnabled enabled =>
    cases h
    exact .inl ⟨fun _ _ h => h, fun _ _ _ h _ => h⟩
  | crash session =>
    cases h
    exact .inl ⟨fun _ _ h => h, quiet_ended rfl⟩
  | start request =>
    cases h
    exact .inr (.inl ⟨request, rfl, rfl⟩)
  | execute runId =>
    cases h
    exact .inl (quiet_next (.fencing runId .execute) rfl rfl rfl)
  | resume runId submission =>
    cases h
    exact .inl (quiet_next (.fencing runId (.resume submission)) rfl rfl rfl)
  | cancel runId =>
    cases h
    exact .inl (quiet_next (.cancelling runId) rfl rfl rfl)

/-! ## Runs -/

theorem bound_moves (hmoves : ∀ runId, RowMoves runner w w' session runId) (h : ∃ runId row, Bound w request runId row) :
    ∃ runId row, Bound w' request runId row := by
  obtain ⟨runId, row, hbound⟩ := h
  obtain ⟨later, hlater, -⟩ := hbound.moves (hmoves runId)
  exact ⟨runId, later, hlater⟩

theorem StartsOk.quiet (h : StartsOk P runner w) (hquiet : Quiet w w')
    (hmoves : ∀ runId, RowMoves runner w w' session runId) : StartsOk P runner w' where
  requested := fun own call request hcall hrequest =>
    h.requested own call request (hquiet.calls own call request hcall hrequest) hrequest
  answered := fun request answer hlog =>
    (h.answered request answer (hquiet.log _ _ hlog)).imp_right fun hanswer => hanswer.moves hmoves
  admitted := fun own call request hcall hadmits =>
    h.admitted own call request (hquiet.calls own call request hcall (Call.admits_request hadmits)) hadmits
  replaying := fun own request hcall =>
    bound_moves hmoves (h.replaying own request (hquiet.calls own _ request hcall rfl))

theorem StartsOk.opened (h : StartsOk P runner w) (hP : P request) :
    StartsOk P runner (w.openCall (.starting request)) := by
  have hcases : ∀ own call, (w.openCall (.starting request)).calls own = some call →
      w.calls own = some call ∨ call = .starting request := by
    intro own call hcall
    have hafter : Function.update w.calls w.sessions (some (.starting request)) own = some call := hcall
    by_cases hown : own = w.sessions
    · rw [hown, Function.update_self] at hafter
      exact .inr (Option.some.inj hafter).symm
    · exact .inl ((Function.update_of_ne hown _ _).symm.trans hafter)
  have hrows : ∀ runId, RowMoves runner w (w.openCall (.starting request)) w.sessions runId := fun _ => .same rfl
  refine ⟨fun own call other hcall hrequest => ?_, fun other answer hlog => (h.answered other answer hlog).imp_right
      fun hanswer => hanswer.moves hrows,
    fun own call other hcall hadmits => ?_, fun own other hcall => ?_⟩
  · rcases hcases own call hcall with hold | rfl
    · exact h.requested own call other hold hrequest
    · cases hrequest
      exact hP
  · rcases hcases own call hcall with hold | rfl
    · exact h.admitted own call other hold hadmits
    · exact hadmits.elim
  · rcases hcases own _ hcall with hold | hnew
    · obtain ⟨runId, row, hrow, hsubject, hkey⟩ := h.replaying own other hold
      exact ⟨runId, row, hrow, hsubject, hkey⟩
    · cases hnew

theorem inserted_calls {tick : Tick} {own : ℕ}
    (hcall : (((w.insertRun tick.uuid row).answer session request answer).openCall
      (.fencing tick.uuid .execute)).calls own = some call) (hrequest : call.request = some request') :
    w.calls own = some call := by
  have hafter : Function.update (Function.update w.calls session none) w.sessions
      (some (Call.fencing tick.uuid .execute)) own = some call := hcall
  by_cases hnew : own = w.sessions
  · rw [hnew, Function.update_self] at hafter
    cases hafter
    cases hrequest
  · rw [Function.update_of_ne hnew] at hafter
    by_cases hsame : own = session
    · rw [hsame, Function.update_self] at hafter
      cases hafter
    · rwa [Function.update_of_ne hsame] at hafter

theorem StartsOk.started (h : StartsOk P runner w) (hcall : w.calls session = some call)
    (hstep : StartStep runner w w' session call)
    (hmoves : ∀ runId, RowMoves runner w w' session runId) : StartsOk P runner w' := by
  cases hstep with
  | next later hrequest hquiet hadmits hreplays =>
    subst hquiet
    have hcases : ∀ own other, (w.setCall session later).calls own = some other →
        own = session ∧ other = later ∨ w.calls own = some other := by
      intro own other hown
      have hafter : Function.update w.calls session (some later) own = some other := hown
      by_cases hsame : own = session
      · rw [hsame, Function.update_self] at hafter
        exact .inl ⟨hsame, (Option.some.inj hafter).symm⟩
      · exact .inr ((Function.update_of_ne hsame _ _).symm.trans hafter)
    refine ⟨fun own other request hown hother => ?_,
      fun request answer hlog => (h.answered request answer hlog).imp_right fun ha => ha.moves hmoves,
      fun own other request hown hother => ?_, fun own request hown => ?_⟩
    · rcases hcases own other hown with ⟨rfl, rfl⟩ | hold
      · exact h.requested own call request hcall (hrequest.symm.trans hother)
      · exact h.requested own other request hold hother
    · rcases hcases own other hown with ⟨rfl, rfl⟩ | hold
      · exact hadmits request hother
      · exact h.admitted own other request hold hother
    · refine bound_moves hmoves ?_
      rcases hcases own _ hown with ⟨-, hlater⟩ | hold
      · exact hreplays request hlater.symm
      · exact h.replaying own request hold
  | answered request answer hrequest hquiet hanswer =>
    subst hquiet
    have hcalls : ∀ own call request', (w.answer session request answer).calls own = some call →
        call.request = some request' → w.calls own = some call := quiet_ended rfl
    refine ⟨fun own other request' hown hother =>
        h.requested own other request' (hcalls own other request' hown hother) hother,
      fun own other hlog => ?_,
      fun own other request' hown hother => h.admitted own other request'
        (hcalls own other request' hown (Call.admits_request hother)) hother,
      fun own request' hown => bound_moves hmoves (h.replaying own request' (hcalls own _ request' hown rfl))⟩
    rcases List.mem_append.mp hlog with hold | hnew
    · exact (h.answered own other hold).imp_right fun ha => ha.moves hmoves
    · obtain ⟨rfl, rfl⟩ := Event.answered.inj (List.mem_singleton.mp hnew)
      exact ⟨h.requested session call own hcall hrequest, hanswer.moves hmoves⟩
  | inserted request tick hinserting hadmitted hprior hinserted =>
    subst hinserting
    have hcalls : ∀ own call request', w'.calls own = some call → call.request = some request' →
        w.calls own = some call := by
      subst hinserted
      exact fun own call request' => inserted_calls
    refine ⟨fun own other request' hown hother =>
        h.requested own other request' (hcalls own other request' hown hother) hother,
      fun own other hlog => ?_,
      fun own other request' hown hother => h.admitted own other request'
        (hcalls own other request' hown (Call.admits_request hother)) hother,
      fun own request' hown => bound_moves hmoves (h.replaying own request' (hcalls own _ request' hown rfl))⟩
    have hlog' : .answered own other ∈ w.log ++
        [Event.answered request (.handle (handle (newRecord request tick.uuid tick.now)))] := by
      rw [hinserted] at hlog
      exact hlog
    rcases List.mem_append.mp hlog' with hold | hnew
    · exact (h.answered own other hold).imp_right fun ha => ha.moves hmoves
    · obtain ⟨rfl, rfl⟩ := Event.answered.inj (List.mem_singleton.mp hnew)
      refine ⟨h.requested session _ own hcall rfl,
        .found _ (newRow runner own tick.uuid tick.now) hadmitted ⟨?_, rfl, rfl⟩ rfl⟩
      rw [hinserted]
      exact Function.update_self _ _ _

def Action.requests (P : PlanRunStartRequest → Prop) : Action → Prop
  | .start request => P request
  | _ => True

theorem step_startsOk (hw : WorldOk runner w) (hstarts : StartsOk P runner w) {action : Action}
    (hP : action.requests P) (h : step runner w action = some w') : StartsOk P runner w' := by
  have hmoves := (step_moves hw h).rows
  rcases step_quiet h with hquiet | ⟨request, rfl, rfl⟩ | ⟨session, tick, call, request, rfl, hcall, hstart⟩
  · exact hstarts.quiet hquiet hmoves
  · exact hstarts.opened hP
  · exact hstarts.started hcall (start_step hw hstarts hcall hstart h) hmoves

theorem start_startsOk : StartsOk P runner World.start where
  requested := fun _ _ _ hcall => by cases hcall
  answered := fun _ _ hlog => by cases hlog
  admitted := fun _ _ _ hcall => by cases hcall
  replaying := fun _ _ hcall => by cases hcall

theorem run_startsOk {actions : List Action} (hP : ∀ action ∈ actions, action.requests P)
    (h : run (step runner) World.start actions = some w) : StartsOk P runner w :=
  (run_invariant (I := fun w => WorldOk runner w ∧ StartsOk P runner w) (P := Action.requests P)
    (fun _ _ _ hP hs hstep => ⟨step_worldOk hs.1 hstep, step_startsOk hs.1 hs.2 hP hstep⟩)
    hP ⟨start_worldOk, start_startsOk⟩ h).2

theorem starts_agree (htable : TableOk w)
    {handle : PlanRunHandle} (h : StartAnswer runner w request (.handle handle))
    (h' : StartAnswer runner w request' answer) (hsubject : request.subjectId = request'.subjectId)
    (hkey : request.idempotencyKey = request'.idempotencyKey) : TurnedAway request' answer ∨
      admitted request' = .ok () ∧ (runner.materialHash request = runner.materialHash request' ∧
        (∃ handle', answer = .handle handle' ∧ handle'.runId = handle.runId) ∨
      runner.materialHash request ≠ runner.materialHash request' ∧ answer = conflict boundMessage) := by
  cases h with
  | away answer haway =>
    obtain ⟨message, hmessage, -⟩ := haway
    cases hmessage
  | found handle row hadmitted hbound hhash =>
    cases h' with
    | away answer haway => exact .inl haway
    | found handle' row' hadmitted' hbound' hhash' =>
      obtain ⟨hid, rfl⟩ := hbound.unique htable hbound' hsubject hkey
      exact .inr ⟨hadmitted', .inl ⟨hhash.symm.trans hhash', handle', rfl, hid.symm⟩⟩
    | conflicts runId row' hadmitted' hbound' hhash' =>
      obtain ⟨-, rfl⟩ := hbound.unique htable hbound' hsubject hkey
      exact .inr ⟨hadmitted', .inr ⟨by rwa [← hhash], rfl⟩⟩

end Starts

end AvenOS.ActorRunner
