import AvenOS.Foundations.RecentWindow
import AvenOS.Voice.Coordinator

/-! # Commands that are sent again

The ledger of requests keeps the answers to the last commands that were applied. A command whose answer is
kept is answered the same and does nothing; it is applied again only when so many others have been applied. -/
namespace AvenOS.Voice
open AvenOS.RecentWindow

/-! ## Only a recorded command changes the ledger -/

namespace VoiceState
variable {platform : Platform} (s : VoiceState)

@[simp] theorem cancelActiveTurn_requests (reason : SpeechCancelReason) :
    (s.cancelActiveTurn reason).1.requests = s.requests := by
  unfold cancelActiveTurn
  split <;> rfl

@[simp] theorem failActiveTurn_requests : s.failActiveTurn.1.requests = s.requests := by
  unfold failActiveTurn
  split <;> rfl

@[simp] theorem discardCandidate_requests (reason : InputDiscardReason) :
    (s.discardCandidate reason).1.requests = s.requests := by
  unfold discardCandidate
  split <;> rfl

@[simp] theorem publishCandidateSpeaker_requests (candidateId : CandidateId) :
    (s.publishCandidateSpeaker platform candidateId).1.requests = s.requests := by
  unfold publishCandidateSpeaker
  split
  · rfl
  · split_ifs
    · split
      · rfl
      · dsimp only
        split <;> rfl
    · rfl

@[simp] theorem setCandidate_requests (change : CandidateState → CandidateState) :
    (s.setCandidate change).requests = s.requests := rfl

@[simp] theorem markUnsafe_requests (farEndActive safe : Bool) :
    (s.markUnsafe farEndActive safe).requests = s.requests := by
  unfold markUnsafe
  split <;> rfl

@[simp] theorem confirmCandidate_requests (candidateId : CandidateId) :
    (s.confirmCandidate platform candidateId).1.requests = s.requests := by
  unfold confirmCandidate
  split
  · rfl
  · simp

@[simp] theorem scheduleRetry_requests (now : MonoTimeNs) : (s.scheduleRetry now).1.requests = s.requests := by
  unfold scheduleRetry
  split <;> rfl

@[simp] theorem handleRouteFault_requests (generation : RouteGeneration) (recoverable : Bool)
    (now : MonoTimeNs) : (s.handleRouteFault generation recoverable now).1.requests = s.requests := by
  unfold handleRouteFault
  split
  · rfl
  · cases recoverable <;> simp

@[simp] theorem supersede_requests : s.supersede.1.requests = s.requests := by
  unfold supersede
  split <;> simp

theorem applyCommand_requests (command : Command) : (s.applyCommand platform command).state.requests = s.requests := by
  cases command with
  | prepare => rfl
  | startSession =>
    show (s.startSession _ _).state.requests = _
    unfold startSession
    split
    · rfl
    · exact s.supersede_requests
  | stopSession _ sessionId =>
    show (s.stopSession sessionId).state.requests = _
    unfold stopSession
    split
    · split <;> rfl
    · simp [accept]
  | beginSpeech _ sessionId _ language voice =>
    show (s.beginSpeech platform sessionId language voice).state.requests = _
    unfold beginSpeech
    split_ifs
    · rfl
    · rfl
    · rfl
    · exact s.cancelActiveTurn_requests _
  | enqueueSpeech _ sessionId turnId segmentIndex text =>
    show (s.enqueueSpeech platform sessionId turnId segmentIndex text).state.requests = _
    unfold enqueueSpeech
    split
    · rfl
    · split
      · rfl
      · dsimp only
        split_ifs <;> rfl
  | finishSpeech _ sessionId turnId =>
    show (s.finishSpeech sessionId turnId).state.requests = _
    unfold finishSpeech
    split
    · rfl
    · split <;> split_ifs <;> rfl
  | cancelSpeech _ sessionId turnId reason =>
    show (s.cancelSpeech sessionId turnId reason).state.requests = _
    unfold cancelSpeech
    split
    · split_ifs <;> rfl
    · split
      · exact s.cancelActiveTurn_requests reason
      · split_ifs
        · exact s.cancelActiveTurn_requests reason
        · rfl
        · rfl
  | resetInput _ sessionId =>
    show (s.resetInput sessionId).state.requests = _
    unfold resetInput
    split
    · rfl
    · exact s.discardCandidate_requests _
  | setDiagnostics _ sessionId enabled =>
    show (s.setDiagnostics sessionId enabled).state.requests = _
    unfold setDiagnostics
    split_ifs <;> rfl
  | retryRoute _ sessionId =>
    show (s.retryRoute sessionId).state.requests = _
    unfold retryRoute
    split_ifs <;> rfl

theorem noteCandidate_requests (candidateId : CandidateId) (generation : RouteGeneration)
    (change : CandidateState → CandidateState) :
    (s.noteCandidate candidateId generation change).1.requests = s.requests := by
  unfold noteCandidate
  split <;> rfl

theorem recognizerPartial_requests (candidateId : CandidateId) (generation : RouteGeneration)
    (text : String) (farEndActive safe : Bool) :
    (s.recognizerPartial platform candidateId generation text farEndActive safe).1.requests = s.requests := by
  unfold recognizerPartial
  split
  · dsimp only
    split_ifs <;> simp
  · rfl

theorem recognizerFinal_requests (candidateId : CandidateId) (generation : RouteGeneration)
    (text : String) (farEndActive safe : Bool) :
    (s.recognizerFinal platform candidateId generation text farEndActive safe).1.requests = s.requests := by
  unfold recognizerFinal
  split
  · dsimp only
    split_ifs <;> simp
  · rfl

theorem observe_requests (observation : Observation) (now : MonoTimeNs) :
    (s.observe platform now observation).1.requests = s.requests := by
  cases observation with
  | modelsPrepared =>
    simp only [observe, modelsPrepared]
    split_ifs <;> rfl
  | modelsFailed =>
    simp only [observe, modelsFailed]
    split_ifs <;> rfl
  | environmentActivated =>
    simp only [observe, environmentActivated]
    split_ifs <;> rfl
  | routeOpened =>
    simp only [observe, routeOpened]
    split_ifs <;> rfl
  | routeStarted =>
    simp only [observe, routeStarted]
    split_ifs <;> rfl
  | captureArrived =>
    simp only [observe, captureArrived]
    split_ifs <;> rfl
  | echoChanged =>
    simp only [observe, echoChanged]
    split_ifs <;> rfl
  | vadStarted =>
    simp only [observe, vadStarted]
    split_ifs <;> rfl
  | nearEndEvidence => exact s.noteCandidate_requests _ _ _
  | candidateAdaptationReady => exact s.noteCandidate_requests _ _ _
  | recognizerPartial => exact s.recognizerPartial_requests _ _ _ _ _
  | recognizerFinal => exact s.recognizerFinal_requests _ _ _ _ _
  | speakerEmbedding =>
    simp only [observe, speakerEmbedding]
    split_ifs <;> simp
  | candidateOverflow =>
    simp only [observe, candidateOverflow]
    split_ifs <;> simp
  | inputModelFailed =>
    simp only [observe, inputModelFailed]
    split_ifs <;> simp
  | playbackAudible =>
    simp only [observe, playbackAudible]
    split
    · rfl
    · split_ifs <;> rfl
  | synthesisStarted =>
    simp only [observe, synthesisStarted]
    split <;> rfl
  | synthesisCompleted =>
    simp only [observe, synthesisCompleted]
    split <;> rfl
  | synthesisFailed =>
    simp only [observe, synthesisFailed]
    split <;> simp
  | playbackDrained =>
    simp only [observe, playbackDrained]
    split
    · rfl
    · split_ifs <;> rfl
  | fadeDrained =>
    simp only [observe, fadeDrained]
    split <;> rfl
  | routeFault => exact s.handleRouteFault_requests _ _ _
  | callbacksStalled =>
    simp only [observe, callbacksStalled]
    split_ifs <;> simp
  | metricsUpdated =>
    simp only [observe, metricsUpdated]
    split_ifs <;> rfl
  | routeRetryDue =>
    simp only [observe, routeRetryDue]
    split_ifs
    · split <;> rfl
    · rfl
  | diagnosticsTick =>
    simp only [observe, diagnosticsTick]
    split_ifs <;> rfl

end VoiceState

/-! ## The ledger -/

theorem requestHistory_pos : 0 < requestHistory := Nat.zero_lt_succ 255

namespace RequestLedger
variable {ledger : RequestLedger} {command : Command} {result : Except CoreError CachedResult}
  {requestId : RequestId} {entry : RequestEntry}

structure Sound (ledger : RequestLedger) : Prop where
  nodup : ledger.order.Nodup
  held : ∀ requestId, requestId ∈ ledger.order ↔ (ledger.entries requestId).isSome = true

theorem find_eq_none : ledger.find command = none ↔ ledger.entries command.requestId = none := Option.map_eq_none_iff

theorem evict_order : ledger.evict.order = ledger.order.tail := by
  unfold evict
  split
  · rename_i horder
    rw [horder]
    rfl
  · rename_i horder
    rw [horder]
    rfl

theorem evict_entries (h : ledger.evict.entries requestId = some entry) : ledger.entries requestId = some entry := by
  unfold evict at h
  split at h
  · exact h
  · dsimp only at h
    split at h
    · cases h
    · exact h

theorem Sound.evict (h : ledger.Sound) : ledger.evict.Sound := by
  unfold RequestLedger.evict
  split
  · exact h
  · rename_i oldest order horder
    have hnodup := h.nodup
    rw [horder, List.nodup_cons] at hnodup
    refine ⟨hnodup.2, fun requestId => ?_⟩
    have hheld := h.held requestId
    rw [horder, List.mem_cons] at hheld
    dsimp only
    split
    · rename_i heq
      exact ⟨fun hmem => absurd (heq ▸ hmem) hnodup.1, fun hnone => by cases hnone⟩
    · rename_i hne
      rw [← hheld]
      exact ⟨Or.inr, fun hmem => hmem.resolve_left hne⟩

/-- What is kept when a command is recorded. -/
def kept (ledger : RequestLedger) : RequestLedger :=
  if ledger.order.length = requestHistory then ledger.evict else ledger

theorem Sound.kept (h : ledger.Sound) : ledger.kept.Sound := by
  unfold RequestLedger.kept
  split
  · exact h.evict
  · exact h

theorem kept_order : ledger.kept.order =
    if ledger.order.length = requestHistory then ledger.order.tail else ledger.order := by
  unfold kept
  split
  · exact evict_order
  · rfl

theorem kept_entries (h : ledger.kept.entries requestId = some entry) : ledger.entries requestId = some entry := by
  unfold kept at h
  split at h
  · exact evict_entries h
  · exact h

theorem record_new (hnew : ledger.entries command.requestId = none) : ledger.record command result =
      ⟨ledger.kept.order ++ [command.requestId], fun requestId =>
        if requestId = command.requestId then some ⟨command, result⟩ else ledger.kept.entries requestId⟩ := by
  unfold record
  rw [hnew]
  rfl

theorem record_entry (hnew : ledger.entries command.requestId = none) :
    (ledger.record command result).entries command.requestId = some ⟨command, result⟩ := by
  rw [record_new hnew]
  exact if_pos rfl

theorem record_order (hnew : ledger.entries command.requestId = none) :
    (ledger.record command result).order = push requestHistory ledger.order command.requestId := by
  rw [record_new hnew, push, ← kept_order]

theorem Sound.record (h : ledger.Sound) (hnew : ledger.entries command.requestId = none) :
    (ledger.record command result).Sound := by
  have hunheld : command.requestId ∉ ledger.kept.order := by
    intro hmem
    obtain ⟨entry, hentry⟩ := Option.isSome_iff_exists.mp ((h.kept.held _).mp hmem)
    rw [kept_entries hentry] at hnew
    cases hnew
  rw [record_new hnew]
  refine ⟨h.kept.nodup.append (List.nodup_singleton _) (List.disjoint_singleton.mpr hunheld), ?_⟩
  intro requestId
  rw [List.mem_append, List.mem_singleton]
  dsimp only
  split
  · rename_i heq
    exact ⟨fun _ => rfl, fun _ => Or.inr heq⟩
  · rename_i hne
    rw [← h.kept.held requestId]
    exact ⟨fun hmem => hmem.resolve_right hne, Or.inl⟩

end RequestLedger

/-! ## What has been applied -/

def Moment.applied (moment : Moment) : Option Command :=
  match moment.input with
  | .command command => if (moment.state.requests.find command).isSome then none else some command
  | .observation _ _ => none

def recorded (log : List Moment) : List RequestId := (log.filterMap Moment.applied).map Command.requestId

@[simp] theorem recorded_nil : recorded [] = [] := rfl

@[simp] theorem recorded_append (log more : List Moment) : recorded (log ++ more) = recorded log ++ recorded more := by
  rw [recorded, List.filterMap_append, List.map_append]
  rfl

variable {platform : Platform}

theorem recorded_next {session : Session} {input : Input} {applied : Option Command}
    (happlied : Moment.applied ⟨session.state, input, (react platform session.state input).2⟩ = applied) :
    recorded (session.next platform input).log = recorded session.log ++ (applied.map Command.requestId).toList := by
  rw [Session.next, recorded_append]
  congr 1
  cases applied with
  | none => rw [recorded, List.filterMap_cons_none happlied]; rfl
  | some command => rw [recorded, List.filterMap_cons_some happlied]; rfl

def Made (platform : Platform) (log : List Moment) (requestId : RequestId) (entry : RequestEntry) : Prop :=
  ∃ before moment after, log = before ++ moment :: after ∧
    moment.applied = some entry.fingerprint ∧ entry.fingerprint.requestId = requestId ∧
    entry.result = (moment.state.command platform entry.fingerprint).result ∧
    ∀ later ∈ after, requestId ∈ later.state.requests.order

structure Ledgered (platform : Platform) (session : Session) : Prop where
  sound : session.state.requests.Sound
  order : session.state.requests.order = recent requestHistory (recorded session.log)
  fresh : Fresh requestHistory (recorded session.log)
  made : ∀ requestId entry, session.state.requests.entries requestId = some entry →
    Made platform session.log requestId entry

/-! ## Runs -/

section Runs
variable {platform : Platform}

variable {s : VoiceState} {command : Command} {session : Session} {requestId : RequestId} {entry : RequestEntry}

theorem command_known {result : Except CoreError CachedResult} (h : s.requests.find command = some result) :
    s.command platform command = ⟨result, s, []⟩ := by
  rw [VoiceState.command, h]

theorem command_new (h : s.requests.find command = none) : (s.command platform command).state.requests =
        s.requests.record command (s.command platform command).result ∧
      (s.command platform command).result = (s.applyCommand platform command).result := by
  rw [VoiceState.command, h]
  refine ⟨?_, rfl⟩
  show RequestLedger.record (s.applyCommand platform command).state.requests _ _ = _
  rw [s.applyCommand_requests command]

theorem Made.next {input : Input} (h : Made platform session.log requestId entry)
    (hheld : requestId ∈ session.state.requests.order) :
    Made platform (session.next platform input).log requestId entry := by
  obtain ⟨before, moment, after, hlog, happlied, hid, hresult, hkept⟩ := h
  refine ⟨before, moment, after ++ [⟨session.state, input, (react platform session.state input).2⟩],
    by rw [Session.next, hlog]; simp, happlied, hid, hresult, fun later hlater => ?_⟩
  rcases List.mem_append.mp hlater with hold | hlast
  · exact hkept later hold
  · rw [List.mem_singleton.mp hlast]
    exact hheld

theorem Ledgered.mem (h : Ledgered platform session) (hentry : session.state.requests.entries requestId = some entry) :
    requestId ∈ session.state.requests.order := by
  rw [h.sound.held, hentry]
  rfl

theorem Ledgered.quiet (h : Ledgered platform session) (input : Input)
    (hquiet : Moment.applied ⟨session.state, input, (react platform session.state input).2⟩ = none)
    (hsame : (react platform session.state input).1.requests = session.state.requests) :
    Ledgered platform (session.next platform input) := by
  have hrecorded : recorded (session.next platform input).log = recorded session.log :=
    (recorded_next hquiet).trans (List.append_nil _)
  have hstate : (session.next platform input).state.requests = session.state.requests := hsame
  refine ⟨hstate ▸ h.sound, ?_, hrecorded ▸ h.fresh, fun requestId entry hentry => ?_⟩
  · rw [hstate, hrecorded, h.order]
  · rw [hstate] at hentry
    exact (h.made requestId entry hentry).next (h.mem hentry)

theorem Ledgered.apply (h : Ledgered platform session) (command : Command)
    (hnew : session.state.requests.find command = none) :
    Ledgered platform (session.next platform (.command command)) := by
  have hnone := RequestLedger.find_eq_none.mp hnew
  have happlied : Moment.applied ⟨session.state, .command command,
      (react platform session.state (.command command)).2⟩ = some command := by
    rw [Moment.applied]
    simp [hnew]
  have hrecorded : recorded (session.next platform (.command command)).log =
      recorded session.log ++ [command.requestId] := recorded_next happlied
  have hstate : (session.next platform (.command command)).state.requests =
      session.state.requests.record command (session.state.command platform command).result :=
    (command_new hnew).1
  have hunheld : command.requestId ∉ session.state.requests.order := by
    rw [h.sound.held, hnone]
    exact Bool.false_ne_true
  refine ⟨hstate ▸ h.sound.record hnone, ?_, ?_, fun requestId entry hentry => ?_⟩
  · rw [hstate, hrecorded, RequestLedger.record_order hnone, h.order, push_recent requestHistory_pos]
  · rw [h.order] at hunheld
    rw [hrecorded]
    exact h.fresh.concat hunheld
  · rw [hstate, RequestLedger.record_new hnone] at hentry
    dsimp only at hentry
    split at hentry
    · rename_i hid
      cases hentry
      exact ⟨session.log, ⟨session.state, .command command,
        (react platform session.state (.command command)).2⟩, [], rfl, happlied, hid.symm, rfl,
        fun _ hlater => absurd hlater List.not_mem_nil⟩
    · have hold := RequestLedger.kept_entries hentry
      exact (h.made requestId entry hold).next (h.mem hold)

theorem Ledgered.next (h : Ledgered platform session) (input : Input) :
    Ledgered platform (session.next platform input) := by
  cases input with
  | observation observation now =>
    exact h.quiet _ rfl (session.state.observe_requests observation now)
  | command command =>
    cases hfind : session.state.requests.find command with
    | none => exact h.apply command hfind
    | some result =>
      have happlied : Moment.applied ⟨session.state, .command command,
          (react platform session.state (.command command)).2⟩ = none := by
        rw [Moment.applied]
        simp [hfind]
      refine h.quiet _ happlied ?_
      show (session.state.command platform command).state.requests = _
      rw [command_known hfind]

theorem reachable_ledgered (h : Reachable platform session) : Ledgered platform session := by
  induction h with
  | new =>
    refine ⟨⟨List.nodup_nil, fun requestId => ⟨nofun, nofun⟩⟩, ?_, fresh_nil, nofun⟩
    rw [recent]
    exact List.drop_nil.symm
  | next session input _ _ ih => exact ih.next input

end Runs

/-! ## Commands that are sent again -/

/-- What the ledger of a session promises. -/
structure Idempotent (platform : Platform) (session : Session) : Prop where
  nodup : session.state.requests.order.Nodup
  held : ∀ requestId, requestId ∈ session.state.requests.order ↔
    (session.state.requests.entries requestId).isSome = true
  bounded : session.state.requests.order.length ≤ requestHistory
  /-- What is kept was recorded by a command that was applied, and has been kept since; that command is
  answered the same, and any other is a conflict. -/
  answered : ∀ requestId ∈ session.state.requests.order, ∃ before moment after command,
    session.log = before ++ moment :: after ∧ moment.applied = some command ∧
      command.requestId = requestId ∧
      (∀ later ∈ after, requestId ∈ later.state.requests.order) ∧
      session.state.command platform command =
        ⟨(moment.state.command platform command).result, session.state, []⟩ ∧
      ∀ other, other.requestId = requestId → other ≠ command →
        session.state.command platform other =
          ⟨.error ⟨.requestConflict, "request ID was reused for a different command"⟩, session.state, []⟩
  /-- Between two applications of one identifier a whole ledger of others is recorded. -/
  apart : ∀ before first between second after command again,
    session.log = before ++ first :: between ++ second :: after →
    first.applied = some command → second.applied = some again →
    again.requestId = command.requestId →
    ∃ others, List.Sublist others (recorded between) ∧ others.Nodup ∧ others.length = requestHistory ∧
      command.requestId ∉ others

section Answers
variable {platform : Platform} {session : Session}

theorem Ledgered.answered (h : Ledgered platform session) {requestId : RequestId}
    (hmem : requestId ∈ session.state.requests.order) :
    ∃ before moment after command, session.log = before ++ moment :: after ∧
      moment.applied = some command ∧ command.requestId = requestId ∧
      (∀ later ∈ after, requestId ∈ later.state.requests.order) ∧ session.state.command platform command =
        ⟨(moment.state.command platform command).result, session.state, []⟩ ∧
      ∀ other, other.requestId = requestId → other ≠ command → session.state.command platform other =
          ⟨.error ⟨.requestConflict, "request ID was reused for a different command"⟩, session.state, []⟩ := by
  obtain ⟨entry, hentry⟩ := Option.isSome_iff_exists.mp ((h.sound.held requestId).mp hmem)
  obtain ⟨before, moment, after, hlog, happlied, hid, hresult, hkept⟩ := h.made requestId entry hentry
  refine ⟨before, moment, after, entry.fingerprint, hlog, happlied, hid, hkept, ?_, fun other hother hne => ?_⟩
  · rw [← hresult]
    refine command_known ?_
    rw [RequestLedger.find, hid, hentry]
    exact congrArg some (if_pos rfl)
  · refine command_known ?_
    rw [RequestLedger.find, hother, hentry]
    exact congrArg some (if_neg hne.symm)

theorem Ledgered.apart (h : Ledgered platform session) {before between after : List Moment}
    {first second : Moment} {command again : Command}
    (hlog : session.log = before ++ first :: between ++ second :: after)
    (hfirst : first.applied = some command) (hsecond : second.applied = some again)
    (hsame : again.requestId = command.requestId) :
    ∃ others, List.Sublist others (recorded between) ∧ others.Nodup ∧ others.length = requestHistory ∧
      command.requestId ∉ others := by
  have hrecorded : recorded session.log = recorded before ++ command.requestId :: recorded between ++
      command.requestId :: recorded after := by
    rw [hlog]
    simp [recorded, hfirst, hsecond, hsame]
  exact Fresh.apart (hrecorded ▸ h.fresh)

/-- A command whose answer is kept is answered as it was when it was recorded, without any effect. -/
theorem requests_idempotent (h : Reachable platform session) : Idempotent platform session := by
  have hledger := reachable_ledgered h
  refine ⟨hledger.sound.nodup, hledger.sound.held, ?_, fun _ => hledger.answered, ?_⟩
  · rw [hledger.order]
    exact length_recent_le
  · intro before first between second after command again hlog hfirst hsecond hsame
    exact hledger.apart hlog hfirst hsecond hsame

end Answers

/-! ## A command that has been forgotten -/

def preparations (requestIds : List RequestId) : List Input :=
  requestIds.map fun requestId => .command (.prepare requestId [])

theorem Ledgered.prepare (requestIds : List RequestId) (session : Session) (h : Ledgered platform session)
    (hnodup : requestIds.Nodup) (hnew : ∀ requestId ∈ requestIds, requestId ∉ recorded session.log) :
    recorded (session.run platform (preparations requestIds)).log = recorded session.log ++ requestIds ∧
      (session.run platform (preparations requestIds)).state.inputReady = session.state.inputReady ∧
      (session.run platform (preparations requestIds)).state.outputReady = session.state.outputReady ∧
      ∃ more, (session.run platform (preparations requestIds)).log = session.log ++ more := by
  induction requestIds generalizing session with
  | nil => exact ⟨(List.append_nil _).symm, rfl, rfl, [], (List.append_nil _).symm⟩
  | cons requestId requestIds ih =>
    have hunheld : session.state.requests.find (.prepare requestId []) = none := by
      rw [RequestLedger.find_eq_none, ← Option.not_isSome_iff_eq_none, ← h.sound.held, h.order]
      exact fun hmem => hnew requestId List.mem_cons_self (mem_of_mem_recent hmem)
    have happlied : Moment.applied ⟨session.state, .command (.prepare requestId []),
        (react platform session.state (.command (.prepare requestId []))).2⟩ =
        some (.prepare requestId []) := by
      rw [Moment.applied]
      simp [hunheld]
    have hrecorded := recorded_next happlied
    have hstate : (session.next platform (.command (.prepare requestId []))).state.inputReady =
          session.state.inputReady ∧
        (session.next platform (.command (.prepare requestId []))).state.outputReady =
          session.state.outputReady := by
      rw [Session.next_state, react, VoiceState.command, hunheld]
      exact ⟨rfl, rfl⟩
    obtain ⟨hafter, hinput, houtput, more, hlog⟩ := ih (session.next platform (.command (.prepare requestId [])))
      (h.next _) (List.nodup_cons.mp hnodup).2 fun other hother hmem => by
        rw [hrecorded, List.mem_append] at hmem
        rcases hmem with hold | hsame
        · exact hnew other (List.mem_cons_of_mem _ hother) hold
        · rw [List.mem_singleton.mp hsame] at hother
          exact (List.nodup_cons.mp hnodup).1 hother
    refine ⟨?_, hinput.trans hstate.1, houtput.trans hstate.2, _, hlog.trans (List.append_assoc _ _ _)⟩
    rw [hrecorded, List.append_assoc] at hafter
    exact hafter

def refusedInputs : List Input :=
  [.command (.startSession "again" none none), .observation (.modelsPrepared true true) 0]

def refusedSession : Session := (Session.new "boot" .default).run plainPlatform refusedInputs

theorem reachable_refused : Reachable plainPlatform refusedSession := reachable_run (.new "boot" .default) refusedInputs

theorem requests_idempotent_refused : Idempotent plainPlatform refusedSession :=
  requests_idempotent reachable_refused

theorem started_after_others (others : List RequestId) (hmany : others.length = requestHistory)
    (hnodup : others.Nodup) (hagain : "again" ∉ others) (session : Session)
    (hsession : session = refusedSession.run plainPlatform (preparations others)) :
    Reachable plainPlatform session ∧ session.state.requests.find (.startSession "again" none none) = none ∧
      session.state.inputReady = true ∧ session.state.outputReady = true ∧
      ∃ more, session.log = refusedSession.log ++ more := by
  have hreachable : Reachable plainPlatform session := by
    rw [hsession]
    exact reachable_run reachable_refused _
  have hledger := reachable_ledgered hreachable
  have hrecorded : recorded refusedSession.log = ["again"] := by decide +kernel
  obtain ⟨hafter, hinput, houtput, hlog⟩ := (reachable_ledgered reachable_refused).prepare others
    refusedSession hnodup fun requestId hmem hold => by
      rw [hrecorded, List.mem_singleton] at hold
      exact hagain (hold ▸ hmem)
  rw [← hsession] at hafter hinput houtput hlog
  refine ⟨hreachable, ?_, hinput.trans (by decide +kernel), houtput.trans (by decide +kernel), hlog⟩
  rw [RequestLedger.find_eq_none, ← Option.not_isSome_iff_eq_none]
  show ¬(session.state.requests.entries "again").isSome = true
  rw [← hledger.sound.held, hledger.order, hafter, recent_append hmany.ge]
  exact fun hmem => hagain (mem_of_mem_recent hmem)

theorem exists_others : ∃ others : List RequestId, others.length = requestHistory ∧ others.Nodup ∧
    "again" ∉ others := by
  refine ⟨(List.range requestHistory).map fun n => String.ofList (List.replicate n 'x'), ?_, ?_, ?_⟩
  · rw [List.length_map, List.length_range]
  · refine List.nodup_range.map fun n m hsame => ?_
    have hlength := congrArg List.length (String.ofList_inj.mp hsame)
    rwa [List.length_replicate, List.length_replicate] at hlength
  · intro hmem
    obtain ⟨n, -, hsame⟩ := List.mem_map.mp hmem
    have hchars : List.replicate n 'x' = ['a', 'g', 'a', 'i', 'n'] := String.ofList_inj.mp hsame
    have ha : 'a' ∈ List.replicate n 'x' := by rw [hchars]; exact List.mem_cons_self
    exact absurd (List.eq_of_mem_replicate ha) (by decide)

def refusal : Moment := ⟨.new "boot" .default, .command (.startSession "again" none none), []⟩

theorem refusedSession_log : refusedSession.log = refusal :: refusedSession.log.tail := rfl

theorem refusal_result : (refusal.state.command plainPlatform (.startSession "again" none none)).result =
    .error ⟨.modelNotPrepared, "input and output models must be prepared before starting a voice session"⟩ := rfl

/-- A command that has been forgotten is applied again, and is then answered as it was the second time. -/
theorem answer_of_second_application : ¬ ∀ platform session, Reachable platform session →
    ∀ before moment after command, session.log = before ++ moment :: after →
      moment.applied = some command → (∀ earlier ∈ before, earlier.applied ≠ some command) →
      (session.state.requests.entries command.requestId).map RequestEntry.fingerprint = some command →
      (session.state.command platform command).result = (moment.state.command platform command).result := by
  intro h
  obtain ⟨others, hmany, hnodup, hagain⟩ := exists_others
  obtain ⟨hreachable, hunheld, hinput, houtput, more, hlog⟩ :=
    started_after_others others hmany hnodup hagain _ rfl
  generalize refusedSession.run plainPlatform (preparations others) = session at *
  have hstarted : (session.state.command plainPlatform (.startSession "again" none none)).result =
      .ok (.session (session.state.supersede.1.ids.value "s")) := by
    rw [(command_new hunheld).2]
    show (session.state.startSession none none).result = _
    rw [VoiceState.startSession, hinput, houtput]
    rfl
  have hentry : (session.next plainPlatform
      (.command (.startSession "again" none none))).state.requests.entries "again" =
      some ⟨.startSession "again" none none, .ok (.session (session.state.supersede.1.ids.value "s"))⟩ := by
    show (session.state.command plainPlatform (.startSession "again" none none)).state.requests.entries _ = _
    rw [(command_new hunheld).1, hstarted]
    exact RequestLedger.record_entry (RequestLedger.find_eq_none.mp hunheld)
  have hnext : Reachable plainPlatform (session.next plainPlatform
      (.command (.startSession "again" none none))) := .next _ _ hreachable trivial
  have hsplit : ∃ after, (session.next plainPlatform
      (.command (.startSession "again" none none))).log = [] ++ refusal :: after := by
    rw [Session.next, hlog, refusedSession_log]
    exact ⟨_, rfl⟩
  generalize session.next plainPlatform (.command (.startSession "again" none none)) = last at *
  obtain ⟨after, hsplit⟩ := hsplit
  have hanswer := h plainPlatform last hnext [] refusal after (.startSession "again" none none) hsplit rfl
    (fun _ hearlier => absurd hearlier List.not_mem_nil)
    (congrArg (Option.map RequestEntry.fingerprint) hentry)
  have hknown : last.state.requests.find (.startSession "again" none none) =
      some (.ok (.session (session.state.supersede.1.ids.value "s"))) := by
    rw [RequestLedger.find]
    show Option.map _ (last.state.requests.entries "again") = _
    rw [hentry]
    exact congrArg some (if_pos rfl)
  rw [command_known hknown, refusal_result] at hanswer
  cases hanswer

end AvenOS.Voice
