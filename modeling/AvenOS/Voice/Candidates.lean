import AvenOS.Voice.Coordinator

/-! # What a step does to the candidate

The candidate is what the microphone may have heard. A step starts it, hears more of it, confirms it,
finishes or discards it, and says so; or a new session drops it without a word. -/
namespace AvenOS.Voice

/-! ## Events -/

inductive Utterance
  | started (candidateId : CandidateId)
  | shown (candidateId : CandidateId)
  | confirmed (candidateId : CandidateId)
  | identified (candidateId : CandidateId)
  | finished (candidateId : CandidateId)
  | discarded (candidateId : CandidateId)
  | sessionStopped
deriving DecidableEq, Repr

def Action.utterance : Action → Option Utterance
  | .emit (.inputCandidateStarted candidateId _) => some (.started candidateId)
  | .emit (.inputPartial candidateId _) => some (.shown candidateId)
  | .emit (.inputConfirmed candidateId _) => some (.confirmed candidateId)
  | .emit (.inputSpeakerIdentified candidateId _) => some (.identified candidateId)
  | .emit (.inputFinal candidateId _) => some (.finished candidateId)
  | .emit (.inputDiscarded candidateId _) => some (.discarded candidateId)
  | .stopSession _ => some .sessionStopped
  | _ => none

def utterances (actions : List Action) : List Utterance := actions.filterMap Action.utterance

@[simp] theorem utterances_nil : utterances [] = [] := rfl

@[simp] theorem utterances_append (actions more : List Action) :
    utterances (actions ++ more) = utterances actions ++ utterances more := List.filterMap_append

@[simp] theorem utterances_cons (action : Action) (actions : List Action) :
    utterances (action :: actions) = action.utterance.toList ++ utterances actions := by
  cases h : action.utterance <;> simp [utterances, h]

/-- What of a candidate decides whether it is confirmed. -/
structure Hearing where
  id : CandidateId
  generation : RouteGeneration
  unsafeAtStart : Bool
  unsafeSinceStart : Bool
  confirmed : Bool
deriving DecidableEq, Repr

def CandidateState.hearing (candidate : CandidateState) : Hearing :=
  ⟨candidate.id, candidate.generation, candidate.unsafeAtStart, candidate.unsafeSinceStart,
    candidate.confirmed⟩

def VoiceState.hearing (s : VoiceState) : Option Hearing := s.candidate.map CandidateState.hearing

/-- The candidate stays as it is, and nothing is said about it. -/
def VoiceState.Quiet (s : VoiceState) (result : VoiceState × List Action) : Prop :=
  result.1.hearing = s.hearing ∧ utterances result.2 = []

/-! ## Turns leave candidates alone -/

namespace VoiceState
variable {platform : Platform} {s : VoiceState}

@[simp] theorem cancelActiveTurn_candidate (reason : SpeechCancelReason) :
    (s.cancelActiveTurn reason).1.candidate = s.candidate := by
  unfold cancelActiveTurn
  split <;> rfl

@[simp] theorem cancelActiveTurn_utterances (reason : SpeechCancelReason) :
    utterances (s.cancelActiveTurn reason).2 = [] := by
  unfold cancelActiveTurn
  split <;> rfl

@[simp] theorem failActiveTurn_candidate : s.failActiveTurn.1.candidate = s.candidate := by
  unfold failActiveTurn
  split <;> rfl

@[simp] theorem failActiveTurn_utterances : utterances s.failActiveTurn.2 = [] := by
  unfold failActiveTurn
  split <;> rfl

@[simp] theorem scheduleRetry_candidate (now : MonoTimeNs) : (s.scheduleRetry now).1.candidate = s.candidate := by
  unfold scheduleRetry
  split <;> rfl

@[simp] theorem scheduleRetry_utterances (now : MonoTimeNs) : utterances (s.scheduleRetry now).2 = [] := by
  unfold scheduleRetry
  split <;> rfl

@[simp] theorem retryIf_candidate (recoverable : Bool) (now : MonoTimeNs) :
    (s.retryIf recoverable now).1.candidate = s.candidate := by
  cases recoverable
  · rfl
  · exact s.scheduleRetry_candidate now

@[simp] theorem retryIf_utterances (recoverable : Bool) (now : MonoTimeNs) :
    utterances (s.retryIf recoverable now).2 = [] := by
  cases recoverable
  · rfl
  · exact s.scheduleRetry_utterances now

theorem afterFault_candidate (recoverable : Bool) : (s.afterFault recoverable).candidate = s.candidate := rfl

/-! ## Discarding, publishing and confirming -/

theorem discardCandidate_cases (reason : InputDiscardReason) : (s.discardCandidate reason).1.candidate = none ∧
      (s.candidate = none ∧ utterances (s.discardCandidate reason).2 = [] ∨ ∃ candidate, s.candidate = some candidate ∧
          utterances (s.discardCandidate reason).2 = [.discarded candidate.id]) := by
  unfold discardCandidate
  cases hcandidate : s.candidate with
  | none => exact ⟨hcandidate, Or.inl ⟨rfl, rfl⟩⟩
  | some candidate => exact ⟨rfl, Or.inr ⟨candidate, rfl, rfl⟩⟩

theorem publishCandidateSpeaker_hearing (candidateId : CandidateId) :
    (s.publishCandidateSpeaker platform candidateId).1.hearing = s.hearing := by
  unfold publishCandidateSpeaker VoiceState.hearing
  cases hcandidate : s.candidate with
  | none => simp [hcandidate]
  | some candidate =>
    dsimp only
    split
    · split
      · simp [hcandidate]
      · split <;> rfl
    · simp [hcandidate]

theorem publishCandidateSpeaker_utterances (candidateId : CandidateId) :
    utterances (s.publishCandidateSpeaker platform candidateId).2 = [] ∨
      (∃ candidate, s.candidate = some candidate ∧ candidate.id = candidateId ∧ candidate.confirmed = true) ∧
      utterances (s.publishCandidateSpeaker platform candidateId).2 = [.identified candidateId] := by
  unfold publishCandidateSpeaker
  cases hcandidate : s.candidate with
  | none => exact Or.inl rfl
  | some candidate =>
    dsimp only
    split
    · rename_i hmeant
      split
      · exact Or.inl rfl
      · split
        · exact Or.inl rfl
        · exact Or.inr ⟨⟨candidate, rfl, hmeant.1, hmeant.2.1⟩, rfl⟩
    · exact Or.inl rfl

def OnlyIdentified (candidateId : CandidateId) (events : List Utterance) : Prop :=
  ∀ event ∈ events, event = .identified candidateId

theorem publishCandidateSpeaker_identified (platform : Platform) (s : VoiceState) (candidateId : CandidateId) :
    OnlyIdentified candidateId (utterances (s.publishCandidateSpeaker platform candidateId).2) := by
  intro event hevent
  rcases publishCandidateSpeaker_utterances candidateId with hnone | ⟨-, hone⟩
  · rw [hnone] at hevent
    cases hevent
  · rw [hone] at hevent
    exact List.mem_singleton.mp hevent

variable {candidate : CandidateState}

theorem confirmCandidate_confirmed (hcandidate : s.candidate = some candidate)
    (hconfirmed : candidate.confirmed = true) (candidateId : CandidateId) :
    s.confirmCandidate platform candidateId = (s, []) := by
  unfold confirmCandidate
  rw [if_pos (by simp [hcandidate, hconfirmed])]

theorem confirmCandidate_fresh (hcandidate : s.candidate = some candidate) (hconfirmed : candidate.confirmed = false)
    (candidateId : CandidateId) : (s.confirmCandidate platform candidateId).1.hearing =
        some { candidate.hearing with confirmed := true } ∧
      ∃ identities, OnlyIdentified candidateId identities ∧
        utterances (s.confirmCandidate platform candidateId).2 = .confirmed candidateId :: identities := by
  unfold confirmCandidate
  rw [if_neg (by simp [hcandidate, hconfirmed])]
  dsimp only
  constructor
  · rw [publishCandidateSpeaker_hearing, VoiceState.hearing, cancelActiveTurn_candidate]
    simp [setCandidate, hcandidate, CandidateState.hearing]
  · rw [utterances_append, utterances_append, cancelActiveTurn_utterances]
    exact ⟨_, publishCandidateSpeaker_identified platform _ candidateId, rfl⟩

/-! ## Commands that are not about candidates -/

theorem quiet_self : s.Quiet (s, []) := ⟨rfl, rfl⟩

theorem prepare_quiet (features : List VoiceFeature) : s.Quiet (s.prepare features).done := ⟨rfl, rfl⟩

theorem beginSpeech_quiet (sessionId : SessionId) (language voice : String) :
    s.Quiet (s.beginSpeech platform sessionId language voice).done := by
  unfold beginSpeech
  split_ifs
  · exact quiet_self
  · exact quiet_self
  · exact quiet_self
  · constructor
    · simp [Reply.done, hearing]
    · simp [Reply.done, Action.utterance]

theorem enqueueSpeech_quiet (sessionId : SessionId) (turnId : TurnId) (segmentIndex : ℕ) (text : String) :
    s.Quiet (s.enqueueSpeech platform sessionId turnId segmentIndex text).done := by
  unfold enqueueSpeech
  split
  · exact quiet_self
  · split
    · exact quiet_self
    · dsimp only
      split_ifs <;> exact ⟨rfl, rfl⟩

theorem finishSpeech_quiet (sessionId : SessionId) (turnId : TurnId) :
    s.Quiet (s.finishSpeech sessionId turnId).done := by
  unfold finishSpeech
  split
  · exact quiet_self
  · split
    · split_ifs <;> exact quiet_self
    · split_ifs <;> exact ⟨rfl, rfl⟩

theorem cancelActiveTurn_quiet (reason : SpeechCancelReason) : s.Quiet (s.cancelActiveTurn reason) :=
  ⟨by simp [hearing], by simp⟩

theorem cancelSpeech_quiet (sessionId : SessionId) (turnId : Option TurnId) (reason : SpeechCancelReason) :
    s.Quiet (s.cancelSpeech sessionId turnId reason).done := by
  unfold cancelSpeech
  split
  · split_ifs <;> exact quiet_self
  · split
    · exact cancelActiveTurn_quiet reason
    · split_ifs
      · exact cancelActiveTurn_quiet reason
      · exact quiet_self
      · exact quiet_self

theorem setDiagnostics_quiet (sessionId : SessionId) (enabled : Bool) :
    s.Quiet (s.setDiagnostics sessionId enabled).done := by
  unfold setDiagnostics
  split_ifs <;> exact ⟨rfl, rfl⟩

theorem retryRoute_quiet (sessionId : SessionId) : s.Quiet (s.retryRoute sessionId).done := by
  unfold retryRoute
  split_ifs <;> exact ⟨rfl, rfl⟩

/-! ## Observations that are not about candidates -/

theorem modelsPrepared_quiet (input output : Bool) : s.Quiet (s.modelsPrepared input output) := by
  unfold modelsPrepared
  dsimp only
  split_ifs <;> exact ⟨rfl, rfl⟩

theorem modelsFailed_quiet (input output : Bool) : s.Quiet (s.modelsFailed input output) := by
  unfold modelsFailed
  split <;> exact ⟨rfl, rfl⟩

theorem environmentActivated_quiet (sessionId : SessionId) : s.Quiet (s.environmentActivated sessionId) := by
  unfold environmentActivated
  split_ifs <;> exact ⟨rfl, rfl⟩

theorem routeOpened_quiet (sessionId : SessionId) (generation : RouteGeneration) (route : RouteSnapshot) :
    s.Quiet (s.routeOpened sessionId generation route) := by
  unfold routeOpened
  split_ifs <;> exact ⟨rfl, rfl⟩

theorem routeStarted_quiet (sessionId : SessionId) (generation : RouteGeneration) :
    s.Quiet (s.routeStarted sessionId generation) := by
  unfold routeStarted
  split_ifs <;> exact ⟨rfl, rfl⟩

theorem captureArrived_quiet (sessionId : SessionId) (generation : RouteGeneration) :
    s.Quiet (s.captureArrived sessionId generation) := by
  unfold captureArrived
  split_ifs <;> exact ⟨rfl, rfl⟩

theorem echoChanged_quiet (generation : RouteGeneration) (status : EchoStatus) :
    s.Quiet (s.echoChanged generation status) := by
  unfold echoChanged
  split_ifs <;> exact ⟨rfl, rfl⟩

theorem playbackAudible_quiet (turnId : TurnId) (generation : OutputGeneration) :
    s.Quiet (s.playbackAudible turnId generation) := by
  unfold playbackAudible
  split
  · exact quiet_self
  · split_ifs <;> exact ⟨rfl, rfl⟩

theorem synthesisStarted_quiet (turnId : TurnId) (segmentIndex : ℕ) (generation : OutputGeneration) :
    s.Quiet (s.synthesisStarted platform turnId segmentIndex generation) := by
  unfold synthesisStarted
  split <;> exact ⟨rfl, rfl⟩

theorem synthesisCompleted_quiet (turnId : TurnId) (segmentIndex : ℕ) (generation : OutputGeneration) :
    s.Quiet (s.synthesisCompleted turnId segmentIndex generation) := by
  unfold synthesisCompleted
  split <;> exact ⟨rfl, rfl⟩

theorem synthesisFailed_quiet (turnId : TurnId) (generation : OutputGeneration) :
    s.Quiet (s.synthesisFailed turnId generation) := by
  unfold synthesisFailed
  split
  · exact quiet_self
  · exact ⟨by simp [hearing], by simp⟩

theorem playbackDrained_quiet (turnId : TurnId) (generation : OutputGeneration) :
    s.Quiet (s.playbackDrained turnId generation) := by
  unfold playbackDrained
  split
  · exact quiet_self
  · split_ifs <;> exact ⟨rfl, rfl⟩

@[simp] theorem ended_utterance (turn : RetiringTurnState) :
    (Action.emit (RetiringTurnState.ended turn)).utterance = none := by
  unfold RetiringTurnState.ended
  cases turn.outcome <;> rfl

theorem fadeDrained_quiet (turnId : TurnId) (generation : OutputGeneration) :
    s.Quiet (s.fadeDrained turnId generation) := by
  unfold fadeDrained
  split
  · exact quiet_self
  · exact ⟨rfl, by simp⟩

theorem metricsUpdated_quiet (generation : RouteGeneration) (metrics : RuntimeMetrics) :
    s.Quiet (s.metricsUpdated generation metrics) := by
  unfold metricsUpdated
  split_ifs <;> exact ⟨rfl, rfl⟩

theorem routeRetryDue_quiet (generation : RouteGeneration) (attempt : ℕ) :
    s.Quiet (s.routeRetryDue generation attempt) := by
  unfold routeRetryDue
  split
  · split <;> exact ⟨rfl, rfl⟩
  · exact quiet_self

theorem diagnosticsTick_quiet : s.Quiet s.diagnosticsTick := by
  unfold diagnosticsTick
  split_ifs <;> exact ⟨rfl, rfl⟩

theorem noteCandidate_quiet (candidateId : CandidateId) (generation : RouteGeneration)
    {change : CandidateState → CandidateState}
    (hchange : ∀ candidate, (change candidate).hearing = candidate.hearing) :
    s.Quiet (s.noteCandidate candidateId generation change) := by
  unfold noteCandidate
  split
  · refine ⟨?_, rfl⟩
    simp [hearing, setCandidate, Option.map_map, Function.comp_def, hchange]
  · exact quiet_self

end VoiceState

/-! ## What a step does -/

def Remarks (candidateId : CandidateId) (events : List Utterance) : Prop :=
  ∀ event ∈ events, event = .shown candidateId ∨ event = .identified candidateId

/-- The candidate once another sample has been heard. -/
def Hearing.marked (hearing : Hearing) (isUnsafe : Bool) : Hearing :=
  { hearing with unsafeSinceStart := hearing.unsafeSinceStart || isUnsafe }

/-- Why a candidate is confirmed, other than by the testers' exception. -/
structure VoiceState.Clear (s : VoiceState) (hearing : Hearing) (farEndActive safeEchoContinuous : Bool) :
    Prop where
  start : hearing.unsafeAtStart = false
  since : hearing.unsafeSinceStart = false
  echo : s.outputTurnActive farEndActive = true →
    s.config.allowFullDuplexBargeIn = true ∧ safeEchoContinuous = true

inductive CandidateStep (s : VoiceState) : Input → Option Hearing → List Utterance → Prop
  | kept (input : Input) : CandidateStep s input s.hearing []
  | remarked (input : Input) (hearing : Hearing) (events : List Utterance)
      (hhearing : s.hearing = some hearing) (hevents : Remarks hearing.id events) :
    CandidateStep s input (some hearing) events
  | started (candidateId : CandidateId) (farEndActive : Bool) (echoStatus : EchoStatus) (now : MonoTimeNs)
      (hnone : s.hearing = none) (isUnsafe : Bool)
      (hrisky : isUnsafe = s.farEndIntervalIsUnsafe farEndActive (echoStatus == .converged)) :
    CandidateStep s (.observation (.vadStarted candidateId s.routeGeneration farEndActive echoStatus) now)
      (some ⟨candidateId, s.routeGeneration, isUnsafe, isUnsafe, false⟩) [.started candidateId]
  | heard (hearing : Hearing) (text : String) (farEndActive safe : Bool) (now : MonoTimeNs)
      (events : List Utterance) (hhearing : s.hearing = some hearing)
      (hgeneration : hearing.generation = s.routeGeneration) (hevents : Remarks hearing.id events) :
    CandidateStep s
      (.observation (.recognizerPartial hearing.id s.routeGeneration text farEndActive safe) now)
      (some (hearing.marked (s.farEndIntervalIsUnsafe farEndActive safe))) events
  | confirmed (hearing marked : Hearing) (text : String) (farEndActive safe : Bool) (now : MonoTimeNs)
      (before after : List Utterance) (hhearing : s.hearing = some hearing)
      (hmarked : marked = hearing.marked (s.farEndIntervalIsUnsafe farEndActive safe))
      (hgeneration : hearing.generation = s.routeGeneration) (hfresh : hearing.confirmed = false)
      (hclear : s.config.allowTesterAdaptingBargeIn = false → s.Clear marked farEndActive safe)
      (hbefore : Remarks hearing.id before) (hafter : Remarks hearing.id after) :
    CandidateStep s
      (.observation (.recognizerPartial hearing.id s.routeGeneration text farEndActive safe) now)
      (some { marked with confirmed := true }) (before ++ .confirmed hearing.id :: after)
  | finished (hearing : Hearing) (text : String) (farEndActive safe : Bool) (now : MonoTimeNs)
      (events : List Utterance) (hhearing : s.hearing = some hearing)
      (hconfirmed : hearing.confirmed = true) (hevents : Remarks hearing.id events) :
    CandidateStep s
      (.observation (.recognizerFinal hearing.id s.routeGeneration text farEndActive safe) now)
      none (events ++ [.finished hearing.id])
  | confirmedFinished (hearing marked : Hearing) (text : String) (farEndActive safe : Bool)
      (now : MonoTimeNs) (events : List Utterance) (hhearing : s.hearing = some hearing)
      (hmarked : marked = hearing.marked (s.farEndIntervalIsUnsafe farEndActive safe))
      (hgeneration : hearing.generation = s.routeGeneration) (hfresh : hearing.confirmed = false)
      (hclear : s.config.allowTesterAdaptingBargeIn = false → s.Clear marked farEndActive safe)
      (hevents : Remarks hearing.id events) :
    CandidateStep s
      (.observation (.recognizerFinal hearing.id s.routeGeneration text farEndActive safe) now)
      none (.confirmed hearing.id :: events ++ [.finished hearing.id])
  | discarded (input : Input) (hearing : Hearing) (hhearing : s.hearing = some hearing) :
    CandidateStep s input none [.discarded hearing.id]
  | stopped (requestId : RequestId) (sessionId : SessionId) (hsession : s.sessionId = some sessionId) :
    CandidateStep s (.command (.stopSession requestId sessionId)) none
      (s.hearing.toList.map (fun hearing => .discarded hearing.id) ++ [.sessionStopped])
  | replaced (requestId : RequestId) (preferredInput preferredOutput : Option String)
      (hready : (s.inputReady && s.outputReady) = true)
      (hnew : s.requests.find (.startSession requestId preferredInput preferredOutput) = none) :
    CandidateStep s (.command (.startSession requestId preferredInput preferredOutput)) none
      (s.sessionId.toList.map fun _ => .sessionStopped)

end AvenOS.Voice
