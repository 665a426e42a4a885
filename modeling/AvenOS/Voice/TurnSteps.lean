import AvenOS.Voice.CandidateSteps
import AvenOS.Voice.Turns

/-! # Every input takes a turn step -/
namespace AvenOS.Voice
open AvenOS.Lifecycle

/-! ## What a step does -/

def VoiceState.confirms (platform : Platform) (s : VoiceState) (candidateId : CandidateId)
    (generation : RouteGeneration) (text : String) (farEndActive safe : Bool) : Bool :=
  s.candidateMatches candidateId generation && hasLexicalSeed platform text &&
    !s.candidate.any CandidateState.confirmed &&
    (s.markUnsafe farEndActive safe).candidateCanConfirm platform text farEndActive safe

def retiresTurn (platform : Platform) (s : VoiceState) : Input → Bool
  | .command command => (s.requests.find command).isNone &&
    match command with
    | .startSession _ _ _ => s.inputReady && s.outputReady && s.sessionId.isSome
    | .stopSession _ sessionId => s.sessionId == some sessionId
    | .beginSpeech _ sessionId _ language voice => s.sessionId == some sessionId &&
      s.sessionStatus == .active && !isBlank platform language && !isBlank platform voice
    | .cancelSpeech _ sessionId turnId _ => s.sessionId == some sessionId &&
      turnId.all fun turnId => (s.activeTurn turnId).isSome
    | _ => false
  | .observation observation _ =>
    match observation with
    | .recognizerPartial candidateId generation text farEndActive safe =>
      s.confirms platform candidateId generation text farEndActive safe
    | .recognizerFinal candidateId generation text farEndActive safe =>
      s.confirms platform candidateId generation text farEndActive safe
    | .synthesisFailed turnId generation => (s.outputTurn turnId generation).isSome
    | .routeFault generation _ =>
      generation == s.routeGeneration && s.sessionId.isSome && s.sessionStatus != .closed
    | .callbacksStalled sessionId generation =>
      s.current sessionId generation && s.sessionStatus != .closed
    | _ => false

/-- How a step goes on from a state: the turns and the identifiers after it, what it says about turns, and
what is to fade. -/
inductive TurnStep (platform : Platform) (s : VoiceState) :
    Input → Option Mark → Option Mark → IdGenerator → List (Stage TurnId) → List Mark → Prop
  | still (input : Input) (ids : IdGenerator) (hids : s.ids.Before ids) :
    TurnStep platform s input s.speaking s.fading ids [] []
  | spoken (input : Input) (ids : IdGenerator) (hids : s.ids.Before ids) (mark : Mark)
      (events : List (Stage TurnId)) (hspeaking : s.speaking = some mark)
      (hevents : ∀ stage ∈ events, stage = .ongoing mark.1) :
    TurnStep platform s input s.speaking s.fading ids events []
  | retired (input : Input) (ids : IdGenerator) (hids : s.ids.Before ids)
      (hretires : retiresTurn platform s input = true) :
    TurnStep platform s input none (s.speaking.or s.fading) ids
      (s.speaking.toList.map fun mark => .ongoing mark.1) s.speaking.toList
  | begun (requestId : RequestId) (sessionId : SessionId) (clientTurnKey : Option String)
      (language voice : String) (generation : OutputGeneration)
      (hretires : retiresTurn platform s
        (.command (.beginSpeech requestId sessionId clientTurnKey language voice)) = true)
      (hsession : s.sessionId = some sessionId) :
    TurnStep platform s (.command (.beginSpeech requestId sessionId clientTurnKey language voice))
      (some (s.ids.value "t", generation)) (s.speaking.or s.fading) s.ids.advance
      ((s.speaking.toList.map fun mark => .ongoing mark.1) ++ [.began (s.ids.value "t")])
      s.speaking.toList
  | completed (turnId : TurnId) (generation : OutputGeneration) (now : MonoTimeNs)
      (hspeaking : s.speaking = some (turnId, generation)) :
    TurnStep platform s (.observation (.playbackDrained turnId generation) now) none s.fading s.ids
      [.ended turnId] []
  | faded (turnId : TurnId) (generation : OutputGeneration) (now : MonoTimeNs)
      (hfading : s.fading = some (turnId, generation)) :
    TurnStep platform s (.observation (.fadeDrained turnId generation) now) s.speaking none s.ids
      [.ended turnId] []

structure TurnStepOf (platform : Platform) (s : VoiceState) (input : Input)
    (result : VoiceState × List Action) : Prop where
  step : TurnStep platform s input result.1.speaking result.1.fading result.1.ids (plays result.2)
    (fades result.2)
  config : result.1.config = s.config

namespace VoiceState
variable {platform : Platform} {s : VoiceState} {input : Input} {result : VoiceState × List Action}

theorem Still.step (h : s.Still result) : TurnStepOf platform s input result := by
  refine ⟨?_, h.config⟩
  rw [h.speaking, h.fading, h.plays, h.fades]
  exact .still input _ h.ids

theorem Spoken.step {mark : Mark} (h : s.Spoken mark result) (hspeaking : s.speaking = some mark) :
    TurnStepOf platform s input result := by
  refine ⟨?_, h.config⟩
  rw [h.speaking, h.fading, h.fades]
  exact .spoken input _ h.ids mark _ hspeaking h.plays

theorem Retired.step (h : s.Retired result) (hretires : retiresTurn platform s input = true) :
    TurnStepOf platform s input result := by
  refine ⟨?_, h.config⟩
  rw [h.speaking, h.fading, h.plays, h.fades]
  exact .retired input _ h.ids hretires

/-! ## Observations -/

theorem modelsPrepared_still (input output : Bool) : s.Still (s.modelsPrepared input output) := by
  unfold modelsPrepared
  dsimp only
  split_ifs <;> exact ⟨rfl, rfl, rfl, rfl, .refl _, rfl⟩

theorem modelsFailed_still (input output : Bool) : s.Still (s.modelsFailed input output) := by
  unfold modelsFailed
  split <;> exact ⟨rfl, rfl, rfl, rfl, .refl _, rfl⟩

theorem environmentActivated_still (sessionId : SessionId) : s.Still (s.environmentActivated sessionId) := by
  unfold environmentActivated
  split_ifs <;> exact ⟨rfl, rfl, rfl, rfl, .refl _, rfl⟩

theorem routeOpened_still (sessionId : SessionId) (generation : RouteGeneration) (route : RouteSnapshot) :
    s.Still (s.routeOpened sessionId generation route) := by
  unfold routeOpened
  split_ifs <;> exact ⟨rfl, rfl, rfl, rfl, .refl _, rfl⟩

theorem routeStarted_still (sessionId : SessionId) (generation : RouteGeneration) :
    s.Still (s.routeStarted sessionId generation) := by
  unfold routeStarted
  split_ifs <;> exact ⟨rfl, rfl, rfl, rfl, .refl _, rfl⟩

theorem captureArrived_still (sessionId : SessionId) (generation : RouteGeneration) :
    s.Still (s.captureArrived sessionId generation) := by
  unfold captureArrived
  split_ifs <;> exact ⟨rfl, rfl, rfl, rfl, .refl _, rfl⟩

theorem echoChanged_still (generation : RouteGeneration) (status : EchoStatus) :
    s.Still (s.echoChanged generation status) := by
  unfold echoChanged
  split_ifs <;> exact ⟨rfl, rfl, rfl, rfl, .refl _, rfl⟩

theorem vadStarted_still (candidateId : CandidateId) (generation : RouteGeneration) (farEndActive : Bool)
    (echoStatus : EchoStatus) : s.Still (s.vadStarted candidateId generation farEndActive echoStatus) := by
  unfold vadStarted
  split_ifs <;> exact ⟨rfl, rfl, rfl, rfl, .refl _, rfl⟩

theorem setCandidate_still (change : CandidateState → CandidateState) :
    s.Still (s.setCandidate change, []) := ⟨rfl, rfl, rfl, rfl, .refl _, rfl⟩

theorem noteCandidate_still (candidateId : CandidateId) (generation : RouteGeneration)
    (change : CandidateState → CandidateState) : s.Still (s.noteCandidate candidateId generation change) := by
  unfold noteCandidate
  split_ifs <;> exact ⟨rfl, rfl, rfl, rfl, .refl _, rfl⟩

theorem speakerEmbedding_still (candidateId : CandidateId) (generation : RouteGeneration)
    (embedding : List ℚ) : s.Still (s.speakerEmbedding platform candidateId generation embedding) := by
  unfold speakerEmbedding
  split
  · exact (setCandidate_still _).after (publishCandidateSpeaker_still platform _ candidateId)
  · exact still_self

theorem candidateOverflow_still (candidateId : CandidateId) (generation : RouteGeneration) :
    s.Still (s.candidateOverflow candidateId generation) := by
  unfold candidateOverflow
  split
  · exact s.discardCandidate_still .overflow
  · exact still_self

theorem inputModelFailed_still (candidateId : Option CandidateId) (generation : RouteGeneration) :
    s.Still (s.inputModelFailed candidateId generation) := by
  unfold inputModelFailed
  split
  · exact s.discardCandidate_still .modelFailed
  · exact still_self

theorem metricsUpdated_still (generation : RouteGeneration) (metrics : RuntimeMetrics) :
    s.Still (s.metricsUpdated generation metrics) := by
  unfold metricsUpdated
  split_ifs <;> exact ⟨rfl, rfl, rfl, rfl, .refl _, rfl⟩

theorem routeRetryDue_still (generation : RouteGeneration) (attempt : ℕ) :
    s.Still (s.routeRetryDue generation attempt) := by
  unfold routeRetryDue
  split
  · split <;> exact ⟨rfl, rfl, rfl, rfl, .refl _, rfl⟩
  · exact still_self

theorem diagnosticsTick_still : s.Still s.diagnosticsTick := by
  unfold diagnosticsTick
  split_ifs <;> exact ⟨rfl, rfl, rfl, rfl, .refl _, rfl⟩

/-! ## Observations of turns -/

theorem outputTurn_some {turnId : TurnId} {generation : OutputGeneration} {turn : TurnState}
    (h : s.outputTurn turnId generation = some turn) :
    s.turn = some turn ∧ turn.id = turnId ∧ s.speaking = some (turnId, generation) := by
  obtain ⟨hturn, hmeant⟩ := Option.filter_eq_some_iff.mp h
  obtain ⟨rfl, rfl⟩ := of_decide_eq_true hmeant
  exact ⟨hturn, rfl, by rw [speaking, hturn]; rfl⟩

theorem playbackAudible_step (turnId : TurnId) (generation : OutputGeneration) :
    TurnStepOf platform s input (s.playbackAudible turnId generation) := by
  unfold playbackAudible
  split
  · exact still_self.step
  · rename_i turn hturn
    obtain ⟨hsame, rfl, hspeaking⟩ := outputTurn_some hturn
    split
    · exact still_self.step
    · refine Spoken.step ⟨?_, rfl, ?_, rfl, .refl _, rfl⟩ hspeaking
      · rw [speaking, speaking, hsame]
        rfl
      · simp [Action.play]

theorem synthesisStarted_step (turnId : TurnId) (segmentIndex : ℕ) (generation : OutputGeneration) :
    TurnStepOf platform s input (s.synthesisStarted platform turnId segmentIndex generation) := by
  unfold synthesisStarted
  split
  · exact still_self.step
  · rename_i turn hturn
    obtain ⟨hsame, rfl, hspeaking⟩ := outputTurn_some hturn
    refine Spoken.step ⟨?_, rfl, ?_, rfl, .refl _, rfl⟩ hspeaking
    · rw [speaking, speaking, hsame]
      rfl
    · simp [Action.play, capacityChanged]

theorem synthesisCompleted_step (turnId : TurnId) (segmentIndex : ℕ) (generation : OutputGeneration) :
    TurnStepOf platform s input (s.synthesisCompleted turnId segmentIndex generation) := by
  unfold synthesisCompleted
  split
  · exact still_self.step
  · rename_i turn hturn
    obtain ⟨hsame, rfl, hspeaking⟩ := outputTurn_some hturn
    refine Spoken.step ⟨rfl, rfl, ?_, rfl, .refl _, rfl⟩ hspeaking
    simp [Action.play]

theorem synthesisFailed_step (turnId : TurnId) (generation : OutputGeneration) (now : MonoTimeNs) :
    TurnStepOf platform s (.observation (.synthesisFailed turnId generation) now)
      (s.synthesisFailed turnId generation) := by
  unfold synthesisFailed
  split
  · exact still_self.step
  · rename_i turn hturn
    exact s.failActiveTurn_retired.step (by simp [retiresTurn, hturn])

theorem playbackDrained_step (turnId : TurnId) (generation : OutputGeneration) (now : MonoTimeNs) :
    TurnStepOf platform s (.observation (.playbackDrained turnId generation) now)
      (s.playbackDrained turnId generation) := by
  unfold playbackDrained
  split
  · exact still_self.step
  · rename_i turn hturn
    obtain ⟨-, rfl, hspeaking⟩ := outputTurn_some hturn
    split
    · exact ⟨.completed turn.id generation now hspeaking, rfl⟩
    · exact still_self.step

@[simp] theorem ended_play (turn : RetiringTurnState) :
    (Action.emit (RetiringTurnState.ended turn)).play = some (.ended turn.id) := by
  unfold RetiringTurnState.ended
  cases turn.outcome <;> rfl

theorem fadeDrained_step (turnId : TurnId) (generation : OutputGeneration) (now : MonoTimeNs) :
    TurnStepOf platform s (.observation (.fadeDrained turnId generation) now) (s.fadeDrained turnId generation) := by
  unfold fadeDrained
  split
  · exact still_self.step
  · rename_i turn hturn
    obtain ⟨hsame, hmeant⟩ := Option.filter_eq_some_iff.mp hturn
    obtain ⟨rfl, rfl⟩ := of_decide_eq_true hmeant
    have hfading : s.fading = some (turn.id, turn.generation) := by rw [fading, hsame]; rfl
    refine ⟨?_, rfl⟩
    rw [plays_cons, ended_play]
    exact .faded turn.id turn.generation now hfading

/-! ## Confirmations -/

theorem markUnsafe_still (farEndActive safe : Bool) : s.Still (s.markUnsafe farEndActive safe, []) := by
  rw [markUnsafe_eq]
  exact setCandidate_still _

theorem partial_still (platform : Platform) (s : VoiceState) (candidateId : CandidateId) (text : String) (farEndActive safe : Bool) :
    let marked := s.markUnsafe farEndActive safe
    let changed := marked.candidate.any fun candidate => candidate.partialText != text
    let heard := if changed then
        marked.setCandidate fun candidate => { candidate with partialText := text } else marked
    let shown : List Action := if changed then [.emit (.inputPartial candidateId text)] else []
    s.Still (heard, shown) ∧ heard.candidateCanConfirm platform text farEndActive safe =
        marked.candidateCanConfirm platform text farEndActive safe ∧
      heard.candidate.all CandidateState.confirmed = s.candidate.all CandidateState.confirmed := by
  dsimp only
  have hmarked := s.markUnsafe_still farEndActive safe
  have hsame : (s.markUnsafe farEndActive safe).candidate.all CandidateState.confirmed =
      s.candidate.all CandidateState.confirmed := by
    rw [markUnsafe_eq, setCandidate]
    cases s.candidate <;> rfl
  generalize s.markUnsafe farEndActive safe = marked at hmarked hsame ⊢
  split
  · refine ⟨⟨hmarked.speaking, hmarked.fading, rfl, rfl, hmarked.ids, hmarked.config⟩, ?_, ?_⟩
    · unfold candidateCanConfirm setCandidate
      cases marked.candidate <;> rfl
    · rw [← hsame, setCandidate]
      cases marked.candidate <;> rfl
  · exact ⟨hmarked, rfl, hsame⟩

theorem not_any_confirmed {candidateId : CandidateId} {generation : RouteGeneration}
    (hmatches : s.candidateMatches candidateId generation = true)
    (h : s.candidate.all CandidateState.confirmed = false) :
    s.candidate.any CandidateState.confirmed = false := by
  obtain ⟨-, candidate, hcandidate, -⟩ := candidateMatches_iff.1 hmatches
  rw [hcandidate] at h ⊢
  exact h

theorem recognizerPartial_turns (candidateId : CandidateId) (generation : RouteGeneration) (text : String)
    (farEndActive safe : Bool) (now : MonoTimeNs) : TurnStepOf platform s
      (.observation (.recognizerPartial candidateId generation text farEndActive safe) now)
      (s.recognizerPartial platform candidateId generation text farEndActive safe) := by
  unfold recognizerPartial
  split
  · rename_i hmatches
    obtain ⟨hstill, hcanSame, hconfirmedSame⟩ := s.partial_still platform candidateId text farEndActive safe
    dsimp only at hstill hcanSame hconfirmedSame ⊢
    generalize (if (s.markUnsafe farEndActive safe).candidate.any (fun candidate => candidate.partialText != text) then
      (s.markUnsafe farEndActive safe).setCandidate (fun candidate => { candidate with partialText := text })
      else s.markUnsafe farEndActive safe) = heard at hstill hcanSame hconfirmedSame ⊢
    split
    · rename_i hconfirms
      obtain ⟨hseed, hcan⟩ := Bool.and_eq_true_iff.mp hconfirms
      rcases heard.confirmCandidate_turns platform candidateId with ⟨hquiet, -⟩ | ⟨hretired, hfresh⟩
      · exact (hstill.after hquiet).step
      · refine (hstill.retired hretired).step ?_
        rw [hconfirmedSame] at hfresh
        rw [hcanSame] at hcan
        simp [retiresTurn, confirms, hmatches, hseed, hcan, not_any_confirmed hmatches hfresh]
    · exact hstill.step
  · exact still_self.step

theorem recognizerFinal_turns (candidateId : CandidateId) (generation : RouteGeneration) (text : String)
    (farEndActive safe : Bool) (now : MonoTimeNs) : TurnStepOf platform s
      (.observation (.recognizerFinal candidateId generation text farEndActive safe) now)
      (s.recognizerFinal platform candidateId generation text farEndActive safe) := by
  unfold recognizerFinal
  split
  · rename_i hmatches
    have hstill := s.markUnsafe_still farEndActive safe
    have hsame : (s.markUnsafe farEndActive safe).candidate.all CandidateState.confirmed =
        s.candidate.all CandidateState.confirmed := by
      rw [markUnsafe_eq, setCandidate]
      cases s.candidate <;> rfl
    dsimp only
    split_ifs with hseed hcan
    · exact (hstill.after (discardCandidate_still _ .empty)).step
    · have hfinal : ∀ (before : VoiceState) (event : Action), event.play = none → event.fade = none →
          before.Still ({ before with candidate := none, utteranceStatus := .idle }, [event]) := by
        intro before event hplay hfade
        exact ⟨rfl, rfl, by simp [hplay], by simp [hfade], .refl _, rfl⟩
      have hpublished := publishCandidateSpeaker_still platform
        ((s.markUnsafe farEndActive safe).confirmCandidate platform candidateId).1 candidateId
      rcases (s.markUnsafe farEndActive safe).confirmCandidate_turns platform candidateId with
        ⟨hquiet, -⟩ | ⟨hretired, hfresh⟩
      · exact (((hstill.after hquiet).after hpublished).after (hfinal _ _ rfl rfl)).step
      · refine (((hstill.retired hretired).after hpublished).after (hfinal _ _ rfl rfl)).step ?_
        rw [hsame] at hfresh
        have hunconfirmed := not_any_confirmed hmatches hfresh
        have hmarked : (s.markUnsafe farEndActive safe).candidate.any CandidateState.confirmed = false := by
          rw [markUnsafe_eq, setCandidate, ← hunconfirmed]
          cases s.candidate <;> rfl
        rw [hmarked, Bool.false_or] at hcan
        simp only [Bool.not_eq_true', Bool.not_eq_false] at hseed
        simp [retiresTurn, confirms, hmatches, hseed, hcan, hunconfirmed]
    · exact (hstill.after (discardCandidate_still _ .unsafeEcho)).step
  · exact still_self.step

/-! ## Faults -/

theorem handleRouteFault_turns (generation : RouteGeneration) (recoverable : Bool) (now : MonoTimeNs) :
    s.Still (s.handleRouteFault generation recoverable now) ∨
      s.Retired (s.handleRouteFault generation recoverable now) ∧ generation = s.routeGeneration ∧
        s.sessionId ≠ none ∧ s.sessionStatus ≠ .closed := by
  rcases s.handleRouteFault_cases generation recoverable now with hsame | ⟨hcurrent, hopen, hstatus, hfault⟩
  · rw [hsame]
    exact .inl still_self
  · refine .inr ⟨?_, hcurrent, hopen, hstatus⟩
    rw [hfault]
    dsimp only
    have hfirst : s.Still (s.afterFault recoverable, s.faultActions recoverable) := ⟨rfl, rfl, rfl, rfl, .refl _, rfl⟩
    have hdiscarded := hfirst.after (discardCandidate_still _ .routeChanged)
    have hcancelled := hdiscarded.retired (cancelActiveTurn_retired _ .routeFault)
    have hclosed : ∀ before : VoiceState, before.Still (before, [.closeRoute generation]) :=
      fun _ => ⟨rfl, rfl, rfl, rfl, .refl _, rfl⟩
    exact (hcancelled.after (hclosed _)).after (retryIf_still _ recoverable now)

theorem routeFault_step (generation : RouteGeneration) (recoverable : Bool) (now : MonoTimeNs) :
    TurnStepOf platform s (.observation (.routeFault generation recoverable) now)
      (s.handleRouteFault generation recoverable now) := by
  rcases s.handleRouteFault_turns generation recoverable now with hstill | ⟨hretired, rfl, hopen, hstatus⟩
  · exact hstill.step
  · exact hretired.step (by simp [retiresTurn, hstatus, Option.isSome_iff_ne_none.mpr hopen])

theorem callbacksStalled_turns (sessionId : SessionId) (generation : RouteGeneration) (now : MonoTimeNs) :
    TurnStepOf platform s (.observation (.callbacksStalled sessionId generation) now)
      (s.callbacksStalled sessionId generation now) := by
  unfold callbacksStalled
  split
  · rename_i hcurrent
    have herror : ∀ error, s.Still (s, [.emit (.errorRaised error)]) := fun _ => ⟨rfl, rfl, rfl, rfl, .refl _, rfl⟩
    rcases s.handleRouteFault_turns generation true now with hstill | ⟨hretired, -, -, hstatus⟩
    · exact ((herror _).after hstill).step
    · exact ((herror _).retired hretired).step (by simp [retiresTurn, hcurrent, hstatus])
  · exact still_self.step

theorem observe_turns (observation : Observation) (now : MonoTimeNs) :
    TurnStepOf platform s (.observation observation now) (s.observe platform now observation) := by
  cases observation with
  | modelsPrepared => exact (modelsPrepared_still _ _).step
  | modelsFailed => exact (modelsFailed_still _ _).step
  | environmentActivated => exact (environmentActivated_still _).step
  | routeOpened => exact (routeOpened_still _ _ _).step
  | routeStarted => exact (routeStarted_still _ _).step
  | captureArrived => exact (captureArrived_still _ _).step
  | echoChanged => exact (echoChanged_still _ _).step
  | vadStarted => exact (vadStarted_still _ _ _ _).step
  | recognizerPartial => exact recognizerPartial_turns _ _ _ _ _ now
  | recognizerFinal => exact recognizerFinal_turns _ _ _ _ _ now
  | speakerEmbedding => exact (speakerEmbedding_still _ _ _).step
  | nearEndEvidence => exact (noteCandidate_still _ _ _).step
  | candidateAdaptationReady => exact (noteCandidate_still _ _ _).step
  | candidateOverflow => exact (candidateOverflow_still _ _).step
  | inputModelFailed => exact (inputModelFailed_still _ _).step
  | playbackAudible => exact playbackAudible_step _ _
  | synthesisStarted => exact synthesisStarted_step _ _ _
  | synthesisCompleted => exact synthesisCompleted_step _ _ _
  | synthesisFailed => exact synthesisFailed_step _ _ now
  | playbackDrained => exact playbackDrained_step _ _ now
  | fadeDrained => exact fadeDrained_step _ _ now
  | routeFault => exact routeFault_step _ _ now
  | callbacksStalled => exact callbacksStalled_turns _ _ now
  | metricsUpdated => exact (metricsUpdated_still _ _).step
  | routeRetryDue => exact (routeRetryDue_still _ _).step
  | diagnosticsTick => exact diagnosticsTick_still.step

/-! ## Commands -/

theorem enqueueSpeech_step (sessionId : SessionId) (turnId : TurnId) (segmentIndex : ℕ) (text : String) :
    TurnStepOf platform s input (s.enqueueSpeech platform sessionId turnId segmentIndex text).done := by
  unfold enqueueSpeech
  split
  · exact still_self.step
  · split
    · exact still_self.step
    · rename_i turn hturn
      obtain ⟨hsame, hmeant⟩ := Option.filter_eq_some_iff.mp hturn
      have hid : turn.id = turnId := of_decide_eq_true hmeant
      have hspeaking : s.speaking = some (turn.id, turn.generation) := by rw [speaking, hsame]; rfl
      dsimp only
      split_ifs
      · exact still_self.step
      · exact still_self.step
      · exact still_self.step
      · exact still_self.step
      · exact still_self.step
      · exact still_self.step
      · refine Spoken.step ⟨?_, rfl, ?_, rfl, .refl _, rfl⟩ hspeaking
        · rw [hspeaking]
          rfl
        · simp [Reply.done, Action.play, capacityChanged, hid]

theorem finishSpeech_still (sessionId : SessionId) (turnId : TurnId) :
    s.Still (s.finishSpeech sessionId turnId).done := by
  unfold finishSpeech
  split
  · exact still_self
  · split
    · split_ifs <;> exact still_self
    · rename_i turn hturn
      have hsame := (Option.filter_eq_some_iff.mp hturn).1
      split_ifs
      · exact still_self
      · refine ⟨?_, rfl, rfl, rfl, .refl _, rfl⟩
        rw [speaking, speaking, hsame]
        rfl

theorem beginSpeech_step (requestId : RequestId) (sessionId : SessionId) (clientTurnKey : Option String)
    (language voice : String)
    (hnew : s.requests.find (.beginSpeech requestId sessionId clientTurnKey language voice) = none) :
    TurnStepOf platform s (.command (.beginSpeech requestId sessionId clientTurnKey language voice))
      (s.beginSpeech platform sessionId language voice).done := by
  unfold beginSpeech
  split_ifs with hsession hactive hblank
  · exact still_self.step
  · exact still_self.step
  · exact still_self.step
  · have hretired := s.cancelActiveTurn_retired .superseded
    have hids : (s.cancelActiveTurn .superseded).1.ids = s.ids := by
      unfold cancelActiveTurn
      split <;> rfl
    dsimp only [Reply.done]
    rw [hids]
    generalize s.cancelActiveTurn .superseded = cancelled at hretired ⊢
    refine ⟨?_, hretired.config⟩
    rw [plays_append, fades_append, hretired.plays, hretired.fades]
    have hfading : VoiceState.fading { cancelled.1 with
        ids := s.ids.advance
        outputGeneration := cancelled.1.outputGeneration + 1
        turn := some (TurnState.mk (s.ids.value "t") (cancelled.1.outputGeneration + 1) [] 0 false false language voice)
        playbackStatus := .synthesizing } = s.speaking.or s.fading := hretired.fading
    have hfades : fades [.setOutputGeneration (cancelled.1.outputGeneration + 1),
        .emit (.playbackTurnStarted (s.ids.value "t"))] = [] := rfl
    rw [hfading, hfades, List.append_nil]
    refine TurnStep.begun requestId sessionId clientTurnKey language voice
      (cancelled.1.outputGeneration + 1) ?_ (not_not.mp hsession)
    rw [Bool.or_eq_true, not_or, Bool.not_eq_true, Bool.not_eq_true] at hblank
    simp [retiresTurn, hnew, not_not.mp hsession, not_not.mp hactive, hblank]

theorem cancelSpeech_step (requestId : RequestId) (sessionId : SessionId) (turnId : Option TurnId)
    (reason : SpeechCancelReason)
    (hnew : s.requests.find (.cancelSpeech requestId sessionId turnId reason) = none) :
    TurnStepOf platform s (.command (.cancelSpeech requestId sessionId turnId reason))
      (s.cancelSpeech sessionId turnId reason).done := by
  unfold cancelSpeech
  split
  · split_ifs <;> exact still_self.step
  · rename_i hsession
    rw [not_not] at hsession
    split
    · exact (s.cancelActiveTurn_retired reason).step (by simp [retiresTurn, hnew, hsession])
    · split_ifs with hmeant
      · exact (s.cancelActiveTurn_retired reason).step (by simp [retiresTurn, hnew, hsession, hmeant])
      · exact still_self.step
      · exact still_self.step

theorem stopSession_turns (requestId : RequestId) (sessionId : SessionId)
    (hnew : s.requests.find (.stopSession requestId sessionId) = none) :
    TurnStepOf platform s (.command (.stopSession requestId sessionId)) (s.stopSession sessionId).done := by
  unfold stopSession
  split
  · split_ifs <;> exact still_self.step
  · rename_i hsession
    have hretired := (s.cancelActiveTurn_retired .sessionStopped).after (discardCandidate_still _ .reset)
    have hstopped : ∀ before : VoiceState, before.Still ({ before with
            speakerClusters := .default
            sessionId := none
            lastSessionId := some sessionId
            sessionStatus := .closed
            captureStatus := .closed
            echoStatus := .bypassed
            metrics := .default
            route := none },
          [.closeRoute s.routeGeneration, .stopSession sessionId, .emit (.statusSession .closed)]) :=
      fun _ => ⟨rfl, rfl, rfl, rfl, .refl _, rfl⟩
    exact (hretired.after (hstopped _)).step (by simp [retiresTurn, hnew, not_not.mp hsession])

theorem resetInput_still (sessionId : SessionId) : s.Still (s.resetInput sessionId).done := by
  unfold resetInput
  split
  · exact still_self
  · have hreset : ∀ before : VoiceState, before.Still ({ before with speakerClusters := .default }, [.resetInput]) :=
      fun _ => ⟨rfl, rfl, rfl, rfl, .refl _, rfl⟩
    exact (s.discardCandidate_still .reset).after (hreset _)

theorem startSession_turns (requestId : RequestId) (preferredInput preferredOutput : Option String)
    (hnew : s.requests.find (.startSession requestId preferredInput preferredOutput) = none) :
    TurnStepOf platform s (.command (.startSession requestId preferredInput preferredOutput))
      (s.startSession preferredInput preferredOutput).done := by
  unfold startSession
  split
  · exact still_self.step
  · rename_i hready
    rw [Bool.or_eq_true, not_or, Bool.not_eq_true', Bool.not_eq_true', Bool.not_eq_false, Bool.not_eq_false] at hready
    have hstarted : ∀ before : VoiceState, before.Still ({ before with
            ids := before.ids.advance
            sessionId := some (before.ids.value "s")
            sessionStatus := .opening
            captureStatus := .starting
            routeGeneration := s.routeGeneration + 1
            candidate := none
            speakerClusters := .default
            utteranceStatus := .idle
            echoStatus := .bypassed
            metrics := .default
            route := none
            retryAttempt := 0
            preferredInput := preferredInput
            preferredOutput := preferredOutput },
          [.emit (.statusSession .opening), .activateEnvironment (before.ids.value "s")]) :=
      fun before => ⟨rfl, rfl, rfl, rfl, before.ids.before_advance, rfl⟩
    unfold supersede
    split
    · exact (still_self.after (hstarted s)).step
    · rename_i old hold
      have hretires : retiresTurn platform s
          (.command (.startSession requestId preferredInput preferredOutput)) = true := by
        simp [retiresTurn, hnew, hready, hold]
      have hleft : s.Still ({ s with sessionId := none, lastSessionId := some old }, []) :=
        ⟨rfl, rfl, rfl, rfl, .refl _, rfl⟩
      have hretired := hleft.retired (cancelActiveTurn_retired _ .superseded)
      have hclosed : ∀ before : VoiceState, before.Still (before, [.closeRoute s.routeGeneration, .stopSession old]) :=
        fun _ => ⟨rfl, rfl, rfl, rfl, .refl _, rfl⟩
      exact ((hretired.after (hclosed _)).after (hstarted _)).step hretires

theorem applyCommand_turns (command : Command) (hnew : s.requests.find command = none) :
    TurnStepOf platform s (.command command) (s.applyCommand platform command).done := by
  cases command with
  | prepare => exact Still.step ⟨rfl, rfl, rfl, rfl, .refl _, rfl⟩
  | startSession => exact startSession_turns _ _ _ hnew
  | stopSession => exact stopSession_turns _ _ hnew
  | beginSpeech => exact beginSpeech_step _ _ _ _ _ hnew
  | enqueueSpeech => exact enqueueSpeech_step _ _ _ _
  | finishSpeech => exact (finishSpeech_still _ _).step
  | cancelSpeech => exact cancelSpeech_step _ _ _ _ hnew
  | resetInput => exact (resetInput_still _).step
  | setDiagnostics requestId sessionId enabled =>
    refine Still.step ?_
    unfold applyCommand setDiagnostics
    dsimp only
    split_ifs <;> exact ⟨rfl, rfl, rfl, rfl, .refl _, rfl⟩
  | retryRoute requestId sessionId =>
    refine Still.step ?_
    unfold applyCommand retryRoute
    dsimp only
    split_ifs <;> exact ⟨rfl, rfl, rfl, rfl, .refl _, rfl⟩

end VoiceState

theorem react_turnStep (platform : Platform) (s : VoiceState) (input : Input) :
    TurnStepOf platform s input (react platform s input) := by
  cases input with
  | command command =>
    rcases react_command platform s command with hsame | ⟨hnew, requests, happlied⟩
    · rw [hsame]
      exact VoiceState.still_self.step
    · rw [happlied]
      have happly : TurnStepOf platform s (.command command) (s.applyCommand platform command).done :=
        s.applyCommand_turns command hnew
      exact ⟨happly.step, happly.config⟩
  | observation observation now => exact s.observe_turns observation now

end AvenOS.Voice
