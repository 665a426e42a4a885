import Mathlib.Data.Rat.Defs

/-! # Voice commands, observations and actions

What the core of the voice runtime hears and says. Samples are rationals, and what is computed with them
belongs to the platform; times, generations and counters do not wrap. -/
namespace AvenOS.Voice

abbrev RequestId := String
abbrev SessionId := String
abbrev CandidateId := String
abbrev TurnId := String
abbrev RouteGeneration := ℕ
abbrev OutputGeneration := ℕ
abbrev MonoTimeNs := ℕ

/-! ## Statuses -/

inductive VoiceFeature
  | input
  | output
deriving DecidableEq, Repr

inductive RuntimeStatus
  | dormant
  | preparing
  | ready
  | failed
deriving DecidableEq, Repr

inductive SessionStatus
  | closed
  | opening
  | active
  | suspended
  | recovering
deriving DecidableEq, Repr

inductive CaptureStatus
  | closed
  | starting
  | live
  | denied
  | failed
deriving DecidableEq, Repr

inductive PlaybackStatus
  | silent
  | synthesizing
  | buffered
  | playing
  | fading
  | failed
deriving DecidableEq, Repr

inductive UtteranceStatus
  | idle
  | candidate
  | confirmed
  | finalizing
deriving DecidableEq, Repr

inductive EchoStatus
  | bypassed
  | adapting
  | converged
  | degraded
deriving DecidableEq, Repr

inductive InputDiscardReason
  | empty
  | unsafeEcho
  | reset
  | stale
  | overflow
  | routeChanged
  | modelFailed
deriving DecidableEq, Repr

inductive SpeechCancelReason
  | bargeIn
  | manual
  | muted
  | sessionStopped
  | superseded
  | routeFault
deriving DecidableEq, Repr

inductive InputResetReason
  | conversationCleared
  | manual
  | modelRecovery
deriving DecidableEq, Repr

/-! ## Errors and events -/

inductive VoiceErrorCode
  | routeOpenFailed
  | callbacksStalled
  | modelNotPrepared
  | asrFailed
  | ttsFailed
  | queueFull
  | invalidText
  | segmentOutOfOrder
  | segmentConflict
  | staleSession
  | staleTurn
  | requestConflict
deriving DecidableEq, Repr

inductive ErrorSeverity
  | info
  | warning
  | error
  | fatal
deriving DecidableEq, Repr

structure VoiceError where
  code : VoiceErrorCode
  severity : ErrorSeverity
  retryable : Bool
  sessionId : Option SessionId
  turnId : Option TurnId
  candidateId : Option CandidateId
  message : String
deriving DecidableEq, Repr

structure CoreError where
  code : VoiceErrorCode
  message : String
deriving DecidableEq, Repr

/-- A route as far as the core looks at it. -/
structure RouteSnapshot where
  routeId : String
  generation : RouteGeneration
  fullDuplexBargeIn : Bool
deriving DecidableEq, Repr

structure SpeakerAttribution where
  speakerId : String
  confidence : ℚ
deriving DecidableEq

inductive VoiceEvent
  | statusRuntime (status : RuntimeStatus)
  | statusSession (status : SessionStatus)
  | statusRoute (route : Option RouteSnapshot)
  | statusCapture (status : CaptureStatus)
  | statusEcho (status : EchoStatus) (fullDuplexBargeIn : Bool)
  | inputCandidateStarted (candidateId : CandidateId) (farEndActive : Bool)
  | inputPartial (candidateId : CandidateId) (text : String)
  | inputConfirmed (candidateId : CandidateId) (bargeInStarted : Bool)
  | inputSpeakerIdentified (candidateId : CandidateId) (speaker : SpeakerAttribution)
  | inputFinal (candidateId : CandidateId) (text : String)
  | inputDiscarded (candidateId : CandidateId) (reason : InputDiscardReason)
  | playbackTurnStarted (turnId : TurnId)
  | playbackSegmentAccepted (turnId : TurnId) (segmentIndex : ℕ)
  | playbackSynthesisStarted (turnId : TurnId) (segmentIndex : ℕ)
  | playbackSynthesisCompleted (turnId : TurnId) (segmentIndex : ℕ)
  | playbackStarted (turnId : TurnId)
  | playbackFading (turnId : TurnId) (durationMs : ℕ)
  | playbackCompleted (turnId : TurnId)
  | playbackCancelled (turnId : TurnId) (reason : SpeechCancelReason)
  | playbackFailed (turnId : TurnId) (error : VoiceError)
  | capacityChanged (pendingSegments synthesizedLeadMs : ℕ)
  | diagnosticsSnapshot
  | errorRaised (error : VoiceError)
deriving DecidableEq

inductive Action
  | prepareModels (features : List VoiceFeature)
  | activateEnvironment (sessionId : SessionId)
  | openRoute (sessionId : SessionId) (generation : RouteGeneration)
      (preferredInput preferredOutput : Option String)
  | startRoute (generation : RouteGeneration)
  | closeRoute (generation : RouteGeneration)
  | stopSession (sessionId : SessionId)
  | resetInput
  | enqueueTts (turnId : TurnId) (segmentIndex : ℕ) (text language voice : String)
      (generation : OutputGeneration)
  | finishTts (turnId : TurnId)
  | setOutputGeneration (generation : OutputGeneration)
  | retireOutput (retiring active : OutputGeneration)
  | cancelTts (turnId : TurnId)
  | fadeOutput (turnId : TurnId) (generation : OutputGeneration) (durationMs : ℕ)
  | scheduleRouteRetry (generation : RouteGeneration) (attempt : ℕ) («at» : MonoTimeNs)
  | emit (event : VoiceEvent)
  | candidateDiscarded (candidateId : CandidateId) (reason : InputDiscardReason)
  | speechCancelled (turnId : TurnId) (reason : SpeechCancelReason)
deriving DecidableEq

/-! ## Commands and observations -/

inductive Command
  | prepare (requestId : RequestId) (features : List VoiceFeature)
  | startSession (requestId : RequestId) (preferredInput preferredOutput : Option String)
  | stopSession (requestId : RequestId) (sessionId : SessionId)
  | beginSpeech (requestId : RequestId) (sessionId : SessionId) (clientTurnKey : Option String)
      (language voice : String)
  | enqueueSpeech (requestId : RequestId) (sessionId : SessionId) (turnId : TurnId) (segmentIndex : ℕ)
      (text : String)
  | finishSpeech (requestId : RequestId) (sessionId : SessionId) (turnId : TurnId)
  | cancelSpeech (requestId : RequestId) (sessionId : SessionId) (turnId : Option TurnId)
      (reason : SpeechCancelReason)
  | resetInput (requestId : RequestId) (sessionId : SessionId) (reason : InputResetReason)
  | setDiagnostics (requestId : RequestId) (sessionId : SessionId) (enabled : Bool)
  | retryRoute (requestId : RequestId) (sessionId : SessionId)
deriving DecidableEq, Repr

def Command.requestId : Command → RequestId
  | .prepare requestId _ => requestId
  | .startSession requestId _ _ => requestId
  | .stopSession requestId _ => requestId
  | .beginSpeech requestId _ _ _ _ => requestId
  | .enqueueSpeech requestId _ _ _ _ => requestId
  | .finishSpeech requestId _ _ => requestId
  | .cancelSpeech requestId _ _ _ => requestId
  | .resetInput requestId _ _ => requestId
  | .setDiagnostics requestId _ _ => requestId
  | .retryRoute requestId _ => requestId

/-- The metrics that the core reads. -/
structure RuntimeMetrics where
  queuedSeconds : ℚ
  bufferedSeconds : ℚ

def RuntimeMetrics.default : RuntimeMetrics := ⟨0, 0⟩

inductive Observation
  | modelsPrepared (input output : Bool)
  | modelsFailed (input output : Bool)
  | environmentActivated (sessionId : SessionId)
  | routeOpened (sessionId : SessionId) (generation : RouteGeneration) (route : RouteSnapshot)
  | routeStarted (sessionId : SessionId) (generation : RouteGeneration)
  | captureArrived (sessionId : SessionId) (generation : RouteGeneration)
  | echoChanged (generation : RouteGeneration) (status : EchoStatus)
  | vadStarted (candidateId : CandidateId) (generation : RouteGeneration) (farEndActive : Bool)
      (echoStatus : EchoStatus)
  | recognizerPartial (candidateId : CandidateId) (generation : RouteGeneration) (text : String)
      (farEndActive safeEchoContinuous : Bool)
  | recognizerFinal (candidateId : CandidateId) (generation : RouteGeneration) (text : String)
      (farEndActive safeEchoContinuous : Bool)
  | speakerEmbedding (candidateId : CandidateId) (generation : RouteGeneration) (embedding : List ℚ)
  | nearEndEvidence (candidateId : CandidateId) (generation : RouteGeneration)
  | candidateAdaptationReady (candidateId : CandidateId) (generation : RouteGeneration)
  | candidateOverflow (candidateId : CandidateId) (generation : RouteGeneration)
  | inputModelFailed (candidateId : Option CandidateId) (generation : RouteGeneration)
  | playbackAudible (turnId : TurnId) (generation : OutputGeneration)
  | synthesisStarted (turnId : TurnId) (segmentIndex : ℕ) (generation : OutputGeneration)
  | synthesisCompleted (turnId : TurnId) (segmentIndex : ℕ) (generation : OutputGeneration)
  | synthesisFailed (turnId : TurnId) (generation : OutputGeneration)
  | playbackDrained (turnId : TurnId) (generation : OutputGeneration)
  | fadeDrained (turnId : TurnId) (generation : OutputGeneration)
  | routeFault (generation : RouteGeneration) (recoverable : Bool)
  | callbacksStalled (sessionId : SessionId) (generation : RouteGeneration)
  | metricsUpdated (generation : RouteGeneration) (metrics : RuntimeMetrics)
  | routeRetryDue (generation : RouteGeneration) (attempt : ℕ)
  | diagnosticsTick

end AvenOS.Voice
