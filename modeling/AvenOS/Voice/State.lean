import AvenOS.Voice.Protocol
import Mathlib.Data.List.SplitBy
import Mathlib.Data.List.Basic

/-! # The state of the voice core

The state of one process, and what a command or an observation makes of it. Every function returns the
next state and the actions it asks for. -/
namespace AvenOS.Voice

/-! ## Text -/

structure SpeakerCluster where
  id : String
  centroid : List ℚ
  observations : ℕ

structure SpeakerClusters where
  clusters : List SpeakerCluster
  lastCluster : Option ℕ

def SpeakerClusters.default : SpeakerClusters := ⟨[], none⟩

/-- Unicode, and what is computed with samples. -/
structure Platform where
  nfkc : String → List Char
  isAlphabetic : Char → Bool
  isAlphanumeric : Char → Bool
  isWhitespace : Char → Bool
  toLowercase : Char → List Char
  /-- `1.0 - distance / length >= 0.68`. -/
  similar : ℕ → ℕ → Bool
  /-- `(queued_seconds + buffered_seconds) * 1000`. -/
  leadMs : RuntimeMetrics → ℕ
  /-- `SpeakerClusters::assign`. -/
  assign : SpeakerClusters → List ℚ → SpeakerClusters × Option SpeakerAttribution

section Text
variable (platform : Platform)

/-- `text.trim().is_empty()`. -/
def isBlank (text : String) : Bool := text.toList.all platform.isWhitespace

def trim (text : List Char) : String :=
  String.ofList (((text.dropWhile platform.isWhitespace).reverse.dropWhile platform.isWhitespace).reverse)

/-- A token with two letters. -/
def hasLexicalSeed (text : String) : Bool :=
  ((platform.nfkc text).splitOnP platform.isWhitespace).any fun token =>
    2 ≤ ((token.filter platform.isAlphabetic).take 2).length

def compactLexical (text : String) : List Char :=
  ((platform.nfkc text).flatMap platform.toLowercase).filter platform.isAlphanumeric

def levenshteinRow (left : Char) : List Char → ℕ → ℕ → List ℕ → List ℕ
  | right :: rights, last, diagonal, above :: aboves =>
    let entry := min (min (last + 1) (above + 1)) (diagonal + if left = right then 0 else 1)
    entry :: levenshteinRow left rights entry above aboves
  | _, _, _, _ => []

def levenshteinRows (right : List Char) : List Char → ℕ → List ℕ → List ℕ
  | [], _, previous => previous
  | left :: lefts, index, previous =>
    levenshteinRows right lefts (index + 1)
      ((index + 1) :: levenshteinRow left right (index + 1) (previous.headD 0) previous.tail)

def levenshtein (left right : List Char) : ℕ :=
  (levenshteinRows right left 0 (List.range (right.length + 1))).getLastD 0

def windows (text : List Char) (length : ℕ) : List (List Char) :=
  (List.range (text.length + 1 - length)).map fun start => (text.drop start).take length

def looksLikeNarrationEcho (text narration : String) : Bool :=
  let heard := compactLexical platform text
  let spoken := compactLexical platform narration
  if heard.isEmpty || spoken.isEmpty then false
  else if (windows spoken heard.length).any (· == heard) then true
  else if heard.length < 6 then false
  else (windows spoken (min heard.length spoken.length)).any fun window =>
    platform.similar (levenshtein heard window) (max heard.length window.length)

end Text

/-! ## The state -/

structure VoiceConfig where
  allowFullDuplexBargeIn : Bool
  allowTesterAdaptingBargeIn : Bool
  outputFadeMs : ℕ
  maxQueuedSegments : ℕ
  maxSegmentChars : ℕ
deriving DecidableEq, Repr

def VoiceConfig.default : VoiceConfig where
  allowFullDuplexBargeIn := true
  allowTesterAdaptingBargeIn := false
  outputFadeMs := 80
  maxQueuedSegments := 8
  maxSegmentChars := 512

inductive CachedResult
  | accepted
  | session (sessionId : SessionId)
  | turn (turnId : TurnId)
  | enqueued (idempotent : Bool) (remainingCapacity : ℕ)
deriving DecidableEq, Repr

/-- The fingerprint of a command is its text, which tells commands apart. -/
structure RequestEntry where
  fingerprint : Command
  result : Except CoreError CachedResult

/-- The identifiers in the order they were recorded, and their entries. -/
structure RequestLedger where
  order : List RequestId
  entries : RequestId → Option RequestEntry

def RequestLedger.empty : RequestLedger := ⟨[], fun _ => none⟩

def requestHistory : ℕ := 256

def RequestLedger.find (ledger : RequestLedger) (command : Command) :
    Option (Except CoreError CachedResult) :=
  (ledger.entries command.requestId).map fun entry =>
    if entry.fingerprint = command then entry.result
    else .error ⟨.requestConflict, "request ID was reused for a different command"⟩

def RequestLedger.evict (ledger : RequestLedger) : RequestLedger :=
  match ledger.order with
  | [] => ledger
  | oldest :: order => ⟨order, fun requestId => if requestId = oldest then none else ledger.entries requestId⟩

def RequestLedger.record (ledger : RequestLedger) (command : Command)
    (result : Except CoreError CachedResult) : RequestLedger :=
  if (ledger.entries command.requestId).isSome then ledger
  else
    let kept := if ledger.order.length = requestHistory then ledger.evict else ledger
    { order := kept.order ++ [command.requestId]
      entries := fun requestId =>
        if requestId = command.requestId then some ⟨command, result⟩ else kept.entries requestId }

structure CandidateState where
  id : CandidateId
  generation : RouteGeneration
  unsafeAtStart : Bool
  unsafeSinceStart : Bool
  confirmed : Bool
  partialText : String
  assistantText : String
  nearEndConfident : Bool
  adaptationReadyAtStart : Bool
  speakerEmbedding : Option (List ℚ)
  speakerPublished : Bool

structure TurnState where
  id : TurnId
  generation : OutputGeneration
  segments : List String
  startedSegments : ℕ
  finished : Bool
  speaking : Bool
  language : String
  voice : String
deriving DecidableEq

inductive RetiringOutcome
  | cancelled (reason : SpeechCancelReason)
  | failed (error : VoiceError)
deriving DecidableEq

structure RetiringTurnState where
  id : TurnId
  generation : OutputGeneration
  outcome : RetiringOutcome
deriving DecidableEq

structure IdGenerator where
  bootNonce : String
  next : ℕ
deriving DecidableEq, Repr

def IdGenerator.value (ids : IdGenerator) (kind : String) : String :=
  ids.bootNonce ++ "-" ++ kind ++ "-" ++ toString (ids.next + 1)

def IdGenerator.advance (ids : IdGenerator) : IdGenerator := { ids with next := ids.next + 1 }

structure VoiceState where
  config : VoiceConfig
  runtime : RuntimeStatus
  sessionStatus : SessionStatus
  captureStatus : CaptureStatus
  playbackStatus : PlaybackStatus
  utteranceStatus : UtteranceStatus
  echoStatus : EchoStatus
  sessionId : Option SessionId
  lastSessionId : Option SessionId
  routeGeneration : RouteGeneration
  outputGeneration : OutputGeneration
  route : Option RouteSnapshot
  candidate : Option CandidateState
  turn : Option TurnState
  lastTurnId : Option TurnId
  retiringTurn : Option RetiringTurnState
  retryAttempt : ℕ
  inputReady : Bool
  outputReady : Bool
  requestedInput : Bool
  requestedOutput : Bool
  preferredInput : Option String
  preferredOutput : Option String
  diagnosticsEnabled : Bool
  metrics : RuntimeMetrics
  speakerClusters : SpeakerClusters
  requests : RequestLedger
  ids : IdGenerator

def VoiceState.new (bootNonce : String) (config : VoiceConfig) : VoiceState where
  config := config
  runtime := .dormant
  sessionStatus := .closed
  captureStatus := .closed
  playbackStatus := .silent
  utteranceStatus := .idle
  echoStatus := .bypassed
  sessionId := none
  lastSessionId := none
  routeGeneration := 0
  outputGeneration := 0
  route := none
  candidate := none
  turn := none
  lastTurnId := none
  retiringTurn := none
  retryAttempt := 0
  inputReady := false
  outputReady := false
  requestedInput := false
  requestedOutput := false
  preferredInput := none
  preferredOutput := none
  diagnosticsEnabled := false
  metrics := .default
  speakerClusters := .default
  requests := .empty
  ids := ⟨bootNonce, 0⟩

/-! ## Turns and candidates -/

namespace VoiceState
variable (platform : Platform) (s : VoiceState)

def errorRaised (code : VoiceErrorCode) (turnId : Option TurnId) (candidateId : Option CandidateId)
    (message : String) : VoiceError :=
  ⟨code, .error, true, s.sessionId, turnId, candidateId, message⟩

def retire (turn : TurnState) (outcome : RetiringOutcome) : VoiceState :=
  { s with
    turn := none
    lastTurnId := some turn.id
    outputGeneration := s.outputGeneration + 1
    playbackStatus := .fading
    retiringTurn := some ⟨turn.id, turn.generation, outcome⟩ }

def retireActions (turn : TurnState) : List Action :=
  [.retireOutput turn.generation (s.outputGeneration + 1), .cancelTts turn.id,
    .fadeOutput turn.id turn.generation s.config.outputFadeMs,
    .emit (.playbackFading turn.id s.config.outputFadeMs)]

def cancelActiveTurn (reason : SpeechCancelReason) : VoiceState × List Action :=
  match s.turn with
  | none => (s, [])
  | some turn =>
    (s.retire turn (.cancelled reason), s.retireActions turn ++ [.speechCancelled turn.id reason])

def failActiveTurn : VoiceState × List Action :=
  match s.turn with
  | none => (s, [])
  | some turn =>
    (s.retire turn (.failed (s.errorRaised .ttsFailed (some turn.id) none "Speech synthesis failed.")),
      s.retireActions turn)

def discardCandidate (reason : InputDiscardReason) : VoiceState × List Action :=
  match s.candidate with
  | none => (s, [])
  | some candidate =>
    ({ s with candidate := none, utteranceStatus := .idle },
      [.candidateDiscarded candidate.id reason, .emit (.inputDiscarded candidate.id reason)])

def setCandidate (change : CandidateState → CandidateState) : VoiceState :=
  { s with candidate := s.candidate.map change }

def candidateMatches (candidateId : CandidateId) (generation : RouteGeneration) : Bool :=
  generation == s.routeGeneration && s.candidate.any fun candidate =>
    candidate.id == candidateId && candidate.generation == generation

/-- The whole turn counts as output: a silent frame is only a word gap. -/
def outputTurnActive (farEndActive : Bool) : Bool := s.turn.isSome || farEndActive

def farEndIntervalIsUnsafe (farEndActive safeEchoContinuous : Bool) : Bool :=
  if !s.config.allowFullDuplexBargeIn then s.outputTurnActive farEndActive
  else s.outputTurnActive farEndActive && !safeEchoContinuous

def candidateCanConfirm (text : String) (farEndActive safeEchoContinuous : Bool) : Bool :=
  s.candidate.any fun candidate =>
    (!candidate.unsafeAtStart && !candidate.unsafeSinceStart &&
      (!s.outputTurnActive farEndActive ||
        (s.config.allowFullDuplexBargeIn && safeEchoContinuous))) ||
    (s.config.allowFullDuplexBargeIn && s.config.allowTesterAdaptingBargeIn &&
      candidate.unsafeSinceStart && candidate.adaptationReadyAtStart && candidate.nearEndConfident &&
      s.echoStatus == .adapting && !looksLikeNarrationEcho platform text candidate.assistantText)

def publishCandidateSpeaker (candidateId : CandidateId) : VoiceState × List Action :=
  match s.candidate with
  | none => (s, [])
  | some candidate =>
    if candidate.id = candidateId ∧ candidate.confirmed = true ∧ candidate.speakerPublished = false then
      match candidate.speakerEmbedding with
      | none => (s, [])
      | some embedding =>
        let taken := { candidate with speakerEmbedding := none }
        match platform.assign s.speakerClusters embedding with
        | (clusters, none) => ({ s with speakerClusters := clusters, candidate := some taken }, [])
        | (clusters, some speaker) =>
          ({ s with
              speakerClusters := clusters
              candidate := some { taken with speakerPublished := true } },
            [.emit (.inputSpeakerIdentified candidateId speaker)])
    else (s, [])

def confirmCandidate (candidateId : CandidateId) : VoiceState × List Action :=
  if s.candidate.all CandidateState.confirmed then (s, [])
  else
    let confirmed := { s.setCandidate fun candidate => { candidate with confirmed := true } with
      utteranceStatus := .confirmed }
    let cancelled := confirmed.cancelActiveTurn .bargeIn
    let published := cancelled.1.publishCandidateSpeaker platform candidateId
    (published.1, cancelled.2 ++
      [.emit (.inputConfirmed candidateId confirmed.turn.isSome)] ++ published.2)

/-! ## Routes -/

def openRoute (sessionId : SessionId) : Action :=
  .openRoute sessionId s.routeGeneration s.preferredInput s.preferredOutput

def retryDelaysMs : List ℕ := [100, 250, 500, 1000, 2000]

def scheduleRetry (now : MonoTimeNs) : VoiceState × List Action :=
  match retryDelaysMs[s.retryAttempt]? with
  | none =>
    ({ s with sessionStatus := .suspended, captureStatus := .failed },
      [.emit (.statusSession .suspended), .emit (.statusCapture .failed),
        .emit (.errorRaised (s.errorRaised .routeOpenFailed none none
          "The audio route could not be recovered."))])
  | some delay =>
    ({ s with retryAttempt := s.retryAttempt + 1 },
      [.scheduleRouteRetry s.routeGeneration (s.retryAttempt + 1) (now + delay * 1000000)])

def handleRouteFault (generation : RouteGeneration) (recoverable : Bool) (now : MonoTimeNs) :
    VoiceState × List Action :=
  if generation ≠ s.routeGeneration ∨ s.sessionId = none ∨ s.sessionStatus = .closed then (s, [])
  else
    let faulted := { s with
      routeGeneration := s.routeGeneration + 1
      sessionStatus := if recoverable then .recovering else .suspended
      captureStatus := if recoverable then .starting else .failed
      echoStatus := .degraded
      metrics := .default
      route := none }
    let discarded := faulted.discardCandidate .routeChanged
    let cancelled := discarded.1.cancelActiveTurn .routeFault
    let retried := if recoverable then cancelled.1.scheduleRetry now else (cancelled.1, [])
    (retried.1,
      [.emit (.statusRoute none), .emit (.statusSession faulted.sessionStatus),
        .emit (.statusCapture faulted.captureStatus)] ++ discarded.2 ++ cancelled.2 ++
      [.closeRoute generation] ++ retried.2)

end VoiceState

end AvenOS.Voice
