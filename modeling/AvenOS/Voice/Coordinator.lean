import AvenOS.Voice.State

/-! # Commands and observations of the voice core

The coordinator takes commands and observations one at a time. A command that has been answered before is
answered the same, without any effect. -/
namespace AvenOS.Voice

/-- The answer to a command, the next state, and what is to be done. -/
structure Reply where
  result : Except CoreError CachedResult
  state : VoiceState
  actions : List Action

namespace VoiceState
variable (platform : Platform) (s : VoiceState)

def reject (code : VoiceErrorCode) (message : String) : Reply := ⟨.error ⟨code, message⟩, s, []⟩

def accept (actions : List Action) : Reply := ⟨.ok .accepted, s, actions⟩

def staleSession : Reply := s.reject .staleSession "session is stale"

def staleTurn : Reply := s.reject .staleTurn "turn is stale"

/-! ## Commands -/

def prepare (features : List VoiceFeature) : Reply :=
  { s with
    requestedInput := s.requestedInput || features.contains .input
    requestedOutput := s.requestedOutput || features.contains .output
    runtime := .preparing }.accept [.emit (.statusRuntime .preparing), .prepareModels features]

/-- What is left of the session that a new one replaces. -/
def supersede : VoiceState × List Action :=
  match s.sessionId with
  | none => (s, [])
  | some old =>
    let left := { s with sessionId := none, lastSessionId := some old }
    let cancelled := left.cancelActiveTurn .superseded
    (cancelled.1, cancelled.2 ++ [.closeRoute s.routeGeneration, .stopSession old])

def startSession (preferredInput preferredOutput : Option String) : Reply :=
  if !s.inputReady || !s.outputReady then
    s.reject .modelNotPrepared
      "input and output models must be prepared before starting a voice session"
  else
    let superseded := s.supersede
    let sessionId := superseded.1.ids.value "s"
    let started := { superseded.1 with
      ids := superseded.1.ids.advance
      sessionId := some sessionId
      sessionStatus := .opening
      captureStatus := .starting
      routeGeneration := s.routeGeneration + 1
      candidate := none
      speakerClusters := .default
      utteranceStatus := .idle
      echoStatus := .bypassed
      metrics := .default
      route := none
      retryAttempt := 0
      preferredInput := preferredInput
      preferredOutput := preferredOutput }
    ⟨.ok (.session sessionId), started,
      superseded.2 ++ [.emit (.statusSession .opening), .activateEnvironment sessionId]⟩

def stopSession (sessionId : SessionId) : Reply :=
  if s.sessionId ≠ some sessionId then
    if s.lastSessionId = some sessionId then s.accept [] else s.staleSession
  else
    let cancelled := s.cancelActiveTurn .sessionStopped
    let discarded := cancelled.1.discardCandidate .reset
    let stopped := { discarded.1 with
      speakerClusters := .default
      sessionId := none
      lastSessionId := some sessionId
      sessionStatus := .closed
      captureStatus := .closed
      echoStatus := .bypassed
      metrics := .default
      route := none }
    stopped.accept
      (cancelled.2 ++ discarded.2 ++ [.closeRoute s.routeGeneration, .stopSession sessionId,
        .emit (.statusSession .closed)])

def beginSpeech (sessionId : SessionId) (language voice : String) : Reply :=
  if s.sessionId ≠ some sessionId then s.staleSession
  else if s.sessionStatus ≠ .active then s.reject .routeOpenFailed "voice session is not active"
  else if isBlank platform language || isBlank platform voice then
    s.reject .invalidText "language and voice are required"
  else
    let cancelled := s.cancelActiveTurn .superseded
    let turnId := cancelled.1.ids.value "t"
    let generation := cancelled.1.outputGeneration + 1
    ⟨.ok (.turn turnId),
      { cancelled.1 with
        ids := cancelled.1.ids.advance
        outputGeneration := generation
        turn := some
          { id := turnId
            generation := generation
            segments := []
            startedSegments := 0
            finished := false
            speaking := false
            language := language
            voice := voice }
        playbackStatus := .synthesizing },
      cancelled.2 ++ [.setOutputGeneration generation, .emit (.playbackTurnStarted turnId)]⟩

def activeTurn (turnId : TurnId) : Option TurnState := s.turn.filter fun turn => turn.id = turnId

/-- `CapacityChanged`, with a count of 16 bits. -/
def capacityChanged (pendingSegments : ℕ) : Action :=
  .emit (.capacityChanged (min pendingSegments 65535) (platform.leadMs s.metrics))

def enqueueSpeech (sessionId : SessionId) (turnId : TurnId) (segmentIndex : ℕ) (text : String) : Reply :=
  if s.sessionId ≠ some sessionId then s.staleSession
  else
    match s.activeTurn turnId with
    | none => s.staleTurn
    | some turn =>
      let pending := turn.segments.length - turn.startedSegments
      if turn.finished then s.staleTurn
      else if isBlank platform text || s.config.maxSegmentChars < text.length then
        s.reject .invalidText "speech segment is empty or too long"
      else if segmentIndex < turn.segments.length then
        if turn.segments[segmentIndex]? = some text then
          ⟨.ok (.enqueued true (s.config.maxQueuedSegments - pending)), s, []⟩
        else s.reject .segmentConflict "segment index has different text"
      else if segmentIndex ≠ turn.segments.length then
        s.reject .segmentOutOfOrder "segment index is not contiguous"
      else if pending = s.config.maxQueuedSegments then
        s.reject .queueFull "speech segment queue is full"
      else
        ⟨.ok (.enqueued false (s.config.maxQueuedSegments - (pending + 1))),
          { s with turn := some { turn with segments := turn.segments ++ [text] } },
          [.enqueueTts turnId segmentIndex text turn.language turn.voice turn.generation,
            .emit (.playbackSegmentAccepted turnId segmentIndex),
            s.capacityChanged platform (pending + 1)]⟩

def finishSpeech (sessionId : SessionId) (turnId : TurnId) : Reply :=
  if s.sessionId ≠ some sessionId then s.staleSession
  else
    match s.activeTurn turnId with
    | none => if s.lastTurnId = some turnId then s.accept [] else s.staleTurn
    | some turn =>
      if turn.finished then s.accept []
      else { s with turn := some { turn with finished := true } }.accept [.finishTts turnId]

def cancelSpeech (sessionId : SessionId) (turnId : Option TurnId) (reason : SpeechCancelReason) : Reply :=
  if s.sessionId ≠ some sessionId then
    if s.lastSessionId = some sessionId then s.accept [] else s.staleSession
  else
    let cancelled := s.cancelActiveTurn reason
    match turnId with
    | none => cancelled.1.accept cancelled.2
    | some requested =>
      if (s.activeTurn requested).isSome then cancelled.1.accept cancelled.2
      else if s.lastTurnId = some requested then s.accept []
      else s.staleTurn

def resetInput (sessionId : SessionId) : Reply :=
  if s.sessionId ≠ some sessionId then s.staleSession
  else
    let discarded := s.discardCandidate .reset
    let reset := { discarded.1 with speakerClusters := .default }
    reset.accept (discarded.2 ++ [.resetInput])

def setDiagnostics (sessionId : SessionId) (enabled : Bool) : Reply :=
  if s.sessionId ≠ some sessionId then s.staleSession
  else { s with diagnosticsEnabled := enabled }.accept []

def retryRoute (sessionId : SessionId) : Reply :=
  if s.sessionId ≠ some sessionId then s.staleSession
  else
    let retried := { s with
      retryAttempt := 0
      routeGeneration := s.routeGeneration + 1
      sessionStatus := .recovering }
    retried.accept [retried.openRoute sessionId]

def applyCommand : Command → Reply
  | .prepare _ features => s.prepare features
  | .startSession _ preferredInput preferredOutput => s.startSession preferredInput preferredOutput
  | .stopSession _ sessionId => s.stopSession sessionId
  | .beginSpeech _ sessionId _ language voice => s.beginSpeech platform sessionId language voice
  | .enqueueSpeech _ sessionId turnId segmentIndex text =>
    s.enqueueSpeech platform sessionId turnId segmentIndex text
  | .finishSpeech _ sessionId turnId => s.finishSpeech sessionId turnId
  | .cancelSpeech _ sessionId turnId reason => s.cancelSpeech sessionId turnId reason
  | .resetInput _ sessionId _ => s.resetInput sessionId
  | .setDiagnostics _ sessionId enabled => s.setDiagnostics sessionId enabled
  | .retryRoute _ sessionId => s.retryRoute sessionId

def command (command : Command) : Reply :=
  match s.requests.find command with
  | some result => ⟨result, s, []⟩
  | none =>
    let reply := s.applyCommand platform command
    { reply with
      state := { reply.state with requests := reply.state.requests.record command reply.result } }

/-! ## Observations of models and routes -/

def modelsPrepared (input output : Bool) : VoiceState × List Action :=
  let prepared := { s with inputReady := s.inputReady || input, outputReady := s.outputReady || output }
  if (!s.requestedInput || prepared.inputReady) && (!s.requestedOutput || prepared.outputReady) &&
      s.runtime != .ready then
    ({ prepared with runtime := .ready }, [.emit (.statusRuntime .ready)])
  else (prepared, [])

def modelsFailed (input output : Bool) : VoiceState × List Action :=
  if (input && s.requestedInput) || (output && s.requestedOutput) then
    ({ s with runtime := .failed },
      [.emit (.statusRuntime .failed),
        .emit (.errorRaised (s.errorRaised (if output then .ttsFailed else .asrFailed)
          (s.turn.map TurnState.id) (s.candidate.map CandidateState.id)
          "On-device voice models could not be prepared."))])
  else (s, [])

def environmentActivated (sessionId : SessionId) : VoiceState × List Action :=
  if s.sessionId = some sessionId then (s, [s.openRoute sessionId]) else (s, [])

def current (sessionId : SessionId) (generation : RouteGeneration) : Bool :=
  s.sessionId == some sessionId && generation == s.routeGeneration

def routeOpened (sessionId : SessionId) (generation : RouteGeneration) (route : RouteSnapshot) :
    VoiceState × List Action :=
  if s.current sessionId generation then
    ({ s with route := some route }, [.emit (.statusRoute (some route)), .startRoute generation])
  else (s, [])

def routeStarted (sessionId : SessionId) (generation : RouteGeneration) : VoiceState × List Action :=
  if s.current sessionId generation then
    ({ s with sessionStatus := .active, retryAttempt := 0 }, [.emit (.statusSession .active)])
  else (s, [])

def captureArrived (sessionId : SessionId) (generation : RouteGeneration) : VoiceState × List Action :=
  if s.current sessionId generation && s.captureStatus != .live then
    ({ s with captureStatus := .live }, [.emit (.statusCapture .live)])
  else (s, [])

def echoChanged (generation : RouteGeneration) (status : EchoStatus) : VoiceState × List Action :=
  if generation = s.routeGeneration ∧ s.echoStatus ≠ status then
    let fullDuplexBargeIn := s.config.allowFullDuplexBargeIn && status == .converged
    ({ s with
        echoStatus := status
        route := s.route.map fun route => { route with fullDuplexBargeIn := fullDuplexBargeIn } },
      [.emit (.statusEcho status fullDuplexBargeIn)])
  else (s, [])

/-! ## Observations of candidates -/

def vadStarted (candidateId : CandidateId) (generation : RouteGeneration) (farEndActive : Bool)
    (echoStatus : EchoStatus) : VoiceState × List Action :=
  if generation = s.routeGeneration ∧ s.candidate.isNone then
    let unsafeAtStart := s.farEndIntervalIsUnsafe farEndActive (echoStatus == .converged)
    ({ s with
        candidate := some
          { id := candidateId
            generation := generation
            unsafeAtStart := unsafeAtStart
            unsafeSinceStart := unsafeAtStart
            confirmed := false
            partialText := ""
            assistantText := (s.turn.map fun turn => " ".intercalate turn.segments).getD ""
            nearEndConfident := false
            adaptationReadyAtStart := false
            speakerEmbedding := none
            speakerPublished := false }
        utteranceStatus := .candidate },
      [.emit (.inputCandidateStarted candidateId farEndActive)])
  else (s, [])

def markUnsafe (farEndActive safeEchoContinuous : Bool) : VoiceState :=
  if s.farEndIntervalIsUnsafe farEndActive safeEchoContinuous then
    s.setCandidate fun candidate => { candidate with unsafeSinceStart := true }
  else s

def recognizerPartial (candidateId : CandidateId) (generation : RouteGeneration) (text : String)
    (farEndActive safeEchoContinuous : Bool) : VoiceState × List Action :=
  if s.candidateMatches candidateId generation then
    let marked := s.markUnsafe farEndActive safeEchoContinuous
    let changed := marked.candidate.any fun candidate => candidate.partialText != text
    let heard := if changed then
        marked.setCandidate fun candidate => { candidate with partialText := text } else marked
    let shown : List Action := if changed then [.emit (.inputPartial candidateId text)] else []
    if hasLexicalSeed platform text &&
        heard.candidateCanConfirm platform text farEndActive safeEchoContinuous then
      let confirmed := heard.confirmCandidate platform candidateId
      (confirmed.1, shown ++ confirmed.2)
    else (heard, shown)
  else (s, [])

def recognizerFinal (candidateId : CandidateId) (generation : RouteGeneration) (text : String)
    (farEndActive safeEchoContinuous : Bool) : VoiceState × List Action :=
  if s.candidateMatches candidateId generation then
    let marked := s.markUnsafe farEndActive safeEchoContinuous
    if !hasLexicalSeed platform text then marked.discardCandidate .empty
    else if marked.candidate.any CandidateState.confirmed ||
        marked.candidateCanConfirm platform text farEndActive safeEchoContinuous then
      let confirmed := marked.confirmCandidate platform candidateId
      let published := confirmed.1.publishCandidateSpeaker platform candidateId
      ({ published.1 with candidate := none, utteranceStatus := .idle },
        confirmed.2 ++ published.2 ++
          [.emit (.inputFinal candidateId (trim platform (platform.nfkc text)))])
    else marked.discardCandidate .unsafeEcho
  else (s, [])

def speakerEmbedding (candidateId : CandidateId) (generation : RouteGeneration)
    (embedding : List ℚ) : VoiceState × List Action :=
  if s.candidateMatches candidateId generation && !s.candidate.any CandidateState.speakerPublished then
    (s.setCandidate fun candidate =>
      { candidate with speakerEmbedding := some embedding }).publishCandidateSpeaker platform candidateId
  else (s, [])

def noteCandidate (candidateId : CandidateId) (generation : RouteGeneration)
    (change : CandidateState → CandidateState) : VoiceState × List Action :=
  if s.candidateMatches candidateId generation then (s.setCandidate change, []) else (s, [])

def nearEndEvidence (candidateId : CandidateId) (generation : RouteGeneration) :
    VoiceState × List Action :=
  s.noteCandidate candidateId generation fun candidate => { candidate with nearEndConfident := true }

def candidateAdaptationReady (candidateId : CandidateId) (generation : RouteGeneration) :
    VoiceState × List Action :=
  s.noteCandidate candidateId generation fun candidate => { candidate with adaptationReadyAtStart := true }

def candidateOverflow (candidateId : CandidateId) (generation : RouteGeneration) :
    VoiceState × List Action :=
  if s.candidateMatches candidateId generation then s.discardCandidate .overflow else (s, [])

def inputModelFailed (candidateId : Option CandidateId) (generation : RouteGeneration) :
    VoiceState × List Action :=
  if generation = s.routeGeneration ∧
      candidateId.all fun candidateId => s.candidateMatches candidateId generation then
    s.discardCandidate .modelFailed
  else (s, [])

/-! ## Observations of turns -/

def outputTurn (turnId : TurnId) (generation : OutputGeneration) : Option TurnState :=
  s.turn.filter fun turn => turn.id = turnId ∧ turn.generation = generation

def playbackAudible (turnId : TurnId) (generation : OutputGeneration) : VoiceState × List Action :=
  match s.outputTurn turnId generation with
  | none => (s, [])
  | some turn =>
    if turn.speaking then (s, [])
    else
      ({ s with turn := some { turn with speaking := true }, playbackStatus := .playing },
        [.emit (.playbackStarted turnId)])

def synthesisStarted (turnId : TurnId) (segmentIndex : ℕ) (generation : OutputGeneration) :
    VoiceState × List Action :=
  match s.outputTurn turnId generation with
  | none => (s, [])
  | some turn =>
    let startedSegments := if turn.startedSegments = segmentIndex then turn.startedSegments + 1
      else turn.startedSegments
    ({ s with
        turn := some { turn with startedSegments := startedSegments }
        playbackStatus := .synthesizing },
      [.emit (.playbackSynthesisStarted turnId segmentIndex),
        s.capacityChanged platform (turn.segments.length - startedSegments)])

def synthesisCompleted (turnId : TurnId) (segmentIndex : ℕ) (generation : OutputGeneration) :
    VoiceState × List Action :=
  match s.outputTurn turnId generation with
  | none => (s, [])
  | some _ =>
    ({ s with playbackStatus := .buffered },
      [.emit (.playbackSynthesisCompleted turnId segmentIndex)])

def synthesisFailed (turnId : TurnId) (generation : OutputGeneration) : VoiceState × List Action :=
  match s.outputTurn turnId generation with
  | none => (s, [])
  | some _ => s.failActiveTurn

def playbackDrained (turnId : TurnId) (generation : OutputGeneration) : VoiceState × List Action :=
  match s.outputTurn turnId generation with
  | none => (s, [])
  | some turn =>
    if turn.finished then
      ({ s with turn := none, lastTurnId := some turn.id, playbackStatus := .silent },
        [.emit (.playbackCompleted turnId)])
    else (s, [])

def RetiringTurnState.ended (turn : RetiringTurnState) : VoiceEvent :=
  match turn.outcome with
  | .cancelled reason => .playbackCancelled turn.id reason
  | .failed error => .playbackFailed turn.id error

def RetiringTurnState.left (turn : RetiringTurnState) : PlaybackStatus :=
  match turn.outcome with
  | .cancelled _ => .silent
  | .failed _ => .failed

def fadeDrained (turnId : TurnId) (generation : OutputGeneration) : VoiceState × List Action :=
  match s.retiringTurn.filter fun turn => turn.id = turnId ∧ turn.generation = generation with
  | none => (s, [])
  | some retired =>
    ({ s with
        retiringTurn := none
        playbackStatus := if s.turn.isNone then RetiringTurnState.left retired else s.playbackStatus },
      [.emit (RetiringTurnState.ended retired)])

/-! ## Observations of faults -/

def callbacksStalled (sessionId : SessionId) (generation : RouteGeneration) (now : MonoTimeNs) :
    VoiceState × List Action :=
  if s.current sessionId generation then
    let faulted := s.handleRouteFault generation true now
    (faulted.1,
      .emit (.errorRaised ⟨.callbacksStalled, .error, true, some sessionId, s.turn.map TurnState.id,
        s.candidate.map CandidateState.id, "The microphone stopped delivering audio."⟩) :: faulted.2)
  else (s, [])

def metricsUpdated (generation : RouteGeneration) (metrics : RuntimeMetrics) :
    VoiceState × List Action :=
  if generation = s.routeGeneration then ({ s with metrics := metrics }, []) else (s, [])

def routeRetryDue (generation : RouteGeneration) (attempt : ℕ) : VoiceState × List Action :=
  if generation = s.routeGeneration ∧ attempt = s.retryAttempt ∧ s.sessionStatus = .recovering then
    match s.sessionId with
    | none => (s, [])
    | some sessionId => (s, [s.openRoute sessionId])
  else (s, [])

def diagnosticsTick : VoiceState × List Action :=
  if s.diagnosticsEnabled && s.sessionId.isSome then (s, [.emit .diagnosticsSnapshot]) else (s, [])

def observe (now : MonoTimeNs) : Observation → VoiceState × List Action
  | .modelsPrepared input output => s.modelsPrepared input output
  | .modelsFailed input output => s.modelsFailed input output
  | .environmentActivated sessionId => s.environmentActivated sessionId
  | .routeOpened sessionId generation route => s.routeOpened sessionId generation route
  | .routeStarted sessionId generation => s.routeStarted sessionId generation
  | .captureArrived sessionId generation => s.captureArrived sessionId generation
  | .echoChanged generation status => s.echoChanged generation status
  | .vadStarted candidateId generation farEndActive echoStatus =>
    s.vadStarted candidateId generation farEndActive echoStatus
  | .recognizerPartial candidateId generation text farEndActive safeEchoContinuous =>
    s.recognizerPartial platform candidateId generation text farEndActive safeEchoContinuous
  | .recognizerFinal candidateId generation text farEndActive safeEchoContinuous =>
    s.recognizerFinal platform candidateId generation text farEndActive safeEchoContinuous
  | .speakerEmbedding candidateId generation embedding =>
    s.speakerEmbedding platform candidateId generation embedding
  | .nearEndEvidence candidateId generation => s.nearEndEvidence candidateId generation
  | .candidateAdaptationReady candidateId generation => s.candidateAdaptationReady candidateId generation
  | .candidateOverflow candidateId generation => s.candidateOverflow candidateId generation
  | .inputModelFailed candidateId generation => s.inputModelFailed candidateId generation
  | .playbackAudible turnId generation => s.playbackAudible turnId generation
  | .synthesisStarted turnId segmentIndex generation =>
    s.synthesisStarted platform turnId segmentIndex generation
  | .synthesisCompleted turnId segmentIndex generation =>
    s.synthesisCompleted turnId segmentIndex generation
  | .synthesisFailed turnId generation => s.synthesisFailed turnId generation
  | .playbackDrained turnId generation => s.playbackDrained turnId generation
  | .fadeDrained turnId generation => s.fadeDrained turnId generation
  | .routeFault generation recoverable => s.handleRouteFault generation recoverable now
  | .callbacksStalled sessionId generation => s.callbacksStalled sessionId generation now
  | .metricsUpdated generation metrics => s.metricsUpdated generation metrics
  | .routeRetryDue generation attempt => s.routeRetryDue generation attempt
  | .diagnosticsTick => s.diagnosticsTick

end VoiceState

/-! ## Runs -/

inductive Input
  | command (command : Command)
  | observation (observation : Observation) (now : MonoTimeNs)

def react (platform : Platform) (s : VoiceState) : Input → VoiceState × List Action
  | .command command =>
    ((s.command platform command).state, (s.command platform command).actions)
  | .observation observation now => s.observe platform now observation

structure Moment where
  state : VoiceState
  input : Input
  actions : List Action

structure Session where
  state : VoiceState
  log : List Moment

def Session.new (bootNonce : String) (config : VoiceConfig) : Session := ⟨.new bootNonce config, []⟩

def Session.next (platform : Platform) (session : Session) (input : Input) : Session where
  state := (react platform session.state input).1
  log := session.log ++ [⟨session.state, input, (react platform session.state input).2⟩]

/-- Everything that was done, in order. -/
def Session.actions (session : Session) : List Action := session.log.flatMap Moment.actions

def Session.run (platform : Platform) (session : Session) (inputs : List Input) : Session :=
  inputs.foldl (Session.next platform) session

/-- What a run reaches whose steps all meet a condition. -/
inductive Reaches (platform : Platform) (condition : Session → Input → Prop) : Session → Prop
  | new (bootNonce : String) (config : VoiceConfig) :
    Reaches platform condition (Session.new bootNonce config)
  | next (session : Session) (input : Input) (h : Reaches platform condition session)
      (hmet : condition session input) : Reaches platform condition (session.next platform input)

/-- Any run. -/
abbrev Reachable (platform : Platform) : Session → Prop := Reaches platform fun _ _ => True

variable {platform : Platform} {condition : Session → Input → Prop} {session : Session} {input : Input}

theorem Reaches.mono {wider : Session → Input → Prop} (h : Reaches platform condition session)
    (hwider : ∀ session input, condition session input → wider session input) : Reaches platform wider session := by
  induction h with
  | new bootNonce config => exact .new bootNonce config
  | next session input _ hmet ih => exact .next session input ih (hwider _ _ hmet)

def Session.meets (platform : Platform) (condition : Session → Input → Prop) :
    Session → List Input → Prop
  | _, [] => True
  | session, input :: inputs =>
    condition session input ∧ (session.next platform input).meets platform condition inputs

instance Session.decidableMeets (platform : Platform) (condition : Session → Input → Prop)
    [∀ session input, Decidable (condition session input)] :
    (session : Session) → (inputs : List Input) → Decidable (session.meets platform condition inputs)
  | _, [] => inferInstanceAs (Decidable True)
  | session, input :: inputs =>
    have := Session.decidableMeets platform condition (session.next platform input) inputs
    inferInstanceAs (Decidable (_ ∧ _))

theorem Reaches.run (h : Reaches platform condition session) (inputs : List Input)
    (hmeets : session.meets platform condition inputs) : Reaches platform condition (session.run platform inputs) := by
  induction inputs generalizing session with
  | nil => exact h
  | cons input inputs ih => exact ih (.next session input h hmeets.1) hmeets.2

theorem reachable_run (h : Reachable platform session) (inputs : List Input) :
    Reachable platform (session.run platform inputs) := by
  induction inputs generalizing session with
  | nil => exact h
  | cons input inputs ih => exact ih (.next session input h trivial)

@[simp] theorem Session.next_state : (session.next platform input).state = (react platform session.state input).1 := rfl

@[simp] theorem Session.next_actions :
    (session.next platform input).actions = session.actions ++ (react platform session.state input).2 := by
  simp [Session.actions, Session.next]

/-! ## Faults and commands, step by step -/

namespace VoiceState
variable (s : VoiceState)

def afterFault (recoverable : Bool) : VoiceState :=
  { s with
    routeGeneration := s.routeGeneration + 1
    sessionStatus := if recoverable then .recovering else .suspended
    captureStatus := if recoverable then .starting else .failed
    echoStatus := .degraded
    metrics := .default
    route := none }

def faultActions (recoverable : Bool) : List Action :=
  [.emit (.statusRoute none), .emit (.statusSession (s.afterFault recoverable).sessionStatus),
    .emit (.statusCapture (s.afterFault recoverable).captureStatus)]

def retryIf (recoverable : Bool) (now : MonoTimeNs) : VoiceState × List Action :=
  if recoverable then s.scheduleRetry now else (s, [])

theorem handleRouteFault_cases (generation : RouteGeneration) (recoverable : Bool) (now : MonoTimeNs) :
    s.handleRouteFault generation recoverable now = (s, []) ∨
      generation = s.routeGeneration ∧ s.sessionId ≠ none ∧ s.sessionStatus ≠ .closed ∧
        s.handleRouteFault generation recoverable now =
          let discarded := (s.afterFault recoverable).discardCandidate .routeChanged
          let cancelled := discarded.1.cancelActiveTurn .routeFault
          let retried := cancelled.1.retryIf recoverable now
          (retried.1, s.faultActions recoverable ++ discarded.2 ++ cancelled.2 ++
            [.closeRoute generation] ++ retried.2) := by
  unfold handleRouteFault
  split
  · exact .inl rfl
  · rename_i h
    rw [not_or, not_or, not_not] at h
    exact .inr ⟨h.1, h.2.1, h.2.2, rfl⟩

end VoiceState

def Reply.done (reply : Reply) : VoiceState × List Action := (reply.state, reply.actions)

theorem react_command (platform : Platform) (s : VoiceState) (command : Command) :
    react platform s (.command command) = (s, []) ∨ s.requests.find command = none ∧ ∃ requests,
        react platform s (.command command) = ({ (s.applyCommand platform command).done.1 with requests := requests },
            (s.applyCommand platform command).done.2) := by
  unfold react
  dsimp only
  unfold VoiceState.command
  split
  · exact .inl rfl
  · exact .inr ⟨‹_›, _, rfl⟩

/-! ## A small platform -/

/-- Plain text, and no speakers. -/
def plainPlatform : Platform where
  nfkc := String.toList
  isAlphabetic := Char.isAlpha
  isAlphanumeric := Char.isAlphanum
  isWhitespace := Char.isWhitespace
  toLowercase := fun c => [c.toLower]
  similar := fun distance length => 32 * length ≥ 100 * distance
  leadMs := fun metrics => ((metrics.queuedSeconds + metrics.bufferedSeconds) * 1000).floor.toNat
  assign := fun clusters _ => (clusters, none)

end AvenOS.Voice
