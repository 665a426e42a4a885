import AvenOS.Voice.Coordinator

/-! # What a step does to the route

A step opens, starts or closes a route, or asks for another attempt, and only while there is a session. The
generation of the route grows when the route is left. -/
namespace AvenOS.Voice

/-! ## Events -/

inductive RouteMove
  | opened (generation : RouteGeneration)
  | started (generation : RouteGeneration)
  | closed (generation : RouteGeneration)
  | scheduled (generation : RouteGeneration) (attempt : ℕ)
deriving DecidableEq, Repr

def Action.routeMove : Action → Option RouteMove
  | .openRoute _ generation _ _ => some (.opened generation)
  | .startRoute generation => some (.started generation)
  | .closeRoute generation => some (.closed generation)
  | .scheduleRouteRetry generation attempt _ => some (.scheduled generation attempt)
  | _ => none

def routeMoves (actions : List Action) : List RouteMove := actions.filterMap Action.routeMove

@[simp] theorem routeMoves_nil : routeMoves [] = [] := rfl

@[simp] theorem routeMoves_append (actions more : List Action) :
    routeMoves (actions ++ more) = routeMoves actions ++ routeMoves more := List.filterMap_append

@[simp] theorem routeMoves_cons (action : Action) (actions : List Action) :
    routeMoves (action :: actions) = action.routeMove.toList ++ routeMoves actions := by
  cases h : action.routeMove <;> simp [routeMoves, h]

structure Routing where
  sessionId : Option SessionId
  generation : RouteGeneration
  recovering : Bool
  attempt : ℕ
deriving DecidableEq, Repr

namespace VoiceState
variable (s : VoiceState)

def routing : Routing := ⟨s.sessionId, s.routeGeneration, s.sessionStatus == .recovering, s.retryAttempt⟩

/-- Nothing happens to the route. -/
structure Unmoved (result : VoiceState × List Action) : Prop where
  routing : result.1.routing = s.routing
  moves : routeMoves result.2 = []

end VoiceState

def Input.isFault : Input → Bool
  | .observation (.routeFault _ _) _ => true
  | .observation (.callbacksStalled _ _) _ => true
  | _ => false

inductive RouteStep (s : VoiceState) : Input → Routing → List RouteMove → Prop
  | unmoved (input : Input) : RouteStep s input s.routing []
  | activated (sessionId : SessionId) (now : MonoTimeNs) (hsession : s.sessionId = some sessionId) :
    RouteStep s (.observation (.environmentActivated sessionId) now) s.routing
      [.opened s.routeGeneration]
  | opened (sessionId : SessionId) (route : RouteSnapshot) (now : MonoTimeNs)
      (hsession : s.sessionId = some sessionId) :
    RouteStep s (.observation (.routeOpened sessionId s.routeGeneration route) now) s.routing
      [.started s.routeGeneration]
  | steadied (sessionId : SessionId) (now : MonoTimeNs) (hsession : s.sessionId = some sessionId) :
    RouteStep s (.observation (.routeStarted sessionId s.routeGeneration) now)
      ⟨s.sessionId, s.routeGeneration, false, 0⟩ []
  | retried (requestId : RequestId) (sessionId : SessionId)
      (hnew : s.requests.find (.retryRoute requestId sessionId) = none)
      (hsession : s.sessionId = some sessionId) :
    RouteStep s (.command (.retryRoute requestId sessionId))
      ⟨s.sessionId, s.routeGeneration + 1, true, 0⟩ [.opened (s.routeGeneration + 1)]
  | due (sessionId : SessionId) (now : MonoTimeNs) (hsession : s.sessionId = some sessionId)
      (hrecovering : s.sessionStatus = .recovering) :
    RouteStep s (.observation (.routeRetryDue s.routeGeneration s.retryAttempt) now) s.routing
      [.opened s.routeGeneration]
  | abandoned (input : Input) (hfault : input.isFault = true) (hsession : s.sessionId ≠ none) :
    RouteStep s input ⟨s.sessionId, s.routeGeneration + 1, false, s.retryAttempt⟩
      [.closed s.routeGeneration]
  | faulted (input : Input) (hfault : input.isFault = true) (hsession : s.sessionId ≠ none) :
    RouteStep s input ⟨s.sessionId, s.routeGeneration + 1, true, s.retryAttempt + 1⟩
      [.closed s.routeGeneration, .scheduled (s.routeGeneration + 1) (s.retryAttempt + 1)]
  | stopped (requestId : RequestId) (sessionId : SessionId) (hsession : s.sessionId = some sessionId) :
    RouteStep s (.command (.stopSession requestId sessionId))
      ⟨none, s.routeGeneration, false, s.retryAttempt⟩ [.closed s.routeGeneration]
  | replaced (requestId : RequestId) (preferredInput preferredOutput : Option String)
      (sessionId : SessionId) :
    RouteStep s (.command (.startSession requestId preferredInput preferredOutput))
      ⟨some sessionId, s.routeGeneration + 1, false, 0⟩
      (s.sessionId.toList.map fun _ => .closed s.routeGeneration)

def RouteStepOf (s : VoiceState) (input : Input) (result : VoiceState × List Action) : Prop :=
  RouteStep s input result.1.routing (routeMoves result.2)

namespace VoiceState
variable {platform : Platform} {s : VoiceState} {input : Input} {result : VoiceState × List Action}

theorem Unmoved.step (h : s.Unmoved result) : RouteStepOf s input result := by
  rw [RouteStepOf, h.routing, h.moves]
  exact .unmoved input

theorem unmoved_self : s.Unmoved (s, []) := ⟨rfl, rfl⟩

theorem Unmoved.after {middle : VoiceState × List Action} (h : s.Unmoved middle)
    (hnext : middle.1.Unmoved result) : s.Unmoved (result.1, middle.2 ++ result.2) where
  routing := hnext.routing.trans h.routing
  moves := by rw [routeMoves_append, h.moves, hnext.moves]; rfl

/-! ## Helpers -/

theorem cancelActiveTurn_unmoved (s : VoiceState) (reason : SpeechCancelReason) :
    s.Unmoved (s.cancelActiveTurn reason) := by
  unfold cancelActiveTurn
  split <;> exact ⟨rfl, rfl⟩

theorem failActiveTurn_unmoved (s : VoiceState) : s.Unmoved s.failActiveTurn := by
  unfold failActiveTurn
  split <;> exact ⟨rfl, rfl⟩

theorem discardCandidate_unmoved (s : VoiceState) (reason : InputDiscardReason) :
    s.Unmoved (s.discardCandidate reason) := by
  unfold discardCandidate
  split <;> exact ⟨rfl, rfl⟩

theorem setCandidate_unmoved (s : VoiceState) (change : CandidateState → CandidateState) :
    s.Unmoved (s.setCandidate change, []) := ⟨rfl, rfl⟩

theorem publishCandidateSpeaker_unmoved (platform : Platform) (s : VoiceState)
    (candidateId : CandidateId) : s.Unmoved (s.publishCandidateSpeaker platform candidateId) := by
  unfold publishCandidateSpeaker
  split
  · exact unmoved_self
  · split_ifs
    · split
      · exact unmoved_self
      · dsimp only
        split <;> exact ⟨rfl, rfl⟩
    · exact unmoved_self

theorem confirmCandidate_unmoved (platform : Platform) (s : VoiceState) (candidateId : CandidateId) :
    s.Unmoved (s.confirmCandidate platform candidateId) := by
  unfold confirmCandidate
  split
  · exact unmoved_self
  · dsimp only
    generalize hfirst : ({ s.setCandidate fun candidate => { candidate with confirmed := true } with
      utteranceStatus := .confirmed } : VoiceState) = confirmed
    have hsame : s.Unmoved (confirmed, []) := by rw [← hfirst]; exact ⟨rfl, rfl⟩
    have hcancelled := hsame.after (confirmed.cancelActiveTurn_unmoved .bargeIn)
    generalize confirmed.cancelActiveTurn .bargeIn = cancelled at hcancelled ⊢
    have hsaid : ∀ bargeIn, cancelled.1.Unmoved
        (cancelled.1, [.emit (.inputConfirmed candidateId bargeIn)]) := fun _ => ⟨rfl, rfl⟩
    exact (hcancelled.after (hsaid _)).after (cancelled.1.publishCandidateSpeaker_unmoved platform candidateId)

theorem markUnsafe_unmoved (s : VoiceState) (farEndActive safe : Bool) :
    s.Unmoved (s.markUnsafe farEndActive safe, []) := by
  unfold markUnsafe
  split <;> exact ⟨rfl, rfl⟩

/-! ## Commands -/

theorem beginSpeech_unmoved (sessionId : SessionId) (language voice : String) :
    s.Unmoved (s.beginSpeech platform sessionId language voice).done := by
  unfold beginSpeech
  split_ifs
  · exact unmoved_self
  · exact unmoved_self
  · exact unmoved_self
  · have hcancelled := s.cancelActiveTurn_unmoved .superseded
    exact ⟨hcancelled.routing, by simp [Reply.done, hcancelled.moves, Action.routeMove]⟩

theorem enqueueSpeech_unmoved (sessionId : SessionId) (turnId : TurnId) (segmentIndex : ℕ)
    (text : String) : s.Unmoved (s.enqueueSpeech platform sessionId turnId segmentIndex text).done := by
  unfold enqueueSpeech
  split
  · exact unmoved_self
  · split
    · exact unmoved_self
    · dsimp only
      split_ifs <;> exact ⟨rfl, rfl⟩

theorem finishSpeech_unmoved (sessionId : SessionId) (turnId : TurnId) :
    s.Unmoved (s.finishSpeech sessionId turnId).done := by
  unfold finishSpeech
  split
  · exact unmoved_self
  · split
    · split_ifs <;> exact unmoved_self
    · split_ifs <;> exact ⟨rfl, rfl⟩

theorem cancelSpeech_unmoved (sessionId : SessionId) (turnId : Option TurnId)
    (reason : SpeechCancelReason) : s.Unmoved (s.cancelSpeech sessionId turnId reason).done := by
  unfold cancelSpeech
  split
  · split_ifs <;> exact unmoved_self
  · split
    · exact s.cancelActiveTurn_unmoved reason
    · split_ifs
      · exact s.cancelActiveTurn_unmoved reason
      · exact unmoved_self
      · exact unmoved_self

theorem resetInput_unmoved (sessionId : SessionId) : s.Unmoved (s.resetInput sessionId).done := by
  unfold resetInput
  split
  · exact unmoved_self
  · have hreset : ∀ before : VoiceState,
        before.Unmoved ({ before with speakerClusters := .default }, [.resetInput]) := fun _ => ⟨rfl, rfl⟩
    exact (s.discardCandidate_unmoved .reset).after (hreset _)

theorem stopSession_route (requestId : RequestId) (sessionId : SessionId) :
    RouteStepOf s (.command (.stopSession requestId sessionId)) (s.stopSession sessionId).done := by
  unfold stopSession
  split
  · split_ifs <;> exact unmoved_self.step
  · rename_i hsession
    have hquiet := (s.cancelActiveTurn_unmoved .sessionStopped).after (discardCandidate_unmoved _ .reset)
    have hmoves := hquiet.moves
    dsimp only [Reply.done, accept] at hmoves ⊢
    generalize (s.cancelActiveTurn .sessionStopped).1.discardCandidate .reset = discarded at hquiet hmoves ⊢
    have hgeneration : discarded.1.routeGeneration = s.routeGeneration := congrArg Routing.generation hquiet.routing
    have hattempt : discarded.1.retryAttempt = s.retryAttempt := congrArg Routing.attempt hquiet.routing
    have hstep := RouteStep.stopped requestId sessionId (not_not.mp hsession)
    rw [← hgeneration, ← hattempt] at hstep
    rw [RouteStepOf, routeMoves_append, hmoves, ← hgeneration]
    exact hstep

theorem startSession_route (requestId : RequestId) (preferredInput preferredOutput : Option String) :
    RouteStepOf s (.command (.startSession requestId preferredInput preferredOutput))
      (s.startSession preferredInput preferredOutput).done := by
  unfold startSession
  split
  · exact unmoved_self.step
  · have hmoves : routeMoves s.supersede.2 = s.sessionId.toList.map fun _ => .closed s.routeGeneration := by
      unfold supersede
      split
      · rename_i hsession
        rw [hsession]
        rfl
      · rename_i old hsession
        rw [hsession]
        simp [Action.routeMove, (cancelActiveTurn_unmoved _ _).moves]
    have hsilent : routeMoves
        [.emit (.statusSession .opening), .activateEnvironment (s.supersede.1.ids.value "s")] = [] := rfl
    rw [RouteStepOf, Reply.done, routeMoves_append, hmoves, hsilent, List.append_nil]
    exact .replaced requestId preferredInput preferredOutput _

theorem retryRoute_route (requestId : RequestId) (sessionId : SessionId)
    (hnew : s.requests.find (.retryRoute requestId sessionId) = none) :
    RouteStepOf s (.command (.retryRoute requestId sessionId)) (s.retryRoute sessionId).done := by
  unfold retryRoute
  split
  · exact unmoved_self.step
  · rename_i hsession
    exact .retried requestId sessionId hnew (not_not.mp hsession)

theorem applyCommand_route (command : Command) (hnew : s.requests.find command = none) :
    RouteStepOf s (.command command) (s.applyCommand platform command).done := by
  cases command with
  | prepare => exact Unmoved.step ⟨rfl, rfl⟩
  | startSession => exact startSession_route _ _ _
  | stopSession => exact stopSession_route _ _
  | beginSpeech => exact (beginSpeech_unmoved _ _ _).step
  | enqueueSpeech => exact (enqueueSpeech_unmoved _ _ _ _).step
  | finishSpeech => exact (finishSpeech_unmoved _ _).step
  | cancelSpeech => exact (cancelSpeech_unmoved _ _ _).step
  | resetInput => exact (resetInput_unmoved _).step
  | setDiagnostics requestId sessionId enabled =>
    refine Unmoved.step ?_
    unfold applyCommand setDiagnostics
    dsimp only
    split_ifs <;> exact ⟨rfl, rfl⟩
  | retryRoute => exact retryRoute_route _ _ hnew

/-! ## Observations -/

theorem modelsPrepared_unmoved (input output : Bool) : s.Unmoved (s.modelsPrepared input output) := by
  unfold modelsPrepared
  dsimp only
  split_ifs <;> exact ⟨rfl, rfl⟩

theorem modelsFailed_unmoved (input output : Bool) : s.Unmoved (s.modelsFailed input output) := by
  unfold modelsFailed
  split <;> exact ⟨rfl, rfl⟩

theorem captureArrived_unmoved (sessionId : SessionId) (generation : RouteGeneration) :
    s.Unmoved (s.captureArrived sessionId generation) := by
  unfold captureArrived
  split_ifs <;> exact ⟨rfl, rfl⟩

theorem echoChanged_unmoved (generation : RouteGeneration) (status : EchoStatus) :
    s.Unmoved (s.echoChanged generation status) := by
  unfold echoChanged
  split_ifs <;> exact ⟨rfl, rfl⟩

theorem vadStarted_unmoved (candidateId : CandidateId) (generation : RouteGeneration) (farEndActive : Bool)
    (echoStatus : EchoStatus) : s.Unmoved (s.vadStarted candidateId generation farEndActive echoStatus) := by
  unfold vadStarted
  split_ifs <;> exact ⟨rfl, rfl⟩

theorem recognizerPartial_unmoved (candidateId : CandidateId) (generation : RouteGeneration)
    (text : String) (farEndActive safe : Bool) :
    s.Unmoved (s.recognizerPartial platform candidateId generation text farEndActive safe) := by
  unfold recognizerPartial
  split
  · have hmarked := s.markUnsafe_unmoved farEndActive safe
    dsimp only
    generalize s.markUnsafe farEndActive safe = marked at hmarked ⊢
    generalize marked.candidate.any (fun candidate => candidate.partialText != text) = changed
    have hheard : marked.Unmoved
        (if changed then marked.setCandidate fun candidate => { candidate with partialText := text } else marked,
        if changed then [.emit (.inputPartial candidateId text)] else []) := by
      cases changed <;> exact ⟨rfl, rfl⟩
    generalize (if changed then marked.setCandidate fun candidate => { candidate with partialText := text }
      else marked) = heard at hheard ⊢
    split
    · exact (hmarked.after hheard).after (heard.confirmCandidate_unmoved platform candidateId)
    · exact hmarked.after hheard
  · exact unmoved_self

theorem recognizerFinal_unmoved (candidateId : CandidateId) (generation : RouteGeneration)
    (text : String) (farEndActive safe : Bool) :
    s.Unmoved (s.recognizerFinal platform candidateId generation text farEndActive safe) := by
  unfold recognizerFinal
  split
  · have hmarked := s.markUnsafe_unmoved farEndActive safe
    dsimp only
    split_ifs
    · exact hmarked.after (discardCandidate_unmoved _ .empty)
    · have hfinal : ∀ (before : VoiceState) (heard : String), before.Unmoved
          ({ before with candidate := none, utteranceStatus := .idle },
            [.emit (.inputFinal candidateId heard)]) := fun _ _ => ⟨rfl, rfl⟩
      have hconfirmed := hmarked.after (confirmCandidate_unmoved platform _ candidateId)
      exact (hconfirmed.after (publishCandidateSpeaker_unmoved platform _ candidateId)).after (hfinal _ _)
    · exact hmarked.after (discardCandidate_unmoved _ .unsafeEcho)
  · exact unmoved_self

theorem speakerEmbedding_unmoved (candidateId : CandidateId) (generation : RouteGeneration)
    (embedding : List ℚ) : s.Unmoved (s.speakerEmbedding platform candidateId generation embedding) := by
  unfold speakerEmbedding
  split
  · exact (s.setCandidate_unmoved _).after (publishCandidateSpeaker_unmoved platform _ candidateId)
  · exact unmoved_self

theorem noteCandidate_unmoved (candidateId : CandidateId) (generation : RouteGeneration)
    (change : CandidateState → CandidateState) : s.Unmoved (s.noteCandidate candidateId generation change) := by
  unfold noteCandidate
  split_ifs <;> exact ⟨rfl, rfl⟩

theorem candidateOverflow_unmoved (candidateId : CandidateId) (generation : RouteGeneration) :
    s.Unmoved (s.candidateOverflow candidateId generation) := by
  unfold candidateOverflow
  split
  · exact s.discardCandidate_unmoved .overflow
  · exact unmoved_self

theorem inputModelFailed_unmoved (candidateId : Option CandidateId) (generation : RouteGeneration) :
    s.Unmoved (s.inputModelFailed candidateId generation) := by
  unfold inputModelFailed
  split
  · exact s.discardCandidate_unmoved .modelFailed
  · exact unmoved_self

theorem playbackAudible_unmoved (turnId : TurnId) (generation : OutputGeneration) :
    s.Unmoved (s.playbackAudible turnId generation) := by
  unfold playbackAudible
  split
  · exact unmoved_self
  · split_ifs <;> exact ⟨rfl, rfl⟩

theorem synthesisStarted_unmoved (turnId : TurnId) (segmentIndex : ℕ) (generation : OutputGeneration) :
    s.Unmoved (s.synthesisStarted platform turnId segmentIndex generation) := by
  unfold synthesisStarted
  split <;> exact ⟨rfl, rfl⟩

theorem synthesisCompleted_unmoved (turnId : TurnId) (segmentIndex : ℕ) (generation : OutputGeneration) :
    s.Unmoved (s.synthesisCompleted turnId segmentIndex generation) := by
  unfold synthesisCompleted
  split <;> exact ⟨rfl, rfl⟩

theorem synthesisFailed_unmoved (turnId : TurnId) (generation : OutputGeneration) :
    s.Unmoved (s.synthesisFailed turnId generation) := by
  unfold synthesisFailed
  split
  · exact unmoved_self
  · exact s.failActiveTurn_unmoved

theorem playbackDrained_unmoved (turnId : TurnId) (generation : OutputGeneration) :
    s.Unmoved (s.playbackDrained turnId generation) := by
  unfold playbackDrained
  split
  · exact unmoved_self
  · split_ifs <;> exact ⟨rfl, rfl⟩

theorem fadeDrained_unmoved (turnId : TurnId) (generation : OutputGeneration) :
    s.Unmoved (s.fadeDrained turnId generation) := by
  unfold fadeDrained
  split <;> exact ⟨rfl, rfl⟩

theorem metricsUpdated_unmoved (generation : RouteGeneration) (metrics : RuntimeMetrics) :
    s.Unmoved (s.metricsUpdated generation metrics) := by
  unfold metricsUpdated
  split_ifs <;> exact ⟨rfl, rfl⟩

theorem diagnosticsTick_unmoved : s.Unmoved s.diagnosticsTick := by
  unfold diagnosticsTick
  split_ifs <;> exact ⟨rfl, rfl⟩

/-! ## Observations of the route -/

theorem current_iff {sessionId : SessionId} {generation : RouteGeneration} :
    s.current sessionId generation = true ↔ s.sessionId = some sessionId ∧ generation = s.routeGeneration := by
  simp [current]

theorem environmentActivated_route (sessionId : SessionId) (now : MonoTimeNs) :
    RouteStepOf s (.observation (.environmentActivated sessionId) now) (s.environmentActivated sessionId) := by
  unfold environmentActivated
  split
  · rename_i hsession
    exact .activated sessionId now hsession
  · exact unmoved_self.step

theorem routeOpened_route (sessionId : SessionId) (generation : RouteGeneration) (route : RouteSnapshot)
    (now : MonoTimeNs) : RouteStepOf s (.observation (.routeOpened sessionId generation route) now)
      (s.routeOpened sessionId generation route) := by
  unfold routeOpened
  split
  · rename_i hcurrent
    obtain ⟨hsession, rfl⟩ := current_iff.1 hcurrent
    exact .opened sessionId route now hsession
  · exact unmoved_self.step

theorem routeStarted_route (sessionId : SessionId) (generation : RouteGeneration) (now : MonoTimeNs) :
    RouteStepOf s (.observation (.routeStarted sessionId generation) now) (s.routeStarted sessionId generation) := by
  unfold routeStarted
  split
  · rename_i hcurrent
    obtain ⟨hsession, rfl⟩ := current_iff.1 hcurrent
    exact .steadied sessionId now hsession
  · exact unmoved_self.step

theorem routeRetryDue_route (generation : RouteGeneration) (attempt : ℕ) (now : MonoTimeNs) :
    RouteStepOf s (.observation (.routeRetryDue generation attempt) now) (s.routeRetryDue generation attempt) := by
  unfold routeRetryDue
  split
  · rename_i hdue
    obtain ⟨rfl, rfl, hrecovering⟩ := hdue
    split
    · exact unmoved_self.step
    · rename_i sessionId hsession
      exact .due sessionId now hsession hrecovering
  · exact unmoved_self.step

theorem scheduleRetry_cases (s : VoiceState) (now : MonoTimeNs) :
    (s.scheduleRetry now).1.routing = { s.routing with recovering := false } ∧ routeMoves (s.scheduleRetry now).2 = [] ∨
      (s.scheduleRetry now).1.routing = { s.routing with attempt := s.retryAttempt + 1 } ∧
        routeMoves (s.scheduleRetry now).2 = [.scheduled s.routeGeneration (s.retryAttempt + 1)] := by
  unfold scheduleRetry
  split
  · exact Or.inl ⟨rfl, rfl⟩
  · exact Or.inr ⟨rfl, rfl⟩

theorem handleRouteFault_route (hfault : input.isFault = true) (generation : RouteGeneration)
    (recoverable : Bool) (now : MonoTimeNs) :
    RouteStepOf s input (s.handleRouteFault generation recoverable now) := by
  rcases s.handleRouteFault_cases generation recoverable now with hsame | ⟨rfl, hopen, -, heq⟩
  · rw [hsame]
    exact unmoved_self.step
  · rw [heq]
    have hfirst : (s.afterFault recoverable).Unmoved (s.afterFault recoverable, s.faultActions recoverable) :=
      ⟨rfl, rfl⟩
    have hquiet := (hfirst.after (discardCandidate_unmoved _ .routeChanged)).after
      (cancelActiveTurn_unmoved _ .routeFault)
    dsimp only at hquiet ⊢
    generalize ((s.afterFault recoverable).discardCandidate .routeChanged).1.cancelActiveTurn .routeFault =
      cancelled at hquiet ⊢
    have hmoves := hquiet.moves
    have hrouting : cancelled.1.routing = (s.afterFault recoverable).routing := hquiet.routing
    dsimp only at hmoves
    rw [RouteStepOf, routeMoves_append, routeMoves_append, hmoves]
    cases recoverable with
    | false =>
      change RouteStep s input cancelled.1.routing _
      rw [hrouting]
      exact .abandoned input hfault hopen
    | true =>
      change RouteStep s input (cancelled.1.scheduleRetry now).1.routing
        ([.closed s.routeGeneration] ++ routeMoves (cancelled.1.scheduleRetry now).2)
      have hgeneration : cancelled.1.routeGeneration = s.routeGeneration + 1 := congrArg Routing.generation hrouting
      have hattempt : cancelled.1.retryAttempt = s.retryAttempt := congrArg Routing.attempt hrouting
      rcases cancelled.1.scheduleRetry_cases now with ⟨hlast, hnone⟩ | ⟨hnext, hscheduled⟩
      · rw [hlast, hnone, hrouting]
        exact .abandoned input hfault hopen
      · rw [hnext, hscheduled, hrouting, hgeneration, hattempt]
        exact .faulted input hfault hopen

theorem callbacksStalled_route (sessionId : SessionId) (generation : RouteGeneration) (now : MonoTimeNs) :
    RouteStepOf s (.observation (.callbacksStalled sessionId generation) now)
      (s.callbacksStalled sessionId generation now) := by
  unfold callbacksStalled
  split
  · exact handleRouteFault_route rfl generation true now
  · exact unmoved_self.step

theorem observe_route (observation : Observation) (now : MonoTimeNs) :
    RouteStepOf s (.observation observation now) (s.observe platform now observation) := by
  cases observation with
  | modelsPrepared => exact (modelsPrepared_unmoved _ _).step
  | modelsFailed => exact (modelsFailed_unmoved _ _).step
  | environmentActivated => exact environmentActivated_route _ now
  | routeOpened => exact routeOpened_route _ _ _ now
  | routeStarted => exact routeStarted_route _ _ now
  | captureArrived => exact (captureArrived_unmoved _ _).step
  | echoChanged => exact (echoChanged_unmoved _ _).step
  | vadStarted => exact (vadStarted_unmoved _ _ _ _).step
  | recognizerPartial => exact (recognizerPartial_unmoved _ _ _ _ _).step
  | recognizerFinal => exact (recognizerFinal_unmoved _ _ _ _ _).step
  | speakerEmbedding => exact (speakerEmbedding_unmoved _ _ _).step
  | nearEndEvidence => exact (noteCandidate_unmoved _ _ _).step
  | candidateAdaptationReady => exact (noteCandidate_unmoved _ _ _).step
  | candidateOverflow => exact (candidateOverflow_unmoved _ _).step
  | inputModelFailed => exact (inputModelFailed_unmoved _ _).step
  | playbackAudible => exact (playbackAudible_unmoved _ _).step
  | synthesisStarted => exact (synthesisStarted_unmoved _ _ _).step
  | synthesisCompleted => exact (synthesisCompleted_unmoved _ _ _).step
  | synthesisFailed => exact (synthesisFailed_unmoved _ _).step
  | playbackDrained => exact (playbackDrained_unmoved _ _).step
  | fadeDrained => exact (fadeDrained_unmoved _ _).step
  | routeFault => exact handleRouteFault_route rfl _ _ _
  | callbacksStalled => exact callbacksStalled_route _ _ now
  | metricsUpdated => exact (metricsUpdated_unmoved _ _).step
  | routeRetryDue => exact routeRetryDue_route _ _ now
  | diagnosticsTick => exact diagnosticsTick_unmoved.step

end VoiceState

theorem react_routeStep (platform : Platform) (s : VoiceState) (input : Input) :
    RouteStepOf s input (react platform s input) := by
  cases input with
  | command command =>
    rcases react_command platform s command with hsame | ⟨hnew, requests, happlied⟩
    · rw [hsame]
      exact VoiceState.unmoved_self.step
    · rw [happlied]
      exact s.applyCommand_route command hnew
  | observation observation now => exact s.observe_route observation now

end AvenOS.Voice
