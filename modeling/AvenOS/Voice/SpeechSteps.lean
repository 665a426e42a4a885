import AvenOS.Voice.Turns

/-! # What a step does to the speech of a turn

The segments of a turn are handed to the synthesizer one after another, until the turn is finished or cut
off. A step lets the speech be, adds a segment, finishes it, counts a segment as started, cuts it off, or
begins another turn. -/
namespace AvenOS.Voice

/-! ## Speech -/

/-- What the synthesizer is told about a turn. -/
inductive Voiced
  | segment (index : ℕ) (text : String)
  | finish
  | cut
deriving DecidableEq, Repr

def Action.voiced : Action → Option (TurnId × Voiced)
  | .enqueueTts turnId segmentIndex text _ _ _ => some (turnId, .segment segmentIndex text)
  | .finishTts turnId => some (turnId, .finish)
  | .cancelTts turnId => some (turnId, .cut)
  | _ => none

def speech (actions : List Action) : List (TurnId × Voiced) := actions.filterMap Action.voiced

@[simp] theorem speech_nil : speech [] = [] := rfl

@[simp] theorem speech_append (actions more : List Action) :
    speech (actions ++ more) = speech actions ++ speech more := List.filterMap_append

/-- The turn that speaks, as far as its speech goes. -/
structure Line where
  turnId : TurnId
  segments : List String
  startedSegments : ℕ
  finished : Bool
deriving DecidableEq

def TurnState.line (turn : TurnState) : Line :=
  ⟨turn.id, turn.segments, turn.startedSegments, turn.finished⟩

def Line.pending (line : Line) : ℕ := line.segments.length - line.startedSegments

namespace VoiceState
variable (s : VoiceState)

def line : Option Line := s.turn.map TurnState.line

/-- Nothing is said, and the turn stays as it is. -/
structure Mute (result : VoiceState × List Action) : Prop where
  line : result.1.line = s.line
  speech : speech result.2 = []
  ids : s.ids.Before result.1.ids
  config : result.1.config = s.config

structure Cut (result : VoiceState × List Action) : Prop where
  line : result.1.line = none
  speech : speech result.2 = s.line.toList.map fun line => (line.turnId, .cut)
  ids : s.ids.Before result.1.ids
  config : result.1.config = s.config

end VoiceState

inductive SpeechStep (s : VoiceState) : Input → Option Line → IdGenerator → List (TurnId × Voiced) → Prop
  | mute (input : Input) (ids : IdGenerator) (hids : s.ids.Before ids) :
    SpeechStep s input s.line ids []
  | cut (input : Input) (ids : IdGenerator) (hids : s.ids.Before ids) :
    SpeechStep s input none ids (s.line.toList.map fun line => (line.turnId, .cut))
  | begun (input : Input) :
    SpeechStep s input (some ⟨s.ids.value "t", [], 0, false⟩) s.ids.advance
      (s.line.toList.map fun line => (line.turnId, .cut))
  | queued (requestId : RequestId) (sessionId : SessionId) (text : String) (line : Line)
      (hline : s.line = some line) (hopen : line.finished = false)
      (hroom : line.pending ≠ s.config.maxQueuedSegments)
      (hnew : s.requests.find
        (.enqueueSpeech requestId sessionId line.turnId line.segments.length text) = none) :
    SpeechStep s (.command (.enqueueSpeech requestId sessionId line.turnId line.segments.length text))
      (some { line with segments := line.segments ++ [text] }) s.ids
      [(line.turnId, .segment line.segments.length text)]
  | finished (input : Input) (line : Line) (hline : s.line = some line) (hopen : line.finished = false) :
    SpeechStep s input (some { line with finished := true }) s.ids [(line.turnId, .finish)]
  | started (turnId : TurnId) (generation : OutputGeneration) (now : MonoTimeNs) (line : Line)
      (hline : s.line = some line) (houtput : s.outputTurn turnId generation ≠ none) :
    SpeechStep s (.observation (.synthesisStarted turnId line.startedSegments generation) now)
      (some { line with startedSegments := line.startedSegments + 1 }) s.ids []
  | completed (input : Input) (line : Line) (hline : s.line = some line) :
    SpeechStep s input none s.ids []

structure SpeechStepOf (s : VoiceState) (input : Input) (result : VoiceState × List Action) : Prop where
  step : SpeechStep s input result.1.line result.1.ids (speech result.2)
  config : result.1.config = s.config

/-! ## Helpers -/

namespace VoiceState
variable {platform : Platform} {s : VoiceState} {input : Input} {result : VoiceState × List Action}

theorem mute_self : s.Mute (s, []) := ⟨rfl, rfl, .refl _, rfl⟩

variable {middle : VoiceState × List Action} {turnId : TurnId} {turn : TurnState}

theorem Mute.after {result : VoiceState × List Action} (h : s.Mute middle) (hquiet : middle.1.Mute result) :
    s.Mute (result.1, middle.2 ++ result.2) where
  line := hquiet.line.trans h.line
  speech := by rw [speech_append, h.speech, hquiet.speech]; rfl
  ids := h.ids.trans hquiet.ids
  config := hquiet.config.trans h.config

theorem Cut.after {result : VoiceState × List Action} (h : s.Cut middle) (hquiet : middle.1.Mute result) :
    s.Cut (result.1, middle.2 ++ result.2) where
  line := hquiet.line.trans h.line
  speech := by rw [speech_append, h.speech, hquiet.speech, List.append_nil]
  ids := h.ids.trans hquiet.ids
  config := hquiet.config.trans h.config

theorem Mute.cut {result : VoiceState × List Action} (h : s.Mute middle) (hcut : middle.1.Cut result) :
    s.Cut (result.1, middle.2 ++ result.2) where
  line := hcut.line
  speech := by rw [speech_append, h.speech, hcut.speech, h.line]; rfl
  ids := h.ids.trans hcut.ids
  config := hcut.config.trans h.config

theorem Mute.step (h : s.Mute result) : SpeechStepOf s input result := by
  refine ⟨?_, h.config⟩
  rw [h.line, h.speech]
  exact .mute input _ h.ids

theorem Cut.step (h : s.Cut result) : SpeechStepOf s input result := by
  refine ⟨?_, h.config⟩
  rw [h.line, h.speech]
  exact .cut input _ h.ids

theorem cancelActiveTurn_cut (s : VoiceState) (reason : SpeechCancelReason) : s.Cut (s.cancelActiveTurn reason) := by
  unfold cancelActiveTurn
  cases hturn : s.turn with
  | none => exact ⟨by rw [line, hturn]; rfl, by rw [line, hturn]; rfl, .refl _, rfl⟩
  | some turn => exact ⟨rfl, by rw [line, hturn]; rfl, .refl _, rfl⟩

theorem failActiveTurn_cut (s : VoiceState) : s.Cut s.failActiveTurn := by
  unfold failActiveTurn
  cases hturn : s.turn with
  | none => exact ⟨by rw [line, hturn]; rfl, by rw [line, hturn]; rfl, .refl _, rfl⟩
  | some turn => exact ⟨rfl, by rw [line, hturn]; rfl, .refl _, rfl⟩

theorem discardCandidate_mute (s : VoiceState) (reason : InputDiscardReason) : s.Mute (s.discardCandidate reason) := by
  unfold discardCandidate
  split <;> exact ⟨rfl, rfl, .refl _, rfl⟩

theorem publishCandidateSpeaker_mute (platform : Platform) (s : VoiceState) (candidateId : CandidateId) :
    s.Mute (s.publishCandidateSpeaker platform candidateId) := by
  unfold publishCandidateSpeaker
  split
  · exact mute_self
  · split_ifs
    · split
      · exact mute_self
      · dsimp only
        split <;> exact ⟨rfl, rfl, .refl _, rfl⟩
    · exact mute_self

theorem retryIf_mute (s : VoiceState) (recoverable : Bool) (now : MonoTimeNs) : s.Mute (s.retryIf recoverable now) := by
  cases recoverable
  · exact mute_self
  · show s.Mute (s.scheduleRetry now)
    unfold scheduleRetry
    split <;> exact ⟨rfl, rfl, .refl _, rfl⟩

theorem markUnsafe_mute (s : VoiceState) (farEndActive safe : Bool) : s.Mute (s.markUnsafe farEndActive safe, []) := by
  unfold markUnsafe
  split <;> exact ⟨rfl, rfl, .refl _, rfl⟩

theorem confirmCandidate_speech (platform : Platform) (s : VoiceState) (candidateId : CandidateId) :
    s.Mute (s.confirmCandidate platform candidateId) ∨ s.Cut (s.confirmCandidate platform candidateId) := by
  unfold confirmCandidate
  split
  · exact Or.inl mute_self
  · right
    dsimp only
    generalize hfirst : ({ s.setCandidate fun candidate => { candidate with confirmed := true } with
      utteranceStatus := .confirmed } : VoiceState) = confirmed
    have hsame : s.Mute (confirmed, []) := by rw [← hfirst]; exact ⟨rfl, rfl, .refl _, rfl⟩
    have hcut := hsame.cut (confirmed.cancelActiveTurn_cut .bargeIn)
    generalize confirmed.cancelActiveTurn .bargeIn = cancelled at hcut ⊢
    have hsaid : ∀ bargeIn, cancelled.1.Mute
        (cancelled.1, [.emit (.inputConfirmed candidateId bargeIn)]) := fun _ => ⟨rfl, rfl, .refl _, rfl⟩
    exact (hcut.after (hsaid _)).after (cancelled.1.publishCandidateSpeaker_mute platform candidateId)

theorem handleRouteFault_speech (s : VoiceState) (generation : RouteGeneration) (recoverable : Bool)
    (now : MonoTimeNs) : s.Mute (s.handleRouteFault generation recoverable now) ∨
      s.Cut (s.handleRouteFault generation recoverable now) := by
  rcases s.handleRouteFault_cases generation recoverable now with hsame | ⟨-, -, -, hfault⟩
  · rw [hsame]
    exact Or.inl mute_self
  · right
    rw [hfault]
    have hfaulted : s.Mute (s.afterFault recoverable, s.faultActions recoverable) := ⟨rfl, rfl, .refl _, rfl⟩
    have hclosed : ∀ before : VoiceState, before.Mute (before, [.closeRoute generation]) :=
      fun _ => ⟨rfl, rfl, .refl _, rfl⟩
    have hdiscarded := hfaulted.after (discardCandidate_mute _ .routeChanged)
    have hcancelled := hdiscarded.cut (cancelActiveTurn_cut _ .routeFault)
    exact (hcancelled.after (hclosed _)).after (retryIf_mute _ recoverable now)

/-! ## Observations -/

theorem recognizerPartial_speech (candidateId : CandidateId) (generation : RouteGeneration) (text : String)
    (farEndActive safe : Bool) :
    s.Mute (s.recognizerPartial platform candidateId generation text farEndActive safe) ∨
      s.Cut (s.recognizerPartial platform candidateId generation text farEndActive safe) := by
  unfold recognizerPartial
  split
  · dsimp only
    have hmarked := s.markUnsafe_mute farEndActive safe
    generalize s.markUnsafe farEndActive safe = marked at hmarked ⊢
    have hheard : ∀ changed : Bool, s.Mute
        (if changed then marked.setCandidate fun candidate => { candidate with partialText := text } else marked,
          if changed then [Action.emit (.inputPartial candidateId text)] else []) := by
      intro changed
      cases changed
      · exact hmarked
      · exact ⟨hmarked.line, rfl, hmarked.ids, hmarked.config⟩
    generalize (marked.candidate.any fun candidate => candidate.partialText != text) = changed
    have hheard := hheard changed
    generalize (if changed then marked.setCandidate fun candidate => { candidate with partialText := text }
      else marked) = heard at hheard ⊢
    generalize (if changed then [Action.emit (.inputPartial candidateId text)] else []) = shown at hheard ⊢
    split
    · rcases heard.confirmCandidate_speech platform candidateId with hquiet | hcut
      · exact Or.inl (hheard.after hquiet)
      · exact Or.inr (hheard.cut hcut)
    · exact Or.inl hheard
  · exact Or.inl mute_self

theorem recognizerFinal_speech (candidateId : CandidateId) (generation : RouteGeneration) (text : String)
    (farEndActive safe : Bool) :
    s.Mute (s.recognizerFinal platform candidateId generation text farEndActive safe) ∨
      s.Cut (s.recognizerFinal platform candidateId generation text farEndActive safe) := by
  unfold recognizerFinal
  split
  · dsimp only
    have hmarked := s.markUnsafe_mute farEndActive safe
    generalize s.markUnsafe farEndActive safe = marked at hmarked ⊢
    split_ifs
    · exact Or.inl (hmarked.after (marked.discardCandidate_mute .empty))
    · have hlast : ∀ before : VoiceState, before.Mute ({ before with candidate := none, utteranceStatus := .idle },
            [.emit (.inputFinal candidateId (trim platform (platform.nfkc text)))]) :=
        fun _ => ⟨rfl, rfl, .refl _, rfl⟩
      rcases marked.confirmCandidate_speech platform candidateId with hquiet | hcut
      · exact Or.inl (((hmarked.after hquiet).after (publishCandidateSpeaker_mute platform _ candidateId)).after
          (hlast _))
      · exact Or.inr (((hmarked.cut hcut).after (publishCandidateSpeaker_mute platform _ candidateId)).after (hlast _))
    · exact Or.inl (hmarked.after (marked.discardCandidate_mute .unsafeEcho))
  · exact Or.inl mute_self

theorem speakerEmbedding_mute (candidateId : CandidateId) (generation : RouteGeneration)
    (embedding : List ℚ) : s.Mute (s.speakerEmbedding platform candidateId generation embedding) := by
  unfold speakerEmbedding
  split
  · have hset : s.Mute (s.setCandidate fun candidate =>
        { candidate with speakerEmbedding := some embedding }, []) := ⟨rfl, rfl, .refl _, rfl⟩
    exact hset.after (publishCandidateSpeaker_mute platform _ candidateId)
  · exact mute_self

theorem noteCandidate_mute (candidateId : CandidateId) (generation : RouteGeneration)
    (change : CandidateState → CandidateState) : s.Mute (s.noteCandidate candidateId generation change) := by
  unfold noteCandidate
  split <;> exact ⟨rfl, rfl, .refl _, rfl⟩

theorem outputTurn_turn {generation : OutputGeneration} (h : s.outputTurn turnId generation = some turn) :
    s.turn = some turn :=
  (Option.filter_eq_some_iff.mp h).1

theorem playbackAudible_mute (turnId : TurnId) (generation : OutputGeneration) :
    s.Mute (s.playbackAudible turnId generation) := by
  unfold playbackAudible
  split
  · exact mute_self
  · rename_i turn hturn
    split_ifs
    · exact mute_self
    · exact ⟨by rw [line, line, outputTurn_turn hturn]; rfl, rfl, .refl _, rfl⟩

theorem synthesisStarted_speech (turnId : TurnId) (segmentIndex : ℕ) (generation : OutputGeneration)
    (now : MonoTimeNs) : SpeechStepOf s (.observation (.synthesisStarted turnId segmentIndex generation) now)
      (s.synthesisStarted platform turnId segmentIndex generation) := by
  unfold synthesisStarted
  split
  · exact mute_self.step
  · rename_i turn hturn
    have hline : s.line = some turn.line := by rw [line, outputTurn_turn hturn]; rfl
    dsimp only
    split
    · rename_i hindex
      rw [← hindex]
      refine ⟨?_, rfl⟩
      exact SpeechStep.started turnId generation now turn.line hline (by rw [hturn]; exact nofun)
    · exact Mute.step ⟨by rw [hline]; rfl, rfl, .refl _, rfl⟩

theorem playbackDrained_speech (turnId : TurnId) (generation : OutputGeneration) :
    SpeechStepOf s input (s.playbackDrained turnId generation) := by
  unfold playbackDrained
  split
  · exact mute_self.step
  · rename_i turn hturn
    split_ifs
    · exact ⟨.completed input turn.line (by rw [line, outputTurn_turn hturn]; rfl), rfl⟩
    · exact mute_self.step

theorem orStep (h : s.Mute result ∨ s.Cut result) : SpeechStepOf s input result := h.elim Mute.step Cut.step

theorem callbacksStalled_speech (sessionId : SessionId) (generation : RouteGeneration) (now : MonoTimeNs) :
    s.Mute (s.callbacksStalled sessionId generation now) ∨ s.Cut (s.callbacksStalled sessionId generation now) := by
  unfold callbacksStalled
  split
  · have hraised : ∀ error, s.Mute (s, [.emit (.errorRaised error)]) := fun _ => ⟨rfl, rfl, .refl _, rfl⟩
    exact (s.handleRouteFault_speech generation true now).imp (hraised _).after (hraised _).cut
  · exact Or.inl mute_self

theorem observe_speech (observation : Observation) (now : MonoTimeNs) :
    SpeechStepOf s (.observation observation now) (s.observe platform now observation) := by
  cases observation with
  | recognizerPartial => exact orStep (recognizerPartial_speech _ _ _ _ _)
  | recognizerFinal => exact orStep (recognizerFinal_speech _ _ _ _ _)
  | speakerEmbedding => exact (speakerEmbedding_mute _ _ _).step
  | nearEndEvidence => exact (noteCandidate_mute _ _ _).step
  | candidateAdaptationReady => exact (noteCandidate_mute _ _ _).step
  | playbackAudible => exact (playbackAudible_mute _ _).step
  | synthesisStarted => exact synthesisStarted_speech _ _ _ now
  | playbackDrained => exact playbackDrained_speech _ _
  | routeFault => exact orStep (s.handleRouteFault_speech _ _ now)
  | callbacksStalled => exact orStep (callbacksStalled_speech _ _ now)
  | synthesisFailed turnId generation =>
    simp only [observe, synthesisFailed]
    split
    · exact mute_self.step
    · exact s.failActiveTurn_cut.step
  | candidateOverflow =>
    simp only [observe, candidateOverflow]
    split_ifs
    · exact (s.discardCandidate_mute _).step
    · exact mute_self.step
  | inputModelFailed =>
    simp only [observe, inputModelFailed]
    split_ifs
    · exact (s.discardCandidate_mute _).step
    · exact mute_self.step
  | modelsPrepared =>
    refine Mute.step ?_
    simp only [observe, modelsPrepared]
    split_ifs <;> exact ⟨rfl, rfl, .refl _, rfl⟩
  | modelsFailed =>
    refine Mute.step ?_
    simp only [observe, modelsFailed]
    split_ifs <;> exact ⟨rfl, rfl, .refl _, rfl⟩
  | environmentActivated =>
    refine Mute.step ?_
    simp only [observe, environmentActivated]
    split_ifs <;> exact ⟨rfl, rfl, .refl _, rfl⟩
  | routeOpened =>
    refine Mute.step ?_
    simp only [observe, routeOpened]
    split_ifs <;> exact ⟨rfl, rfl, .refl _, rfl⟩
  | routeStarted =>
    refine Mute.step ?_
    simp only [observe, routeStarted]
    split_ifs <;> exact ⟨rfl, rfl, .refl _, rfl⟩
  | captureArrived =>
    refine Mute.step ?_
    simp only [observe, captureArrived]
    split_ifs <;> exact ⟨rfl, rfl, .refl _, rfl⟩
  | echoChanged =>
    refine Mute.step ?_
    simp only [observe, echoChanged]
    split_ifs <;> exact ⟨rfl, rfl, .refl _, rfl⟩
  | vadStarted =>
    refine Mute.step ?_
    simp only [observe, vadStarted]
    split_ifs <;> exact ⟨rfl, rfl, .refl _, rfl⟩
  | synthesisCompleted =>
    refine Mute.step ?_
    simp only [observe, synthesisCompleted]
    split <;> exact ⟨rfl, rfl, .refl _, rfl⟩
  | fadeDrained =>
    refine Mute.step ?_
    simp only [observe, fadeDrained]
    split <;> exact ⟨rfl, rfl, .refl _, rfl⟩
  | metricsUpdated =>
    refine Mute.step ?_
    simp only [observe, metricsUpdated]
    split_ifs <;> exact ⟨rfl, rfl, .refl _, rfl⟩
  | routeRetryDue =>
    refine Mute.step ?_
    simp only [observe, routeRetryDue]
    split_ifs
    · split <;> exact ⟨rfl, rfl, .refl _, rfl⟩
    · exact mute_self
  | diagnosticsTick =>
    refine Mute.step ?_
    simp only [observe, diagnosticsTick]
    split_ifs <;> exact ⟨rfl, rfl, .refl _, rfl⟩

/-! ## Commands -/

theorem activeTurn_turn (h : s.activeTurn turnId = some turn) : s.turn = some turn ∧ turn.id = turnId := by
  obtain ⟨hturn, hid⟩ := Option.filter_eq_some_iff.mp h
  exact ⟨hturn, of_decide_eq_true hid⟩

theorem enqueueSpeech_cases (platform : Platform) (s : VoiceState) (sessionId : SessionId) (turnId : TurnId)
    (segmentIndex : ℕ) (text : String) :
    (∃ error, s.enqueueSpeech platform sessionId turnId segmentIndex text = ⟨.error error, s, []⟩) ∨
      ∃ turn, s.turn = some turn ∧ turn.id = turnId ∧ turn.finished = false ∧
        (turn.segments[segmentIndex]? = some text ∧ s.enqueueSpeech platform sessionId turnId segmentIndex text =
              ⟨.ok (.enqueued true (s.config.maxQueuedSegments - turn.line.pending)), s, []⟩ ∨
          segmentIndex = turn.segments.length ∧ turn.line.pending ≠ s.config.maxQueuedSegments ∧
            s.enqueueSpeech platform sessionId turnId segmentIndex text =
              ⟨.ok (.enqueued false (s.config.maxQueuedSegments - (turn.line.pending + 1))),
                { s with turn := some { turn with segments := turn.segments ++ [text] } },
                [.enqueueTts turnId segmentIndex text turn.language turn.voice turn.generation,
                  .emit (.playbackSegmentAccepted turnId segmentIndex),
                  s.capacityChanged platform (turn.line.pending + 1)]⟩) := by
  unfold enqueueSpeech
  split
  · exact Or.inl ⟨_, rfl⟩
  · split
    · exact Or.inl ⟨_, rfl⟩
    · rename_i turn hactive
      obtain ⟨hturn, hid⟩ := activeTurn_turn hactive
      dsimp only
      split_ifs with hfinished htext hold hsame hgap hfull
      · exact Or.inl ⟨_, rfl⟩
      · exact Or.inl ⟨_, rfl⟩
      · exact Or.inr ⟨turn, hturn, hid, Bool.not_eq_true _ ▸ hfinished, Or.inl ⟨hsame, rfl⟩⟩
      · exact Or.inl ⟨_, rfl⟩
      · exact Or.inl ⟨_, rfl⟩
      · exact Or.inl ⟨_, rfl⟩
      · exact Or.inr ⟨turn, hturn, hid, Bool.not_eq_true _ ▸ hfinished, Or.inr ⟨not_not.mp hgap, hfull, rfl⟩⟩

theorem enqueueSpeech_speech (requestId : RequestId) (sessionId : SessionId) (turnId : TurnId)
    (segmentIndex : ℕ) (text : String)
    (hnew : s.requests.find (.enqueueSpeech requestId sessionId turnId segmentIndex text) = none) :
    SpeechStepOf s (.command (.enqueueSpeech requestId sessionId turnId segmentIndex text))
      (s.enqueueSpeech platform sessionId turnId segmentIndex text).done := by
  rcases enqueueSpeech_cases platform s sessionId turnId segmentIndex text with
    ⟨error, hrejected⟩ | ⟨turn, hturn, rfl, hopen, ⟨-, hagain⟩ | ⟨rfl, hroom, hqueued⟩⟩
  · rw [hrejected]
    exact mute_self.step
  · rw [hagain]
    exact mute_self.step
  · rw [hqueued]
    refine ⟨?_, rfl⟩
    exact SpeechStep.queued requestId sessionId text turn.line (by rw [line, hturn]; rfl) hopen hroom hnew

theorem finishSpeech_speech (sessionId : SessionId) (turnId : TurnId) :
    SpeechStepOf s input (s.finishSpeech sessionId turnId).done := by
  unfold finishSpeech
  split
  · exact mute_self.step
  · split
    · split_ifs <;> exact mute_self.step
    · rename_i turn hactive
      obtain ⟨hturn, rfl⟩ := activeTurn_turn hactive
      split_ifs with hfinished
      · exact mute_self.step
      · exact ⟨SpeechStep.finished input turn.line (by rw [line, hturn]; rfl) (Bool.not_eq_true _ ▸ hfinished), rfl⟩

theorem beginSpeech_speech (sessionId : SessionId) (language voice : String) :
    SpeechStepOf s input (s.beginSpeech platform sessionId language voice).done := by
  unfold beginSpeech
  split_ifs
  · exact mute_self.step
  · exact mute_self.step
  · exact mute_self.step
  · have hcut := s.cancelActiveTurn_cut .superseded
    have hids : (s.cancelActiveTurn .superseded).1.ids = s.ids := by
      unfold cancelActiveTurn
      split <;> rfl
    dsimp only [Reply.done]
    rw [hids]
    generalize s.cancelActiveTurn .superseded = cancelled at hcut ⊢
    refine ⟨?_, hcut.config⟩
    rw [speech_append, hcut.speech]
    exact (List.append_nil _).symm ▸ SpeechStep.begun input

theorem cancelSpeech_speech (sessionId : SessionId) (turnId : Option TurnId) (reason : SpeechCancelReason) :
    s.Mute (s.cancelSpeech sessionId turnId reason).done ∨ s.Cut (s.cancelSpeech sessionId turnId reason).done := by
  unfold cancelSpeech
  split
  · split_ifs <;> exact Or.inl mute_self
  · split
    · exact Or.inr (s.cancelActiveTurn_cut reason)
    · split_ifs
      · exact Or.inr (s.cancelActiveTurn_cut reason)
      · exact Or.inl mute_self
      · exact Or.inl mute_self

theorem stopSession_speech (sessionId : SessionId) :
    s.Mute (s.stopSession sessionId).done ∨ s.Cut (s.stopSession sessionId).done := by
  unfold stopSession
  split
  · split_ifs <;> exact Or.inl mute_self
  · have hcut := (s.cancelActiveTurn_cut .sessionStopped).after (discardCandidate_mute _ .reset)
    have hstopped : ∀ before : VoiceState, before.Mute ({ before with
            speakerClusters := .default
            sessionId := none
            lastSessionId := some sessionId
            sessionStatus := .closed
            captureStatus := .closed
            echoStatus := .bypassed
            metrics := .default
            route := none },
          [.closeRoute s.routeGeneration, .stopSession sessionId, .emit (.statusSession .closed)]) :=
      fun _ => ⟨rfl, rfl, .refl _, rfl⟩
    exact Or.inr (hcut.after (hstopped _))

theorem startSession_speech (preferredInput preferredOutput : Option String) :
    s.Mute (s.startSession preferredInput preferredOutput).done ∨
      s.Cut (s.startSession preferredInput preferredOutput).done := by
  unfold startSession
  split
  · exact Or.inl mute_self
  · have hstarted : ∀ before : VoiceState, before.Mute ({ before with
            ids := before.ids.advance
            sessionId := some (before.ids.value "s")
            sessionStatus := .opening
            captureStatus := .starting
            routeGeneration := s.routeGeneration + 1
            candidate := none
            speakerClusters := .default
            utteranceStatus := .idle
            echoStatus := .bypassed
            metrics := .default
            route := none
            retryAttempt := 0
            preferredInput := preferredInput
            preferredOutput := preferredOutput },
          [.emit (.statusSession .opening), .activateEnvironment (before.ids.value "s")]) :=
      fun before => ⟨rfl, rfl, before.ids.before_advance, rfl⟩
    unfold supersede
    split
    · exact Or.inl (mute_self.after (hstarted s))
    · rename_i old hold
      have hleft : s.Mute ({ s with sessionId := none, lastSessionId := some old }, []) := ⟨rfl, rfl, .refl _, rfl⟩
      have hclosed : ∀ before : VoiceState, before.Mute (before, [.closeRoute s.routeGeneration, .stopSession old]) :=
        fun _ => ⟨rfl, rfl, .refl _, rfl⟩
      exact Or.inr (((hleft.cut (cancelActiveTurn_cut _ .superseded)).after (hclosed _)).after (hstarted _))

theorem resetInput_mute (sessionId : SessionId) : s.Mute (s.resetInput sessionId).done := by
  unfold resetInput
  split
  · exact mute_self
  · have hreset : ∀ before : VoiceState, before.Mute ({ before with speakerClusters := .default }, [.resetInput]) :=
      fun _ => ⟨rfl, rfl, .refl _, rfl⟩
    exact (s.discardCandidate_mute .reset).after (hreset _)

theorem applyCommand_speech (command : Command) (hnew : s.requests.find command = none) :
    SpeechStepOf s (.command command) (s.applyCommand platform command).done := by
  cases command with
  | prepare => exact Mute.step ⟨rfl, rfl, .refl _, rfl⟩
  | startSession => exact orStep (startSession_speech _ _)
  | stopSession => exact orStep (stopSession_speech _)
  | beginSpeech => exact beginSpeech_speech _ _ _
  | enqueueSpeech => exact enqueueSpeech_speech _ _ _ _ _ hnew
  | finishSpeech => exact finishSpeech_speech _ _
  | cancelSpeech => exact orStep (cancelSpeech_speech _ _ _)
  | resetInput => exact (resetInput_mute _).step
  | setDiagnostics requestId sessionId enabled =>
    refine Mute.step ?_
    unfold applyCommand setDiagnostics
    dsimp only
    split_ifs <;> exact ⟨rfl, rfl, .refl _, rfl⟩
  | retryRoute requestId sessionId =>
    refine Mute.step ?_
    unfold applyCommand retryRoute
    dsimp only
    split_ifs <;> exact ⟨rfl, rfl, .refl _, rfl⟩

end VoiceState

theorem react_speechStep (platform : Platform) (s : VoiceState) (input : Input) :
    SpeechStepOf s input (react platform s input) := by
  cases input with
  | command command =>
    rcases react_command platform s command with hsame | ⟨hnew, requests, happlied⟩
    · rw [hsame]
      exact VoiceState.mute_self.step
    · rw [happlied]
      have happly : SpeechStepOf s (.command command) (s.applyCommand platform command).done :=
        s.applyCommand_speech command hnew
      exact ⟨happly.step, happly.config⟩
  | observation observation now => exact s.observe_speech observation now

end AvenOS.Voice
