import AvenOS.Voice.Coordinator

/-! # Observations that come too late

An observation names what it is about: a session, a route, a candidate, or the output of a turn. One that
names something else than what is current does nothing, and a run goes on as if it had not been made. -/
namespace AvenOS.Voice

/-! ## What an observation names -/

namespace Observation

def session : Observation → Option SessionId
  | .environmentActivated sessionId => some sessionId
  | .routeOpened sessionId _ _ => some sessionId
  | .routeStarted sessionId _ => some sessionId
  | .captureArrived sessionId _ => some sessionId
  | .callbacksStalled sessionId _ => some sessionId
  | _ => none

def route : Observation → Option RouteGeneration
  | .routeOpened _ generation _ => some generation
  | .routeStarted _ generation => some generation
  | .captureArrived _ generation => some generation
  | .echoChanged generation _ => some generation
  | .vadStarted _ generation _ _ => some generation
  | .recognizerPartial _ generation _ _ _ => some generation
  | .recognizerFinal _ generation _ _ _ => some generation
  | .speakerEmbedding _ generation _ => some generation
  | .nearEndEvidence _ generation => some generation
  | .candidateAdaptationReady _ generation => some generation
  | .candidateOverflow _ generation => some generation
  | .inputModelFailed _ generation => some generation
  | .routeFault generation _ => some generation
  | .callbacksStalled _ generation => some generation
  | .metricsUpdated generation _ => some generation
  | .routeRetryDue generation _ => some generation
  | _ => none

def candidate : Observation → Option CandidateId
  | .vadStarted candidateId _ _ _ => some candidateId
  | .recognizerPartial candidateId _ _ _ _ => some candidateId
  | .recognizerFinal candidateId _ _ _ _ => some candidateId
  | .speakerEmbedding candidateId _ _ => some candidateId
  | .nearEndEvidence candidateId _ => some candidateId
  | .candidateAdaptationReady candidateId _ => some candidateId
  | .candidateOverflow candidateId _ => some candidateId
  | .inputModelFailed candidateId _ => candidateId
  | _ => none

def output : Observation → Option (TurnId × OutputGeneration)
  | .playbackAudible turnId generation => some (turnId, generation)
  | .synthesisStarted turnId _ generation => some (turnId, generation)
  | .synthesisCompleted turnId _ generation => some (turnId, generation)
  | .synthesisFailed turnId generation => some (turnId, generation)
  | .playbackDrained turnId generation => some (turnId, generation)
  | .fadeDrained turnId generation => some (turnId, generation)
  | _ => none

end Observation

namespace VoiceState
variable {platform : Platform} {s : VoiceState} {observation : Observation} {now : MonoTimeNs}

def stale (s : VoiceState) (observation : Observation) : Bool :=
  (observation.session.any fun sessionId => s.sessionId != some sessionId) ||
    (observation.route.any fun generation => generation != s.routeGeneration) ||
    (observation.candidate.any fun candidateId =>
      s.candidate.map CandidateState.id != some candidateId) ||
    observation.output.any fun mark =>
      (s.turn.map fun turn => (turn.id, turn.generation)) != some mark &&
        (s.retiringTurn.map fun turn => (turn.id, turn.generation)) != some mark

/-- Speech starts on the current route, and there is no candidate yet. -/
def starts (s : VoiceState) : Observation → Bool
  | .vadStarted _ generation _ _ => generation == s.routeGeneration && s.candidate.isNone
  | _ => false

/-! ## Nothing happens -/

theorem observe_otherSession {sessionId : SessionId} (hnamed : observation.session = some sessionId)
    (hother : s.sessionId ≠ some sessionId) : s.observe platform now observation = (s, []) := by
  have hcurrent : ∀ generation, s.current sessionId generation = false := by
    intro generation
    rw [current, beq_false_of_ne hother, Bool.false_and]
  cases observation <;> cases hnamed
  · exact if_neg hother
  · exact if_neg (by rw [hcurrent]; exact Bool.false_ne_true)
  · exact if_neg (by rw [hcurrent]; exact Bool.false_ne_true)
  · exact if_neg (by rw [hcurrent]; exact Bool.false_ne_true)
  · exact if_neg (by rw [hcurrent]; exact Bool.false_ne_true)

variable {candidateId : CandidateId} {generation : RouteGeneration}

theorem candidateMatches_otherRoute
    (hother : generation ≠ s.routeGeneration) : s.candidateMatches candidateId generation = false := by
  rw [candidateMatches, beq_false_of_ne hother, Bool.false_and]

theorem candidateMatches_other (hother : s.candidate.map CandidateState.id ≠ some candidateId) :
    s.candidateMatches candidateId generation = false := by
  unfold candidateMatches
  cases hcandidate : s.candidate with
  | none => exact Bool.and_false _
  | some candidate =>
    have hne : candidate.id ≠ candidateId := by
      intro heq
      exact hother (by rw [hcandidate, ← heq]; rfl)
    simp [hne]

theorem observe_otherRoute (hnamed : observation.route = some generation)
    (hother : generation ≠ s.routeGeneration) : s.observe platform now observation = (s, []) := by
  have hcurrent : ∀ sessionId, ¬s.current sessionId generation = true := by
    intro sessionId
    rw [current, beq_false_of_ne hother, Bool.and_false]
    exact Bool.false_ne_true
  have hmatches : ∀ candidateId, ¬s.candidateMatches candidateId generation = true := by
    intro candidateId
    rw [candidateMatches_otherRoute hother]
    exact Bool.false_ne_true
  cases observation <;> cases hnamed
  case routeOpened => exact if_neg (hcurrent _)
  case routeStarted => exact if_neg (hcurrent _)
  case captureArrived => exact if_neg fun h => hcurrent _ (Bool.and_eq_true_iff.mp h).1
  case echoChanged => exact if_neg fun h => hother h.1
  case vadStarted => exact if_neg fun h => hother h.1
  case recognizerPartial => exact if_neg (hmatches _)
  case recognizerFinal => exact if_neg (hmatches _)
  case speakerEmbedding => exact if_neg fun h => hmatches _ (Bool.and_eq_true_iff.mp h).1
  case nearEndEvidence => exact if_neg (hmatches _)
  case candidateAdaptationReady => exact if_neg (hmatches _)
  case candidateOverflow => exact if_neg (hmatches _)
  case inputModelFailed => exact if_neg fun h => hother h.1
  case routeFault => exact if_pos (.inl hother)
  case callbacksStalled => exact if_neg (hcurrent _)
  case metricsUpdated => exact if_neg hother
  case routeRetryDue => exact if_neg fun h => hother h.1

theorem observe_otherCandidate (hnamed : observation.candidate = some candidateId)
    (hother : s.candidate.map CandidateState.id ≠ some candidateId)
    (hstarts : s.starts observation = false) : s.observe platform now observation = (s, []) := by
  have hmatches : ∀ generation, ¬s.candidateMatches candidateId generation = true := by
    intro generation
    rw [candidateMatches_other hother]
    exact Bool.false_ne_true
  cases observation <;> cases hnamed
  case vadStarted generation _ _ =>
    refine if_neg fun h => ?_
    rw [starts, h.2, Bool.and_true, beq_eq_false_iff_ne] at hstarts
    exact hstarts h.1
  case recognizerPartial => exact if_neg (hmatches _)
  case recognizerFinal => exact if_neg (hmatches _)
  case speakerEmbedding => exact if_neg fun h => hmatches _ (Bool.and_eq_true_iff.mp h).1
  case nearEndEvidence => exact if_neg (hmatches _)
  case candidateAdaptationReady => exact if_neg (hmatches _)
  case candidateOverflow => exact if_neg (hmatches _)
  case inputModelFailed => exact if_neg fun h => hmatches _ h.2

theorem outputTurn_other {turnId : TurnId} {generation : OutputGeneration}
    (hother : (s.turn.map fun turn => (turn.id, turn.generation)) ≠ some (turnId, generation)) :
    s.outputTurn turnId generation = none := by
  unfold outputTurn
  rw [Option.filter_eq_none_iff]
  intro turn hturn hmark
  obtain ⟨rfl, rfl⟩ := of_decide_eq_true hmark
  exact hother (by rw [hturn]; rfl)

theorem observe_otherOutput {mark : TurnId × OutputGeneration} (hnamed : observation.output = some mark)
    (hactive : (s.turn.map fun turn => (turn.id, turn.generation)) ≠ some mark)
    (hretiring : (s.retiringTurn.map fun turn => (turn.id, turn.generation)) ≠ some mark) :
    s.observe platform now observation = (s, []) := by
  cases observation <;> cases hnamed
  case playbackAudible => simp [observe, playbackAudible, outputTurn_other hactive]
  case synthesisStarted => simp [observe, synthesisStarted, outputTurn_other hactive]
  case synthesisCompleted => simp [observe, synthesisCompleted, outputTurn_other hactive]
  case synthesisFailed => simp [observe, synthesisFailed, outputTurn_other hactive]
  case playbackDrained => simp [observe, playbackDrained, outputTurn_other hactive]
  case fadeDrained turnId generation =>
    have hnone : (s.retiringTurn.filter fun turn => turn.id = turnId ∧ turn.generation = generation) = none := by
      rw [Option.filter_eq_none_iff]
      intro turn hturn hmark
      obtain ⟨rfl, rfl⟩ := of_decide_eq_true hmark
      exact hretiring (by rw [hturn]; rfl)
    show s.fadeDrained turnId generation = (s, [])
    rw [fadeDrained, hnone]

theorem observe_stale (hstale : s.stale observation = true) (hstarts : s.starts observation = false) :
    s.observe platform now observation = (s, []) := by
  simp only [stale, Bool.or_eq_true, Option.any_eq_true, Bool.and_eq_true, bne_iff_ne] at hstale
  obtain ((⟨_, hnamed, hother⟩ | ⟨_, hnamed, hother⟩) | ⟨_, hnamed, hother⟩) | ⟨_, hnamed, hactive, hretiring⟩ := hstale
  · exact observe_otherSession hnamed hother
  · exact observe_otherRoute hnamed hother
  · exact observe_otherCandidate hnamed hother hstarts
  · exact observe_otherOutput hnamed hactive hretiring

end VoiceState

/-! ## Runs without what is stale -/

def VoiceState.late (s : VoiceState) : Input → Bool
  | .command _ => false
  | .observation observation _ => s.stale observation && !s.starts observation

/-- The inputs that do not come too late, each when it comes. -/
def VoiceState.heard (platform : Platform) : VoiceState → List Input → List Input
  | _, [] => []
  | s, input :: inputs =>
    if s.late input then s.heard platform inputs
    else input :: (react platform s input).1.heard platform inputs

theorem react_late {platform : Platform} {s : VoiceState} {input : Input} (hlate : s.late input = true) :
    react platform s input = (s, []) := by
  cases input with
  | command => cases hlate
  | observation observation now =>
    obtain ⟨hstale, hstarts⟩ := Bool.and_eq_true_iff.mp hlate
    exact VoiceState.observe_stale hstale ((Bool.not_eq_true' _).mp hstarts)

theorem run_heard (platform : Platform) (inputs : List Input) (session other : Session)
    (hstate : session.state = other.state) (hactions : session.actions = other.actions) :
    (session.run platform inputs).state = (other.run platform (session.state.heard platform inputs)).state ∧
      (session.run platform inputs).actions = (other.run platform (session.state.heard platform inputs)).actions := by
  induction inputs generalizing session other with
  | nil => exact ⟨hstate, hactions⟩
  | cons input inputs ih =>
    rw [VoiceState.heard]
    by_cases hlate : session.state.late input = true
    · have hsame : (session.next platform input).state = session.state := by
        rw [Session.next_state, react_late hlate]
      have hquiet : (session.next platform input).actions = session.actions := by
        rw [Session.next_actions, react_late hlate, List.append_nil]
      have hrest := ih (session.next platform input) other (hsame.trans hstate) (hquiet.trans hactions)
      rw [hsame] at hrest
      rw [if_pos hlate]
      exact hrest
    · have hnext : (session.next platform input).state = (other.next platform input).state := by
        rw [Session.next_state, Session.next_state, hstate]
      have hdone : (session.next platform input).actions = (other.next platform input).actions := by
        rw [Session.next_actions, Session.next_actions, hactions, hstate]
      rw [if_neg hlate]
      exact ih _ _ hnext hdone

/-- A stale observation does nothing unless it starts a candidate where there is none, and a run goes on as
if the stale observations had not been made. -/
theorem stale_inert (platform : Platform) (session : Session) :
    (∀ observation now, session.state.stale observation = true → session.state.starts observation = false →
        session.state.observe platform now observation = (session.state, [])) ∧
      ∀ inputs, (session.run platform inputs).state =
          (session.run platform (session.state.heard platform inputs)).state ∧
        (session.run platform inputs).actions =
          (session.run platform (session.state.heard platform inputs)).actions :=
  ⟨fun _ _ hstale hstarts => VoiceState.observe_stale hstale hstarts,
    fun inputs => run_heard platform inputs session session rfl rfl⟩

/-! ## A candidate that starts -/

def startedInputs : List Input :=
  [.observation (.modelsPrepared true true) 0, .command (.startSession "r1" none none),
    .observation (.routeStarted "boot-s-1" 1) 1]

def startedSession : Session := (Session.new "boot" .default).run plainPlatform startedInputs

theorem reachable_started : Reachable plainPlatform startedSession :=
  (Reaches.new "boot" .default).run _ (by decide +kernel)

/-- Speech that starts names a candidate which is not current, and makes it so. -/
theorem vad_starts_candidate : ¬ ∀ platform session, Reachable platform session →
    ∀ observation now, session.state.stale observation = true →
      session.state.observe platform now observation = (session.state, []) := by
  intro h
  have hinert := h plainPlatform startedSession reachable_started (.vadStarted "c1" 1 false .bypassed) 2
    (by decide +kernel)
  exact absurd (congrArg (fun result => result.2.length) hinert) (by decide +kernel)

end AvenOS.Voice
