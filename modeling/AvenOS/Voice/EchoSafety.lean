import AvenOS.Voice.TurnSteps

/-! # The assistant does not answer itself

A candidate is confirmed only if it cannot have been the assistant that was heard. The core marks a candidate
when it is told of output, or when a turn is active while it is told of the candidate; a turn that is active
only in between leaves no mark. -/
namespace AvenOS.Voice

/-! ## What must hold of a confirmation -/

/-- What is reported of the microphone. -/
structure Sample where
  candidateId : CandidateId
  farEndActive : Bool
  safe : Bool
deriving DecidableEq, Repr

def Input.sample : Input → Option Sample
  | .observation (.vadStarted candidateId _ farEndActive echoStatus) _ =>
    some ⟨candidateId, farEndActive, echoStatus == .converged⟩
  | .observation (.recognizerPartial candidateId _ _ farEndActive safe) _ =>
    some ⟨candidateId, farEndActive, safe⟩
  | .observation (.recognizerFinal candidateId _ _ farEndActive safe) _ =>
    some ⟨candidateId, farEndActive, safe⟩
  | _ => none

/-- At this moment the candidate may be the assistant: without full duplex because there is output, with
full duplex because it is reported while there is output, and the echo is not safe. -/
def exposed (s : VoiceState) (input : Input) (candidateId : CandidateId) : Bool :=
  if s.config.allowFullDuplexBargeIn then
    input.sample.any fun sample => sample.candidateId == candidateId &&
      s.outputTurnActive sample.farEndActive && !sample.safe
  else s.turn.isSome || input.sample.any Sample.farEndActive

def Hearing.isMarked (hearing : Hearing) : Bool := hearing.unsafeAtStart || hearing.unsafeSinceStart

/-- A candidate is confirmed after it has started, if it was not exposed at any moment since, and was never
marked. -/
def ConfirmedSafely (log : List Moment) : Prop :=
  ∀ before confirming after candidateId, log = before ++ confirming :: after →
    .confirmed candidateId ∈ utterances confirming.actions →
      ∃ earlier start between, before = earlier ++ start :: between ∧
        .started candidateId ∈ utterances start.actions ∧
        (∀ moment ∈ between, .started candidateId ∉ utterances moment.actions) ∧
        (∀ moment ∈ start :: between ++ [confirming],
          exposed moment.state moment.input candidateId = false) ∧
        ∀ moment ∈ between ++ [confirming], moment.state.hearing.any Hearing.isMarked = false

/-! ## Inputs that leave no mark -/

/-- A candidate that may still be confirmed. -/
def VoiceState.pending (s : VoiceState) : Bool :=
  s.hearing.any fun hearing => !hearing.confirmed && !hearing.isMarked

/-- The report is taken as one of the candidate. -/
def VoiceState.samples (s : VoiceState) : Input → Bool
  | .observation (.recognizerPartial candidateId generation _ _ _) _ => s.candidateMatches candidateId generation
  | .observation (.recognizerFinal candidateId generation _ _ _) _ => s.candidateMatches candidateId generation
  | _ => false

def endsTurn (platform : Platform) (s : VoiceState) (input : Input) : Bool :=
  s.turn.isSome &&
    match input with
    | .command (.beginSpeech _ _ _ _ _) => false
    | .observation (.playbackDrained turnId generation) _ =>
      (s.outputTurn turnId generation).any TurnState.finished
    | input => retiresTurn platform s input

/-- While a candidate may be confirmed, a turn ends that left no mark, or a report is not taken. -/
def missesExposure (platform : Platform) (s : VoiceState) (input : Input) : Bool :=
  s.pending &&
    if s.config.allowFullDuplexBargeIn then
      !s.samples input && s.hearing.any fun hearing => exposed s input hearing.id
    else endsTurn platform s input || !s.samples input && input.sample.any Sample.farEndActive

/-! ## Reports that are taken -/

namespace VoiceState
variable {platform : Platform} {s : VoiceState} {input : Input}

variable {candidateId : CandidateId} {generation : RouteGeneration} {text : String} {farEndActive safe : Bool}

theorem recognizerPartial_marks (hmatches : s.candidateMatches candidateId generation = true)
    (hrisky : s.farEndIntervalIsUnsafe farEndActive safe = true) :
    (s.recognizerPartial platform candidateId generation text farEndActive safe).1.hearing.all
      Hearing.isMarked = true := by
  obtain ⟨-, candidate, hcandidate, -, -⟩ := candidateMatches_iff.1 hmatches
  obtain ⟨after, hafter, hmarked, -, -⟩ := s.partial_heard hcandidate text farEndActive safe
  have hmark : after.hearing.isMarked = true := by
    rw [hmarked, hrisky]
    simp [Hearing.isMarked, Hearing.marked]
  unfold recognizerPartial
  rw [if_pos hmatches]
  dsimp only at hafter ⊢
  generalize (if (s.markUnsafe farEndActive safe).candidate.any (fun candidate => candidate.partialText != text) then
    (s.markUnsafe farEndActive safe).setCandidate (fun candidate => { candidate with partialText := text })
    else s.markUnsafe farEndActive safe) = heard at hafter ⊢
  have hheard : heard.hearing = some after.hearing := by rw [hearing, hafter]; rfl
  split
  · cases hconfirmed : after.confirmed with
    | true =>
      rw [confirmCandidate_confirmed hafter hconfirmed, hheard]
      exact hmark
    | false =>
      rw [(confirmCandidate_fresh hafter hconfirmed candidateId).1]
      exact hmark
  · rw [hheard]
    exact hmark

theorem recognizerFinal_gone (hmatches : s.candidateMatches candidateId generation = true) :
    (s.recognizerFinal platform candidateId generation text farEndActive safe).1.hearing = none := by
  unfold recognizerFinal
  rw [if_pos hmatches]
  dsimp only
  split_ifs
  · exact hearing_none.2 (discardCandidate_cases .empty).1
  · exact hearing_none.2 rfl
  · exact hearing_none.2 (discardCandidate_cases .unsafeEcho).1

theorem samples_mark (hsamples : s.samples input = true) {sample : Sample} (hsample : input.sample = some sample)
    (hrisky : s.farEndIntervalIsUnsafe sample.farEndActive sample.safe = true) :
    (react platform s input).1.pending = false := by
  cases input with
  | command => cases hsamples
  | observation observation now =>
    cases observation with
    | recognizerPartial candidateId generation text farEndActive safe =>
      cases hsample
      have hmark : (s.recognizerPartial platform candidateId generation text farEndActive
          safe).1.hearing.all Hearing.isMarked = true := recognizerPartial_marks hsamples hrisky
      change (s.recognizerPartial platform candidateId generation text farEndActive safe).1.pending = false
      unfold pending
      cases hhearing : (s.recognizerPartial platform candidateId generation text farEndActive safe).1.hearing with
      | none => rfl
      | some hearing =>
        rw [hhearing] at hmark
        have hmarked : hearing.isMarked = true := hmark
        simp [hmarked]
    | recognizerFinal candidateId generation text farEndActive safe =>
      change (s.recognizerFinal platform candidateId generation text farEndActive safe).1.pending = false
      rw [pending, recognizerFinal_gone hsamples]
      rfl
    | _ => cases hsamples

/-! ## Turns that end -/

theorem beginSpeech_turn {sessionId : SessionId} {language voice : String} (hturn : s.turn.isSome = true) :
    (s.beginSpeech platform sessionId language voice).state.turn.isSome = true := by
  unfold beginSpeech
  split_ifs
  · exact hturn
  · exact hturn
  · exact hturn
  · rfl

theorem playbackDrained_turn {turnId : TurnId} {generation : OutputGeneration}
    (hturn : s.turn.isSome = true) (hended : (s.playbackDrained turnId generation).1.turn = none) :
    (s.outputTurn turnId generation).any TurnState.finished = true := by
  unfold playbackDrained at hended
  split at hended
  · rw [hended] at hturn
    cases hturn
  · rename_i turn hsame
    split at hended
    · rename_i hfinished
      rw [hsame]
      exact hfinished
    · rw [hended] at hturn
      cases hturn

theorem turn_ends (hturn : s.turn.isSome = true) (hended : (react platform s input).1.turn = none) :
    endsTurn platform s input = true := by
  have hretires : (∃ mark, s.speaking = some mark) → retiresTurn platform s input = true ∨
      ∃ turnId generation now, input = .observation (.playbackDrained turnId generation) now := by
    rintro ⟨mark, hmark⟩
    have hstep := (react_turnStep platform s input).step
    have hnone : (react platform s input).1.speaking = none := Option.map_eq_none_iff.mpr hended
    rw [hnone] at hstep
    generalize (react platform s input).1.fading = fading at hstep
    generalize (react platform s input).1.ids = ids at hstep
    generalize plays (react platform s input).2 = events at hstep
    generalize fades (react platform s input).2 = faded at hstep
    generalize hgoal : (none : Option Mark) = speaking at hstep
    cases hstep with
    | still => rw [hmark] at hgoal; cases hgoal
    | spoken => rw [hmark] at hgoal; cases hgoal
    | retired _ _ _ hretires => exact .inl hretires
    | begun => cases hgoal
    | completed turnId generation now => exact .inr ⟨turnId, generation, now, rfl⟩
    | faded => rw [hmark] at hgoal; cases hgoal
  obtain ⟨turn, hsome⟩ := Option.isSome_iff_exists.mp hturn
  have hmark : s.speaking = some (turn.id, turn.generation) := by rw [speaking, hsome]; rfl
  rcases hretires ⟨_, hmark⟩ with hretires | ⟨turnId, generation, now, rfl⟩
  · unfold endsTurn
    rw [hturn, Bool.true_and]
    split
    · rename_i requestId sessionId clientTurnKey language voice hcommand
      rcases react_command platform s (.beginSpeech requestId sessionId clientTurnKey language voice) with
        hsame | ⟨-, requests, happlied⟩
      · rw [hsame] at hended
        rw [hended] at hturn
        cases hturn
      · rw [happlied] at hended
        have hkept : (s.beginSpeech platform sessionId language voice).state.turn.isSome = true :=
          beginSpeech_turn hturn
        change (s.beginSpeech platform sessionId language voice).state.turn = none at hended
        rw [hended] at hkept
        cases hkept
    · cases hretires
    · exact hretires
  · rw [endsTurn, hturn, Bool.true_and]
    exact playbackDrained_turn hturn hended

end VoiceState

/-! ## The candidate since it has started -/

section Steps
variable {platform : Platform} {s : VoiceState} {input : Input}

variable {hearing : Hearing} {farEndActive : Bool} {candidateId : CandidateId}

theorem unexposed_step (hhearing : s.hearing = some hearing) (hpending : s.pending = true)
    (hafter : (react platform s input).1.pending = true) (hmissed : missesExposure platform s input = false) :
    exposed s input hearing.id = false ∨ s.config.allowFullDuplexBargeIn = false ∧ s.turn.isSome = true ∧
        (react platform s input).1.turn.isSome = true := by
  rw [missesExposure, hpending, Bool.true_and] at hmissed
  have htaken : ∀ sample, input.sample = some sample →
      s.farEndIntervalIsUnsafe sample.farEndActive sample.safe = true → s.samples input = false := by
    intro sample hsample hrisky
    cases hsamples : s.samples input with
    | false => rfl
    | true =>
      rw [VoiceState.samples_mark hsamples hsample hrisky] at hafter
      cases hafter
  cases hduplex : s.config.allowFullDuplexBargeIn with
  | true =>
    left
    rw [hduplex, if_pos rfl, hhearing] at hmissed
    rw [exposed, if_pos hduplex]
    cases hsample : input.sample with
    | none => rfl
    | some sample =>
      cases hexposed : (sample.candidateId == hearing.id && s.outputTurnActive sample.farEndActive && !sample.safe) with
      | false => exact hexposed
      | true =>
        have hrisky : s.farEndIntervalIsUnsafe sample.farEndActive sample.safe = true := by
          rw [VoiceState.farEndIntervalIsUnsafe, hduplex]
          simp only [Bool.and_eq_true] at hexposed
          simp [hexposed.1.2, hexposed.2]
        simp [exposed, hduplex, hsample, hexposed, htaken sample hsample hrisky] at hmissed
  | false =>
    rw [hduplex, if_neg Bool.false_ne_true, Bool.or_eq_false_iff] at hmissed
    cases hturn : s.turn.isSome with
    | true =>
      right
      refine ⟨rfl, rfl, ?_⟩
      cases hended : (react platform s input).1.turn with
      | some turn => rfl
      | none =>
        rw [VoiceState.turn_ends hturn hended] at hmissed
        exact absurd hmissed.1 nofun
    | false =>
      left
      rw [exposed, hduplex, if_neg Bool.false_ne_true, hturn, Bool.false_or]
      cases hsample : input.sample with
      | none => rfl
      | some sample =>
        cases hfar : sample.farEndActive with
        | false => exact hfar
        | true =>
          have hrisky : s.farEndIntervalIsUnsafe sample.farEndActive sample.safe = true := by
            rw [VoiceState.farEndIntervalIsUnsafe, hduplex]
            simp [VoiceState.outputTurnActive, hfar]
          have huntaken := htaken sample hsample hrisky
          rw [huntaken, hsample] at hmissed
          exact absurd (hfar.symm.trans hmissed.2) nofun

theorem clear_unexposed {marked : Hearing} {safe : Bool}
    (hmarked : marked = hearing.marked (s.farEndIntervalIsUnsafe farEndActive safe))
    (hclear : s.Clear marked farEndActive safe) (hsample : input.sample = some ⟨candidateId, farEndActive, safe⟩) :
    hearing.isMarked = false ∧ exposed s input candidateId = false ∧
      (s.config.allowFullDuplexBargeIn = false → s.turn.isSome = false) := by
  have hstart : hearing.unsafeAtStart = false := by
    have hsame := hclear.start
    rw [hmarked] at hsame
    exact hsame
  have hsince := hclear.since
  rw [hmarked, Hearing.marked, Bool.or_eq_false_iff] at hsince
  refine ⟨by rw [Hearing.isMarked, hstart, hsince.1]; rfl, ?_⟩
  cases hduplex : s.config.allowFullDuplexBargeIn with
  | true =>
    refine ⟨?_, nofun⟩
    rw [exposed, if_pos hduplex, hsample]
    cases hactive : s.outputTurnActive farEndActive with
    | false => simp [hactive]
    | true => simp [(hclear.echo hactive).2]
  | false =>
    have hsilent : s.outputTurnActive farEndActive = false := by
      by_contra hactive
      have hecho := (hclear.echo (Bool.not_eq_false _ ▸ hactive)).1
      rw [hduplex] at hecho
      cases hecho
    obtain ⟨hturn, hfar⟩ := Bool.or_eq_false_iff.mp hsilent
    refine ⟨?_, fun _ => hturn⟩
    rw [exposed, hduplex, if_neg Bool.false_ne_true, hturn, hsample]
    exact hfar

theorem started_unexposed {generation : RouteGeneration} {echoStatus : EchoStatus} {now : MonoTimeNs}
    (hsafe : s.farEndIntervalIsUnsafe farEndActive (echoStatus == .converged) = false) :
    exposed s (.observation (.vadStarted candidateId generation farEndActive echoStatus) now) candidateId =
      false := by
  unfold VoiceState.farEndIntervalIsUnsafe at hsafe
  unfold exposed
  cases hduplex : s.config.allowFullDuplexBargeIn with
  | true =>
    rw [hduplex] at hsafe
    simpa [Input.sample] using hsafe
  | false =>
    rw [hduplex] at hsafe
    simpa [Input.sample, VoiceState.outputTurnActive] using hsafe

end Steps

/-- A candidate that may be confirmed has started, and has not been exposed since, unless by the turn that is
active. -/
def Watched (session : Session) : Prop :=
  ∀ hearing, session.state.hearing = some hearing → session.state.pending = true →
    ∃ earlier start between, session.log = earlier ++ start :: between ∧
      .started hearing.id ∈ utterances start.actions ∧
      (∀ moment ∈ between, .started hearing.id ∉ utterances moment.actions ∧
        moment.state.hearing.any Hearing.isMarked = false) ∧
      ((∀ moment ∈ start :: between, exposed moment.state moment.input hearing.id = false) ∨
        session.state.config.allowFullDuplexBargeIn = false ∧ session.state.turn.isSome = true)

section Watched
variable {platform : Platform} {session : Session} {input : Input}

variable {hearing : Hearing} {candidateId : CandidateId}

theorem pending_iff {s : VoiceState} (hhearing : s.hearing = some hearing) :
    s.pending = true ↔ hearing.confirmed = false ∧ hearing.isMarked = false := by
  simp [VoiceState.pending, hhearing]

theorem watched_goes_on (h : Watched session) {heard : Hearing} (hhearing : session.state.hearing = some hearing)
    (hid : heard.id = hearing.id) (hpending : session.state.pending = true)
    (hafter : (react platform session.state input).1.pending = true)
    (hsilent : .started hearing.id ∉ utterances (react platform session.state input).2)
    (hmissed : missesExposure platform session.state input = false) :
    ∃ earlier start between, (session.next platform input).log = earlier ++ start :: between ∧
      .started heard.id ∈ utterances start.actions ∧
      (∀ moment ∈ between, .started heard.id ∉ utterances moment.actions ∧
        moment.state.hearing.any Hearing.isMarked = false) ∧
      ((∀ moment ∈ start :: between, exposed moment.state moment.input heard.id = false) ∨
        (session.next platform input).state.config.allowFullDuplexBargeIn = false ∧
          (session.next platform input).state.turn.isSome = true) := by
  obtain ⟨earlier, start, between, hlog, hstarted, hbetween, hexposed⟩ := h hearing hhearing hpending
  have hconfig : (session.next platform input).state.config = session.state.config :=
    (react_turnStep platform session.state input).config
  refine ⟨earlier, start, between ++ [⟨session.state, input, (react platform session.state input).2⟩],
    by rw [Session.next, hlog]; simp, by rw [hid]; exact hstarted, fun moment hmoment => ?_, ?_⟩
  · rcases List.mem_append.mp hmoment with hold | hnew
    · rw [hid]
      exact hbetween moment hold
    · rw [List.mem_singleton.mp hnew, hid]
      exact ⟨hsilent, by rw [hhearing]; exact ((pending_iff hhearing).mp hpending).2⟩
  · have hnow := unexposed_step hhearing hpending hafter hmissed
    rw [hconfig, hid]
    rcases hnow with hclean | ⟨hduplex, -, hturn⟩
    · rcases hexposed with hclear | ⟨hduplex, hturn⟩
      · left
        intro moment hmoment
        rw [← List.cons_append] at hmoment
        rcases List.mem_append.mp hmoment with hold | hnew
        · exact hclear moment hold
        · rw [List.mem_singleton.mp hnew]
          exact hclean
      · rw [exposed, hduplex, if_neg Bool.false_ne_true, hturn] at hclean
        cases hclean
    · exact .inr ⟨hduplex, hturn⟩

theorem remarks_not_started {events : List Utterance} (h : Remarks candidateId events) :
    .started candidateId ∉ events := by
  intro hmem
  rcases h _ hmem with hevent | hevent <;> cases hevent

theorem watched_step (h : Watched session) (hmissed : missesExposure platform session.state input = false) :
    Watched (session.next platform input) := by
  intro heard hheard hafter
  have hstep := react_candidateStep platform session.state input
  rw [Session.next_state] at hheard hafter
  rw [hheard] at hstep
  have hclean := (pending_iff hheard).mp hafter
  generalize hevents : utterances (react platform session.state input).2 = events at hstep
  have hgoes : ∀ hearing, session.state.hearing = some hearing → heard.id = hearing.id →
      hearing.confirmed = false → hearing.isMarked = false → .started hearing.id ∉ events → _ :=
    fun hearing hhearing hid hconfirmed hmarked hsilent =>
      watched_goes_on h hhearing hid ((pending_iff hhearing).mpr ⟨hconfirmed, hmarked⟩) hafter
        (by rw [hevents]; exact hsilent) hmissed
  generalize hgoal : some heard = after at hstep
  cases hstep with
  | kept => exact hgoes heard hgoal.symm rfl hclean.1 hclean.2 nofun
  | remarked _ hearing _ hhearing hremarks =>
    cases hgoal
    exact hgoes heard hhearing rfl hclean.1 hclean.2 (remarks_not_started hremarks)
  | started candidateId farEndActive echoStatus now hnone isUnsafe hrisky =>
    cases hgoal
    have hsafe : isUnsafe = false := (Bool.or_eq_false_iff.mp hclean.2).1
    refine ⟨session.log, _, [], rfl, ?_, fun _ hmoment => (by cases hmoment), .inl fun moment hmoment => ?_⟩
    · dsimp only
      rw [hevents]
      exact List.mem_singleton_self _
    · rw [List.mem_singleton.mp hmoment]
      exact started_unexposed (hrisky ▸ hsafe)
  | heard hearing text farEndActive safe now _ hhearing _ hremarks =>
    cases hgoal
    obtain ⟨hstart, hsince⟩ := Bool.or_eq_false_iff.mp hclean.2
    refine hgoes hearing hhearing rfl hclean.1 ?_ (remarks_not_started hremarks)
    exact Bool.or_eq_false_iff.mpr ⟨hstart, (Bool.or_eq_false_iff.mp hsince).1⟩
  | confirmed =>
    cases hgoal
    exact absurd hclean.1 nofun
  | _ => cases hgoal

/-- The candidate has started, and was neither exposed nor marked since. -/
def SafeSince (log : List Moment) (candidateId : CandidateId) : Prop :=
  ∃ earlier start between, log = earlier ++ start :: between ∧
    .started candidateId ∈ utterances start.actions ∧
    (∀ moment ∈ between, .started candidateId ∉ utterances moment.actions ∧
      moment.state.hearing.any Hearing.isMarked = false) ∧
    ∀ moment ∈ start :: between, exposed moment.state moment.input candidateId = false

theorem clear_watched (h : Watched session) {marked : Hearing} {farEndActive safe : Bool}
    (hhearing : session.state.hearing = some hearing)
    (hmarked : marked = hearing.marked (session.state.farEndIntervalIsUnsafe farEndActive safe))
    (hfresh : hearing.confirmed = false) (hclear : session.state.Clear marked farEndActive safe)
    (hsample : input.sample = some ⟨hearing.id, farEndActive, safe⟩) :
    SafeSince session.log hearing.id ∧ exposed session.state input hearing.id = false ∧
      session.state.hearing.any Hearing.isMarked = false := by
  obtain ⟨hunmarked, hunexposed, hsilent⟩ := clear_unexposed hmarked hclear hsample
  obtain ⟨earlier, start, between, hlog, hstarted, hbetween, hexposed⟩ :=
    h hearing hhearing ((pending_iff hhearing).mpr ⟨hfresh, hunmarked⟩)
  have hclean := hexposed.resolve_right fun ⟨hduplex, hturn⟩ => by
    rw [hsilent hduplex] at hturn
    cases hturn
  exact ⟨⟨earlier, start, between, hlog, hstarted, hbetween, hclean⟩, hunexposed, by rw [hhearing]; exact hunmarked⟩

theorem confirmed_step (h : Watched session) (htester : session.state.config.allowTesterAdaptingBargeIn = false)
    (hconfirmed : .confirmed candidateId ∈ utterances (react platform session.state input).2) :
    SafeSince session.log candidateId ∧ exposed session.state input candidateId = false ∧
      session.state.hearing.any Hearing.isMarked = false := by
  have hstep := react_candidateStep platform session.state input
  generalize utterances (react platform session.state input).2 = events at hstep hconfirmed
  generalize (react platform session.state input).1.hearing = after at hstep
  have hremark : ∀ {other : CandidateId} {remarks : List Utterance}, Remarks other remarks →
      .confirmed candidateId ∉ remarks := by
    intro other remarks hremarks hmem
    rcases hremarks _ hmem with hevent | hevent <;> cases hevent
  cases hstep with
  | kept => cases hconfirmed
  | remarked _ _ _ _ hremarks => exact absurd hconfirmed (hremark hremarks)
  | started => cases List.mem_singleton.mp hconfirmed
  | heard _ _ _ _ _ _ _ _ hremarks => exact absurd hconfirmed (hremark hremarks)
  | confirmed hearing marked _ farEndActive safe _ _ _ hhearing hmarked _ hfresh hclear hbefore hafter =>
    have hid : candidateId = hearing.id := by
      rcases List.mem_append.mp hconfirmed with hmem | hmem
      · exact absurd hmem (hremark hbefore)
      · rcases List.mem_cons.mp hmem with hevent | hmem
        · exact Utterance.confirmed.inj hevent
        · exact absurd hmem (hremark hafter)
    rw [hid]
    exact clear_watched h hhearing hmarked hfresh (hclear htester) rfl
  | finished _ _ _ _ _ _ _ _ hremarks =>
    rcases List.mem_append.mp hconfirmed with hmem | hmem
    · exact absurd hmem (hremark hremarks)
    · cases List.mem_singleton.mp hmem
  | confirmedFinished hearing marked _ farEndActive safe _ _ hhearing hmarked _ hfresh hclear hremarks =>
    have hid : candidateId = hearing.id := by
      rcases List.mem_append.mp hconfirmed with hmem | hmem
      · rcases List.mem_cons.mp hmem with hevent | hmem
        · exact Utterance.confirmed.inj hevent
        · exact absurd hmem (hremark hremarks)
      · cases List.mem_singleton.mp hmem
    rw [hid]
    exact clear_watched h hhearing hmarked hfresh (hclear htester) rfl
  | discarded => cases List.mem_singleton.mp hconfirmed
  | stopped =>
    rcases List.mem_append.mp hconfirmed with hmem | hmem
    · obtain ⟨_, -, hevent⟩ := List.mem_map.mp hmem
      cases hevent
    · cases List.mem_singleton.mp hmem
  | replaced =>
    obtain ⟨_, -, hevent⟩ := List.mem_map.mp hconfirmed
    cases hevent

end Watched

/-! ## Runs -/

theorem reaches_watched {platform : Platform} {session : Session}
    (h : Reaches platform (fun session input => missesExposure platform session.state input = false)
      session) : Watched session := by
  induction h with
  | new => exact fun _ hheard => by cases hheard
  | next session input _ hmissed ih => exact watched_step ih hmissed

/-- Without the testers' exception, and as long as no exposure is missed, a candidate is confirmed only if it
was not exposed since it started, and was never marked. -/
theorem confirmed_safely {platform : Platform} {session : Session}
    (h : Reaches platform (fun session input => missesExposure platform session.state input = false) session)
    (htester : session.state.config.allowTesterAdaptingBargeIn = false) : ConfirmedSafely session.log := by
  induction h with
  | new =>
    intro before confirming after candidateId hlog
    simp [Session.new] at hlog
  | next session input hreaches hmissed ih =>
    have hconfig : (session.next platform input).state.config = session.state.config :=
      (react_turnStep platform session.state input).config
    rw [hconfig] at htester
    intro before confirming after candidateId hlog hconfirmed
    rcases List.eq_nil_or_concat after with rfl | ⟨rest, last, rfl⟩
    · obtain ⟨hbefore, hmoment⟩ := List.append_inj' hlog rfl
      cases hmoment
      obtain ⟨⟨earlier, start, between, hsplit, hstarted, hbetween, hclean⟩, hunexposed, hunmarked⟩ :=
        confirmed_step (reaches_watched hreaches) htester hconfirmed
      refine ⟨earlier, start, between, hbefore ▸ hsplit, hstarted,
        fun moment hmoment => (hbetween moment hmoment).1, fun moment hmoment => ?_,
        fun moment hmoment => ?_⟩
      · rcases List.mem_append.mp hmoment with hold | hnew
        · exact hclean moment hold
        · rw [List.mem_singleton.mp hnew]
          exact hunexposed
      · rcases List.mem_append.mp hmoment with hold | hnew
        · exact (hbetween moment hold).2
        · rw [List.mem_singleton.mp hnew]
          exact hunmarked
    · have hsplit : before ++ confirming :: (rest ++ [last]) = (before ++ confirming :: rest) ++ [last] := by
        simp
      rw [List.concat_eq_append, hsplit] at hlog
      obtain ⟨hbefore, -⟩ := List.append_inj' hlog rfl
      exact ih htester before confirming rest candidateId hbefore hconfirmed

/-- No barge-in while the assistant speaks. -/
def halfDuplex : VoiceConfig := { VoiceConfig.default with allowFullDuplexBargeIn := false }

/-- A candidate that starts while nothing speaks, and what happens before it is heard. -/
def listeningInputs (meanwhile : List Input) : List Input :=
  [.observation (.modelsPrepared true true) 0, .command (.startSession "r1" none none),
    .observation (.routeStarted "boot-s-1" 1) 1,
    .observation (.vadStarted "c1" 1 false .bypassed) 2] ++ meanwhile ++
    [.observation (.recognizerPartial "c1" 1 "hello" false false) 3]

theorem confirmed_safely_heard : ConfirmedSafely
    ((Session.new "boot" halfDuplex).run plainPlatform (listeningInputs [])).log :=
  confirmed_safely ((Reaches.new "boot" halfDuplex).run _ (by decide +kernel)) (by decide +kernel)

/-- A turn that starts and ends before the next report of the candidate leaves no mark. -/
def unnoticedTurn : List Input :=
  [.command (.beginSpeech "r2" "boot-s-1" none "en" "v"),
    .command (.cancelSpeech "r3" "boot-s-1" none .manual)]

theorem ConfirmedSafely.check {log : List Moment} (h : ConfirmedSafely log) {n : ℕ} {candidateId : CandidateId}
    (hconfirmed : ((log.drop n).head?.any fun moment =>
      (utterances moment.actions).contains (.confirmed candidateId)) = true) :
    ∃ m < n, ((log.drop m).head?.any fun moment =>
        (utterances moment.actions).contains (.started candidateId)) = true ∧
      ((log.drop m).take (n - m)).all (fun moment => !exposed moment.state moment.input candidateId) =
        true := by
  cases hdrop : log.drop n with
  | nil =>
    rw [hdrop] at hconfirmed
    cases hconfirmed
  | cons confirming after =>
    rw [hdrop] at hconfirmed
    have hlog : log = log.take n ++ confirming :: after := by rw [← hdrop, List.take_append_drop]
    obtain ⟨earlier, start, between, hbefore, hstarted, -, hclean, -⟩ :=
      h _ confirming after candidateId hlog (by simpa using hconfirmed)
    have hlength : earlier.length + (between.length + 1) = n := by
      have hcount := congrArg List.length hbefore
      have hshort : n < log.length := by
        by_contra hlong
        rw [List.drop_eq_nil_of_le (by omega)] at hdrop
        cases hdrop
      simp only [List.length_take, List.length_append, List.length_cons] at hcount
      omega
    have hrest : log.drop earlier.length = start :: between ++ confirming :: after := by
      rw [hlog, hbefore, List.append_assoc, List.drop_left]
    refine ⟨earlier.length, by omega, ?_, ?_⟩
    · rw [hrest]
      simpa using hstarted
    · have htake : n - earlier.length = (start :: between).length := by
        rw [List.length_cons]
        omega
      rw [hrest, htake, List.take_left, List.all_eq_true]
      intro moment hmoment
      rw [hclean moment (List.mem_append_left _ hmoment)]
      rfl

theorem unnoticed_turn_confirmed : ¬ ∀ platform session, Reachable platform session →
    session.state.config.allowTesterAdaptingBargeIn = false → ConfirmedSafely session.log := by
  intro h
  have hreachable : Reachable plainPlatform
      ((Session.new "boot" halfDuplex).run plainPlatform (listeningInputs unnoticedTurn)) :=
    (Reaches.new "boot" halfDuplex).run _ (by decide +kernel)
  have hsafely := h plainPlatform _ hreachable (by decide +kernel)
  have hconfirmed : ((((Session.new "boot" halfDuplex).run plainPlatform
      (listeningInputs unnoticedTurn)).log.drop 6).head?.any fun moment =>
        (utterances moment.actions).contains (.confirmed "c1")) = true := by decide +kernel
  exact absurd (hsafely.check hconfirmed) (by decide +kernel)

end AvenOS.Voice
