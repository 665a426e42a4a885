import AvenOS.Voice.Candidates

/-! # Every input takes a candidate step -/
namespace AvenOS.Voice

namespace VoiceState
variable {platform : Platform} {s : VoiceState}

/-! ## What is heard of a candidate -/

variable {candidateId : CandidateId} {candidate : CandidateState}

theorem candidateMatches_iff {generation : RouteGeneration} : s.candidateMatches candidateId generation = true ↔
      generation = s.routeGeneration ∧ ∃ candidate, s.candidate = some candidate ∧
        candidate.id = candidateId ∧ candidate.generation = generation := by
  unfold candidateMatches
  cases s.candidate <;> simp

theorem hearing_none : s.hearing = none ↔ s.candidate = none := Option.map_eq_none_iff

theorem setCandidate_candidate (h : s.candidate = some candidate) (change : CandidateState → CandidateState) :
    (s.setCandidate change).candidate = some (change candidate) := by
  rw [setCandidate, h]
  rfl

theorem markUnsafe_eq (farEndActive safe : Bool) :
    s.markUnsafe farEndActive safe = s.setCandidate fun candidate => { candidate with
        unsafeSinceStart := candidate.unsafeSinceStart || s.farEndIntervalIsUnsafe farEndActive safe } := by
  unfold markUnsafe
  cases s.farEndIntervalIsUnsafe farEndActive safe
  · simp [setCandidate]
  · simp

theorem candidateCanConfirm_clear {text : String} {farEndActive safe : Bool} (hcandidate : s.candidate = some candidate)
    (hcan : s.candidateCanConfirm platform text farEndActive safe = true)
    (htester : s.config.allowTesterAdaptingBargeIn = false) : s.Clear candidate.hearing farEndActive safe := by
  unfold candidateCanConfirm at hcan
  simp only [hcandidate, Option.any_some, htester, Bool.and_false, Bool.false_and, Bool.or_false,
    Bool.and_eq_true, Bool.not_eq_true', Bool.or_eq_true] at hcan
  obtain ⟨⟨hstart, hsince⟩, hecho⟩ := hcan
  refine ⟨hstart, hsince, fun hactive => ?_⟩
  rcases hecho with hsilent | hsafe
  · rw [hsilent] at hactive
    cases hactive
  · exact hsafe

theorem remarks_of_identified {events : List Utterance}
    (h : OnlyIdentified candidateId events) : Remarks candidateId events :=
  fun event hevent => .inr (h event hevent)

theorem remarks_nil : Remarks candidateId [] := by
  intro event hevent
  cases hevent

theorem remarks_append {events more : List Utterance}
    (h : Remarks candidateId events) (hmore : Remarks candidateId more) :
    Remarks candidateId (events ++ more) :=
  fun event hevent => (List.mem_append.mp hevent).elim (h event) (hmore event)

/-! ## Steps of candidates -/

theorem step_of_quiet {result : VoiceState × List Action} (input : Input) (h : s.Quiet result) :
    CandidateStep s input result.1.hearing (utterances result.2) := by
  rw [h.1, h.2]
  exact .kept input

theorem discardCandidate_step (input : Input) (reason : InputDiscardReason) :
    CandidateStep s input (s.discardCandidate reason).1.hearing (utterances (s.discardCandidate reason).2) := by
  obtain ⟨hgone, ⟨hnone, hsilent⟩ | ⟨candidate, hcandidate, hsaid⟩⟩ := s.discardCandidate_cases reason
  · exact step_of_quiet input ⟨by rw [hearing, hearing, hgone, hnone], hsilent⟩
  · rw [hearing_none.2 hgone, hsaid]
    exact .discarded input candidate.hearing (by rw [hearing, hcandidate]; rfl)

theorem vadStarted_step (candidateId : CandidateId) (generation : RouteGeneration) (farEndActive : Bool)
    (echoStatus : EchoStatus) (now : MonoTimeNs) :
    CandidateStep s (.observation (.vadStarted candidateId generation farEndActive echoStatus) now)
      (s.vadStarted candidateId generation farEndActive echoStatus).1.hearing
      (utterances (s.vadStarted candidateId generation farEndActive echoStatus).2) := by
  unfold vadStarted
  split
  · rename_i h
    obtain ⟨rfl, hnone⟩ := h
    exact .started candidateId farEndActive echoStatus now (hearing_none.2 (Option.isNone_iff_eq_none.mp hnone)) _ rfl
  · exact .kept _

theorem partial_heard (hcandidate : s.candidate = some candidate) (text : String) (farEndActive safe : Bool) :
    let marked := s.markUnsafe farEndActive safe
    let changed := marked.candidate.any fun candidate => candidate.partialText != text
    let heard := if changed then
        marked.setCandidate fun candidate => { candidate with partialText := text } else marked
    ∃ after, heard.candidate = some after ∧
      after.hearing = candidate.hearing.marked (s.farEndIntervalIsUnsafe farEndActive safe) ∧
      heard.turn = s.turn ∧ heard.config = s.config := by
  dsimp only
  rw [markUnsafe_eq]
  split
  · exact ⟨_, setCandidate_candidate (setCandidate_candidate hcandidate _) _, rfl, rfl, rfl⟩
  · exact ⟨_, setCandidate_candidate hcandidate _, rfl, rfl, rfl⟩

theorem recognizerPartial_step (candidateId : CandidateId) (generation : RouteGeneration) (text : String)
    (farEndActive safe : Bool) (now : MonoTimeNs) :
    CandidateStep s (.observation (.recognizerPartial candidateId generation text farEndActive safe) now)
      (s.recognizerPartial platform candidateId generation text farEndActive safe).1.hearing
      (utterances (s.recognizerPartial platform candidateId generation text farEndActive safe).2) := by
  unfold recognizerPartial
  split
  · rename_i hmatches
    obtain ⟨rfl, candidate, hcandidate, rfl, hgeneration⟩ := candidateMatches_iff.1 hmatches
    have hhearing : s.hearing = some candidate.hearing := by rw [hearing, hcandidate]; rfl
    obtain ⟨after, hafter, hmarked, hturn, hconfig⟩ := partial_heard hcandidate text farEndActive safe
    dsimp only at hafter hturn hconfig ⊢
    generalize (s.markUnsafe farEndActive safe).candidate.any
      (fun candidate => candidate.partialText != text) = changed at hafter hturn hconfig ⊢
    generalize (if changed then (s.markUnsafe farEndActive safe).setCandidate
      (fun candidate => { candidate with partialText := text }) else s.markUnsafe farEndActive safe) =
        heard at hafter hturn hconfig ⊢
    have hshown : Remarks candidate.id (utterances
        (if changed then [.emit (.inputPartial candidate.id text)] else [])) := by
      cases changed with
      | false => exact remarks_nil
      | true =>
        intro event hevent
        exact .inl (List.mem_singleton.mp hevent)
    have hheard : heard.hearing = some (candidate.hearing.marked (s.farEndIntervalIsUnsafe farEndActive safe)) := by
      rw [hearing, hafter, ← hmarked]
      rfl
    split
    · rename_i hcan
      have hcan := (Bool.and_eq_true_iff.mp hcan).2
      cases hconfirmed : after.confirmed with
      | true =>
        rw [confirmCandidate_confirmed hafter hconfirmed, utterances_append, hheard]
        exact .heard candidate.hearing text farEndActive safe now _ hhearing hgeneration
          (remarks_append hshown remarks_nil)
      | false =>
        obtain ⟨hfresh, identities, hidentities, hsaid⟩ := confirmCandidate_fresh hafter hconfirmed candidate.id
        rw [hfresh, utterances_append, hsaid, hmarked]
        refine .confirmed candidate.hearing _ text farEndActive safe now _ _ hhearing rfl hgeneration ?_ ?_
          hshown (remarks_of_identified hidentities)
        · have hsame := congrArg Hearing.confirmed hmarked
          exact hsame.symm.trans hconfirmed
        · intro htester
          have hclear := candidateCanConfirm_clear hafter hcan (by rw [hconfig]; exact htester)
          rw [hmarked] at hclear
          refine ⟨hclear.start, hclear.since, fun hactive => ?_⟩
          rw [← hconfig]
          exact hclear.echo (by rw [outputTurnActive, hturn]; exact hactive)
    · rw [hheard]
      exact .heard candidate.hearing text farEndActive safe now _ hhearing hgeneration hshown
  · exact .kept _

theorem recognizerFinal_step (candidateId : CandidateId) (generation : RouteGeneration) (text : String)
    (farEndActive safe : Bool) (now : MonoTimeNs) :
    CandidateStep s (.observation (.recognizerFinal candidateId generation text farEndActive safe) now)
      (s.recognizerFinal platform candidateId generation text farEndActive safe).1.hearing
      (utterances (s.recognizerFinal platform candidateId generation text farEndActive safe).2) := by
  unfold recognizerFinal
  split
  · rename_i hmatches
    obtain ⟨rfl, candidate, hcandidate, rfl, hgeneration⟩ := candidateMatches_iff.1 hmatches
    have hhearing : s.hearing = some candidate.hearing := by rw [hearing, hcandidate]; rfl
    rw [markUnsafe_eq]
    dsimp only
    generalize hmark : (s.setCandidate fun candidate => { candidate with
      unsafeSinceStart := candidate.unsafeSinceStart || s.farEndIntervalIsUnsafe farEndActive safe }) =
        marked
    obtain ⟨after, hafter, hmarked⟩ : ∃ after, marked.candidate = some after ∧
        after.hearing = candidate.hearing.marked (s.farEndIntervalIsUnsafe farEndActive safe) := by
      rw [← hmark]
      exact ⟨_, setCandidate_candidate hcandidate _, rfl⟩
    have hid : after.id = candidate.id := congrArg Hearing.id hmarked
    have hsame : after.confirmed = candidate.confirmed := congrArg Hearing.confirmed hmarked
    have hdiscard : ∀ reason, CandidateStep s
          (.observation (.recognizerFinal candidate.id s.routeGeneration text farEndActive safe) now)
          (marked.discardCandidate reason).1.hearing (utterances (marked.discardCandidate reason).2) := by
      intro reason
      obtain ⟨hgone, ⟨hnone, -⟩ | ⟨gone, hgoneEq, hsaid⟩⟩ := marked.discardCandidate_cases reason
      · rw [hafter] at hnone
        cases hnone
      · rw [hafter] at hgoneEq
        cases hgoneEq
        rw [hearing_none.2 hgone, hsaid, hid]
        exact .discarded _ candidate.hearing hhearing
    split_ifs with hseed hcan
    · exact hdiscard .empty
    · rw [hearing_none.2 rfl, utterances_append, utterances_append]
      cases hconfirmed : after.confirmed with
      | true =>
        rw [confirmCandidate_confirmed hafter hconfirmed]
        have hpublished := publishCandidateSpeaker_identified platform marked candidate.id
        exact .finished candidate.hearing text farEndActive safe now _ hhearing
          (hsame.symm.trans hconfirmed) (remarks_of_identified hpublished)
      | false =>
        obtain ⟨-, identities, hidentities, hsaid⟩ := confirmCandidate_fresh hafter hconfirmed candidate.id
        have hpublished := publishCandidateSpeaker_identified platform
          (marked.confirmCandidate platform candidate.id).1 candidate.id
        rw [hsaid, List.cons_append]
        refine .confirmedFinished candidate.hearing _ text farEndActive safe now _ hhearing rfl hgeneration
          (hsame.symm.trans hconfirmed) ?_
          (remarks_append (remarks_of_identified hidentities) (remarks_of_identified hpublished))
        intro htester
        have hclear := candidateCanConfirm_clear hafter
          ((Bool.or_eq_true_iff.mp hcan).resolve_left (by simp [hafter, hconfirmed]))
          (by rw [← hmark]; exact htester)
        rw [hmarked, ← hmark] at hclear
        exact ⟨hclear.start, hclear.since, hclear.echo⟩
    · exact hdiscard .unsafeEcho
  · exact .kept _

theorem speakerEmbedding_step (input : Input) (candidateId : CandidateId) (generation : RouteGeneration)
    (embedding : List ℚ) :
    CandidateStep s input (s.speakerEmbedding platform candidateId generation embedding).1.hearing
      (utterances (s.speakerEmbedding platform candidateId generation embedding).2) := by
  unfold speakerEmbedding
  split
  · rename_i hmatches
    obtain ⟨-, candidate, hcandidate, rfl, -⟩ := candidateMatches_iff.1 (Bool.and_eq_true_iff.mp hmatches).1
    rw [publishCandidateSpeaker_hearing, hearing, setCandidate_candidate hcandidate]
    refine .remarked input candidate.hearing _ (by rw [hearing, hcandidate]; rfl) ?_
    exact remarks_of_identified (publishCandidateSpeaker_identified platform _ candidate.id)
  · exact .kept input

theorem candidateOverflow_step (input : Input) (candidateId : CandidateId) (generation : RouteGeneration) :
    CandidateStep s input (s.candidateOverflow candidateId generation).1.hearing
      (utterances (s.candidateOverflow candidateId generation).2) := by
  unfold candidateOverflow
  split
  · exact discardCandidate_step input .overflow
  · exact .kept input

theorem inputModelFailed_step (input : Input) (candidateId : Option CandidateId)
    (generation : RouteGeneration) : CandidateStep s input (s.inputModelFailed candidateId generation).1.hearing
      (utterances (s.inputModelFailed candidateId generation).2) := by
  unfold inputModelFailed
  split
  · exact discardCandidate_step input .modelFailed
  · exact .kept input

theorem discardCandidate_step_of {left : VoiceState} (hsame : left.candidate = s.candidate) (input : Input)
    (reason : InputDiscardReason) : CandidateStep s input (left.discardCandidate reason).1.hearing
      (utterances (left.discardCandidate reason).2) := by
  have hhearing : left.hearing = s.hearing := congrArg (Option.map CandidateState.hearing) hsame
  obtain ⟨hgone, ⟨hnone, hsilent⟩ | ⟨candidate, hcandidate, hsaid⟩⟩ := left.discardCandidate_cases reason
  · exact step_of_quiet input ⟨by rw [← hhearing, hearing, hearing, hgone, hnone], hsilent⟩
  · rw [hearing_none.2 hgone, hsaid]
    exact .discarded input candidate.hearing (by rw [← hhearing, hearing, hcandidate]; rfl)

theorem handleRouteFault_step (input : Input) (generation : RouteGeneration) (recoverable : Bool)
    (now : MonoTimeNs) : CandidateStep s input (s.handleRouteFault generation recoverable now).1.hearing
      (utterances (s.handleRouteFault generation recoverable now).2) := by
  rcases s.handleRouteFault_cases generation recoverable now with hsame | ⟨-, -, -, hfault⟩
  · rw [hsame]
    exact .kept input
  · rw [hfault]
    have hstep := discardCandidate_step_of (afterFault_candidate (s := s) recoverable) input .routeChanged
    generalize (s.afterFault recoverable).discardCandidate .routeChanged = discarded at hstep ⊢
    have hsaid : utterances (s.faultActions recoverable ++ discarded.2 ++
        (discarded.1.cancelActiveTurn .routeFault).2 ++ [.closeRoute generation] ++
        ((discarded.1.cancelActiveTurn .routeFault).1.retryIf recoverable now).2) = utterances discarded.2 := by
      simp [faultActions, Action.utterance]
    rw [hsaid, hearing, retryIf_candidate, cancelActiveTurn_candidate]
    exact hstep

theorem callbacksStalled_step (input : Input) (sessionId : SessionId) (generation : RouteGeneration)
    (now : MonoTimeNs) : CandidateStep s input (s.callbacksStalled sessionId generation now).1.hearing
      (utterances (s.callbacksStalled sessionId generation now).2) := by
  unfold callbacksStalled
  split
  · exact handleRouteFault_step input generation true now
  · exact .kept input

theorem observe_step (observation : Observation) (now : MonoTimeNs) :
    CandidateStep s (.observation observation now) (s.observe platform now observation).1.hearing
      (utterances (s.observe platform now observation).2) := by
  cases observation with
  | modelsPrepared => exact step_of_quiet _ (modelsPrepared_quiet _ _)
  | modelsFailed => exact step_of_quiet _ (modelsFailed_quiet _ _)
  | environmentActivated => exact step_of_quiet _ (environmentActivated_quiet _)
  | routeOpened => exact step_of_quiet _ (routeOpened_quiet _ _ _)
  | routeStarted => exact step_of_quiet _ (routeStarted_quiet _ _)
  | captureArrived => exact step_of_quiet _ (captureArrived_quiet _ _)
  | echoChanged => exact step_of_quiet _ (echoChanged_quiet _ _)
  | vadStarted => exact vadStarted_step _ _ _ _ now
  | recognizerPartial => exact recognizerPartial_step _ _ _ _ _ now
  | recognizerFinal => exact recognizerFinal_step _ _ _ _ _ now
  | speakerEmbedding => exact speakerEmbedding_step _ _ _ _
  | nearEndEvidence => exact step_of_quiet _ (noteCandidate_quiet _ _ fun _ => rfl)
  | candidateAdaptationReady => exact step_of_quiet _ (noteCandidate_quiet _ _ fun _ => rfl)
  | candidateOverflow => exact candidateOverflow_step _ _ _
  | inputModelFailed => exact inputModelFailed_step _ _ _
  | playbackAudible => exact step_of_quiet _ (playbackAudible_quiet _ _)
  | synthesisStarted => exact step_of_quiet _ (synthesisStarted_quiet _ _ _)
  | synthesisCompleted => exact step_of_quiet _ (synthesisCompleted_quiet _ _ _)
  | synthesisFailed => exact step_of_quiet _ (synthesisFailed_quiet _ _)
  | playbackDrained => exact step_of_quiet _ (playbackDrained_quiet _ _)
  | fadeDrained => exact step_of_quiet _ (fadeDrained_quiet _ _)
  | routeFault => exact handleRouteFault_step _ _ _ _
  | callbacksStalled => exact callbacksStalled_step _ _ _ _
  | metricsUpdated => exact step_of_quiet _ (metricsUpdated_quiet _ _)
  | routeRetryDue => exact step_of_quiet _ (routeRetryDue_quiet _ _)
  | diagnosticsTick => exact step_of_quiet _ diagnosticsTick_quiet

/-! ## Commands -/

theorem supersede_said : s.supersede.1.candidate = s.candidate ∧
    utterances s.supersede.2 = s.sessionId.toList.map fun _ => .sessionStopped := by
  unfold supersede
  split
  · rename_i hsession
    exact ⟨rfl, by rw [hsession]; rfl⟩
  · rename_i old hsession
    refine ⟨by simp, ?_⟩
    rw [hsession]
    simp [Action.utterance]

theorem stopSession_step (requestId : RequestId) (sessionId : SessionId) :
    CandidateStep s (.command (.stopSession requestId sessionId)) (s.stopSession sessionId).done.1.hearing
      (utterances (s.stopSession sessionId).done.2) := by
  unfold stopSession
  split
  · split_ifs <;> exact .kept _
  · rename_i hsession
    have hsame := s.cancelActiveTurn_candidate .sessionStopped
    generalize hcancelled : s.cancelActiveTurn .sessionStopped = cancelled at hsame
    have hsilent : utterances cancelled.2 = [] := by
      rw [← hcancelled]
      exact s.cancelActiveTurn_utterances .sessionStopped
    have hsaid : utterances (cancelled.1.discardCandidate .reset).2 =
        s.hearing.toList.map fun hearing => .discarded hearing.id := by
      obtain ⟨-, ⟨hnone, hquiet⟩ | ⟨candidate, hcandidate, hsaid⟩⟩ := cancelled.1.discardCandidate_cases .reset
      · rw [hquiet, hearing, ← hsame, hnone]
        rfl
      · rw [hsaid, hearing, ← hsame, hcandidate]
        rfl
    have hgone := (cancelled.1.discardCandidate_cases .reset).1
    dsimp only [Reply.done, accept]
    rw [utterances_append, utterances_append, hsilent, hsaid, hearing_none.2 (by exact hgone)]
    exact .stopped requestId sessionId (not_not.mp hsession)

theorem resetInput_step (input : Input) (sessionId : SessionId) :
    CandidateStep s input (s.resetInput sessionId).done.1.hearing (utterances (s.resetInput sessionId).done.2) := by
  unfold resetInput
  split
  · exact .kept input
  · have hstep := s.discardCandidate_step input .reset
    dsimp only [Reply.done, accept]
    rw [utterances_append]
    exact (List.append_nil _).symm ▸ hstep

theorem startSession_step (requestId : RequestId) (preferredInput preferredOutput : Option String)
    (hnew : s.requests.find (.startSession requestId preferredInput preferredOutput) = none) :
    CandidateStep s (.command (.startSession requestId preferredInput preferredOutput))
      (s.startSession preferredInput preferredOutput).done.1.hearing
      (utterances (s.startSession preferredInput preferredOutput).done.2) := by
  unfold startSession
  split
  · exact .kept _
  · rename_i hready
    dsimp only [Reply.done]
    rw [utterances_append, supersede_said.2, hearing_none.2 (by exact rfl)]
    have hsilent : utterances
        [.emit (.statusSession .opening), .activateEnvironment (s.supersede.1.ids.value "s")] = [] := rfl
    rw [hsilent, List.append_nil]
    refine .replaced requestId preferredInput preferredOutput ?_ hnew
    cases hinput : s.inputReady <;> cases houtput : s.outputReady <;> simp [hinput, houtput] at hready ⊢

theorem applyCommand_step (command : Command) (hnew : s.requests.find command = none) :
    CandidateStep s (.command command) (s.applyCommand platform command).done.1.hearing
      (utterances (s.applyCommand platform command).done.2) := by
  cases command with
  | prepare => exact step_of_quiet _ (prepare_quiet _)
  | startSession => exact startSession_step _ _ _ hnew
  | stopSession => exact stopSession_step _ _
  | beginSpeech => exact step_of_quiet _ (beginSpeech_quiet _ _ _)
  | enqueueSpeech => exact step_of_quiet _ (enqueueSpeech_quiet _ _ _ _)
  | finishSpeech => exact step_of_quiet _ (finishSpeech_quiet _ _)
  | cancelSpeech => exact step_of_quiet _ (cancelSpeech_quiet _ _ _)
  | resetInput => exact resetInput_step _ _
  | setDiagnostics => exact step_of_quiet _ (setDiagnostics_quiet _ _)
  | retryRoute => exact step_of_quiet _ (retryRoute_quiet _)

end VoiceState

theorem react_candidateStep (platform : Platform) (s : VoiceState) (input : Input) :
    CandidateStep s input (react platform s input).1.hearing (utterances (react platform s input).2) := by
  cases input with
  | command command =>
    rcases react_command platform s command with hsame | ⟨hnew, requests, happlied⟩
    · rw [hsame]
      exact .kept _
    · rw [happlied]
      exact s.applyCommand_step command hnew
  | observation observation now => exact s.observe_step observation now

end AvenOS.Voice
