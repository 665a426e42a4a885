import AvenOS.Voice.TurnSteps
import AvenOS.Voice.Routes

/-! # Nothing is heard without a session

Without a session there is neither a candidate nor a turn, and nothing is heard or said. Observations of
input carry the generation of the route, which stays the same when a session stops. -/
namespace AvenOS.Voice
open AvenOS.Lifecycle

/-! ## What must not happen -/

/-- Input is reported, a turn or a route is started, or something is to be spoken. -/
def Action.hears : Action → Bool
  | .emit (.inputCandidateStarted _ _) => true
  | .emit (.inputPartial _ _) => true
  | .emit (.inputConfirmed _ _) => true
  | .emit (.inputSpeakerIdentified _ _) => true
  | .emit (.inputFinal _ _) => true
  | .emit (.inputDiscarded _ _) => true
  | .emit (.playbackTurnStarted _) => true
  | .openRoute _ _ _ _ => true
  | .startRoute _ => true
  | .enqueueTts _ _ _ _ _ _ => true
  | _ => false

/-- Nothing is left of a session. -/
def VoiceState.Deserted (s : VoiceState) : Prop := s.sessionId = none → s.candidate = none ∧ s.turn = none

structure SilentWhileStopped (session : Session) : Prop where
  deserted : session.state.Deserted
  silent : ∀ moment ∈ session.log, moment.state.Deserted ∧
    (moment.state.sessionId = none → ∀ action ∈ moment.actions, action.hears = false)

theorem hears_cases {action : Action} (h : action.hears = true) :
    (∃ event, action.utterance = some event ∧ event ≠ .sessionStopped) ∨
      (∃ turnId, action.play = some (.began turnId) ∨ action.play = some (.ongoing turnId)) ∨
      ∃ generation, action.routeMove = some (.opened generation) ∨ action.routeMove = some (.started generation) := by
  cases action with
  | emit event =>
    cases event with
    | inputCandidateStarted => exact .inl ⟨_, rfl, nofun⟩
    | inputPartial => exact .inl ⟨_, rfl, nofun⟩
    | inputConfirmed => exact .inl ⟨_, rfl, nofun⟩
    | inputSpeakerIdentified => exact .inl ⟨_, rfl, nofun⟩
    | inputFinal => exact .inl ⟨_, rfl, nofun⟩
    | inputDiscarded => exact .inl ⟨_, rfl, nofun⟩
    | playbackTurnStarted => exact .inr (.inl ⟨_, .inl rfl⟩)
    | _ => cases h
  | openRoute => exact .inr (.inr ⟨_, .inl rfl⟩)
  | startRoute => exact .inr (.inr ⟨_, .inr rfl⟩)
  | enqueueTts => exact .inr (.inl ⟨_, .inr rfl⟩)
  | _ => cases h

/-! ## Steps -/

/-- Speech is detected on the last route while there is no session. -/
def hearsUnattended (s : VoiceState) : Input → Bool
  | .observation (.vadStarted _ generation _ _) _ => s.sessionId.isNone && generation == s.routeGeneration
  | _ => false

section Steps
variable {platform : Platform} {s : VoiceState} {input : Input}

theorem unattended_candidate {hearing : Option Hearing} {events : List Utterance}
    (hstep : CandidateStep s input hearing events) (hsession : s.sessionId = none)
    (hnone : s.hearing = none) (hunheard : hearsUnattended s input = false) : hearing = none ∧ events = [] := by
  cases hstep with
  | kept => exact ⟨hnone, rfl⟩
  | started => simp [hearsUnattended, hsession] at hunheard
  | stopped _ _ hopen => rw [hsession] at hopen; cases hopen
  | replaced => exact ⟨rfl, by rw [hsession]; rfl⟩
  | remarked _ _ _ hhearing => rw [hnone] at hhearing; cases hhearing
  | heard _ _ _ _ _ _ hhearing => rw [hnone] at hhearing; cases hhearing
  | confirmed _ _ _ _ _ _ _ _ hhearing => rw [hnone] at hhearing; cases hhearing
  | finished _ _ _ _ _ _ hhearing => rw [hnone] at hhearing; cases hhearing
  | confirmedFinished _ _ _ _ _ _ _ hhearing => rw [hnone] at hhearing; cases hhearing
  | discarded _ _ hhearing => rw [hnone] at hhearing; cases hhearing

theorem unattended_turn {speaking fading : Option Mark} {ids : IdGenerator} {events : List (Stage TurnId)}
    {faded : List Mark} (hstep : TurnStep platform s input speaking fading ids events faded)
    (hsession : s.sessionId = none) (hnone : s.speaking = none) :
    speaking = none ∧ ∀ event ∈ events, ∃ turnId, event = .ended turnId := by
  cases hstep with
  | still => exact ⟨hnone, nofun⟩
  | spoken _ _ _ _ _ hspeaking => rw [hnone] at hspeaking; cases hspeaking
  | retired => exact ⟨rfl, by rw [hnone]; exact nofun⟩
  | begun _ _ _ _ _ _ _ hopen => rw [hsession] at hopen; cases hopen
  | completed turnId => exact ⟨rfl, fun event hevent => ⟨turnId, List.mem_singleton.mp hevent⟩⟩
  | faded turnId => exact ⟨hnone, fun event hevent => ⟨turnId, List.mem_singleton.mp hevent⟩⟩

theorem unattended_route {routing : Routing} {moves : List RouteMove}
    (hstep : RouteStep s input routing moves) (hsession : s.sessionId = none) : moves = [] := by
  cases hstep with
  | unmoved => rfl
  | activated _ _ hopen => rw [hsession] at hopen; cases hopen
  | opened _ _ _ hopen => rw [hsession] at hopen; cases hopen
  | steadied => rfl
  | retried _ _ _ hopen => rw [hsession] at hopen; cases hopen
  | due _ _ hopen => rw [hsession] at hopen; cases hopen
  | abandoned _ _ hopen => exact absurd hsession hopen
  | faulted _ _ hopen => exact absurd hsession hopen
  | stopped _ _ hopen => rw [hsession] at hopen; cases hopen
  | replaced => rw [hsession]; rfl

theorem stopSession_deserts {sessionId : SessionId} (hsession : s.sessionId = some sessionId) :
    (s.stopSession sessionId).done.1.candidate = none ∧ (s.stopSession sessionId).done.1.turn = none := by
  unfold VoiceState.stopSession
  rw [if_neg (by rw [hsession]; simp)]
  have hgone := (VoiceState.discardCandidate_cases (s := (s.cancelActiveTurn .sessionStopped).1) .reset).1
  have hretired := (s.cancelActiveTurn_retired .sessionStopped).after (VoiceState.discardCandidate_still _ .reset)
  refine ⟨hgone, ?_⟩
  exact Option.map_eq_none_iff.mp hretired.speaking

theorem session_stopped (hopen : s.sessionId ≠ none) (hended : (react platform s input).1.sessionId = none) :
    (react platform s input).1.candidate = none ∧ (react platform s input).1.turn = none := by
  have hstep := react_routeStep platform s input
  rw [RouteStepOf] at hstep
  generalize hrouting : (react platform s input).1.routing = routing at hstep
  generalize routeMoves (react platform s input).2 = moves at hstep
  have hnone : routing.sessionId = none := by rw [← hrouting]; exact hended
  cases hstep with
  | stopped requestId sessionId hsession =>
    rcases react_command platform s (.stopSession requestId sessionId) with hsame | ⟨-, requests, happlied⟩
    · rw [hsame] at hended
      exact absurd hended hopen
    · rw [happlied]
      exact stopSession_deserts hsession
  | replaced => cases hnone
  | _ => exact absurd hnone hopen

theorem deserted_step (h : s.Deserted) (hunheard : hearsUnattended s input = false) :
    (react platform s input).1.Deserted := by
  intro hended
  by_cases hsession : s.sessionId = none
  · obtain ⟨hcandidate, hturn⟩ := h hsession
    have hhearing := (unattended_candidate (react_candidateStep platform s input) hsession
      (VoiceState.hearing_none.mpr hcandidate) hunheard).1
    have hspeaking := (unattended_turn (react_turnStep platform s input).step hsession
      (Option.map_eq_none_iff.mpr hturn)).1
    exact ⟨VoiceState.hearing_none.mp hhearing, Option.map_eq_none_iff.mp hspeaking⟩
  · exact session_stopped hsession hended

theorem silent_step (h : s.Deserted) (hunheard : hearsUnattended s input = false)
    (hsession : s.sessionId = none) : ∀ action ∈ (react platform s input).2, action.hears = false := by
  intro action haction
  obtain ⟨hcandidate, hturn⟩ := h hsession
  have hsaid := (unattended_candidate (react_candidateStep platform s input) hsession
    (VoiceState.hearing_none.mpr hcandidate) hunheard).2
  have hplayed := (unattended_turn (react_turnStep platform s input).step hsession (Option.map_eq_none_iff.mpr hturn)).2
  have hmoved := unattended_route (react_routeStep platform s input) hsession
  by_contra hhears
  rcases hears_cases (Bool.not_eq_false _ ▸ hhears) with
    ⟨event, hevent, -⟩ | ⟨turnId, hplay⟩ | ⟨generation, hmove⟩
  · have hmem : event ∈ utterances (react platform s input).2 := List.mem_filterMap.mpr ⟨action, haction, hevent⟩
    rw [hsaid] at hmem
    cases hmem
  · rcases hplay with hplay | hplay <;>
    · obtain ⟨_, hended⟩ := hplayed _ (List.mem_filterMap.mpr ⟨action, haction, hplay⟩)
      cases hended
  · rcases hmove with hmove | hmove <;>
    · have hmem := List.mem_filterMap.mpr ⟨action, haction, hmove⟩
      rw [← routeMoves, hmoved] at hmem
      cases hmem

end Steps

/-! ## Runs -/

/-- As long as no speech is detected on the last route without a session, nothing is heard without one. -/
theorem silent_while_stopped {platform : Platform} {session : Session}
    (h : Reaches platform (fun session input => hearsUnattended session.state input = false) session) :
    SilentWhileStopped session := by
  induction h with
  | new => exact ⟨fun _ => ⟨rfl, rfl⟩, fun _ hmoment => by cases hmoment⟩
  | next session input _ hunheard ih =>
    refine ⟨deserted_step ih.deserted hunheard, fun moment hmoment => ?_⟩
    rcases List.mem_append.mp hmoment with hold | hnew
    · exact ih.silent moment hold
    · rw [List.mem_singleton.mp hnew]
      exact ⟨ih.deserted, silent_step ih.deserted hunheard⟩

/-- A session that is stopped while a detection is on its way, and speech of its route. -/
def lateInputs (generation : RouteGeneration) : List Input :=
  [.observation (.modelsPrepared true true) 0, .command (.startSession "r1" none none),
    .command (.stopSession "r2" "boot-s-1"), .observation (.vadStarted "c1" generation false .converged) 1]

theorem silent_while_stopped_late : SilentWhileStopped
    ((Session.new "boot" .default).run plainPlatform (lateInputs 0)) :=
  silent_while_stopped ((Reaches.new "boot" .default).run _ (by decide +kernel))

/-- Speech of the last route starts a candidate after the session has stopped. -/
theorem heard_after_stop : ¬ ∀ platform session, Reachable platform session → SilentWhileStopped session := by
  intro h
  have hsilent := h plainPlatform _ ((Reaches.new "boot" .default).run (lateInputs 1) (by decide +kernel))
  have hsession : ((Session.new "boot" .default).run plainPlatform (lateInputs 1)).state.sessionId = none := by
    decide +kernel
  have hcandidate : ((Session.new "boot" .default).run plainPlatform (lateInputs 1)).state.candidate.isSome =
      true := by decide +kernel
  rw [(hsilent.deserted hsession).1] at hcandidate
  cases hcandidate

end AvenOS.Voice
