import AvenOS.Foundations.LabelledRun
import AvenOS.Voice.CandidateSteps
import AvenOS.Voice.Routes

/-! # One route at a time

A route is opened under the current generation, and closed before the generation changes. A fault discards
the candidate and closes the route; a new session closes the route of the old one; a retry on command does
neither. -/
namespace AvenOS.Voice
open AvenOS.LabelledRun

/-! ## What a log promises -/

def Session.moves (session : Session) : List RouteMove := routeMoves session.actions

def FaultScheduled (log : List Moment) (generation : RouteGeneration) (attempt : ℕ) : Prop :=
  ∃ moment ∈ log, moment.input.isFault = true ∧ .scheduled generation attempt ∈ routeMoves moment.actions

structure RouteCoherence (session : Session) : Prop where
  candidate : ∀ candidate, session.state.candidate = some candidate →
    candidate.generation = session.state.routeGeneration
  openedOnce : ∀ before moment after generation, session.log = before ++ moment :: after →
    .opened generation ∈ routeMoves moment.actions →
      .opened generation ∉ routeMoves (before.flatMap Moment.actions) ∨
        ∃ attempt now, moment.input = .observation (.routeRetryDue generation attempt) now ∧
          FaultScheduled before generation attempt
  closedBetween : ∀ before generation between later after,
    session.moves = before ++ .opened generation :: between ++ .opened later :: after →
      later ≠ generation → .closed generation ∈ between

/-! ## The open route -/

def routeOpen : Option RouteGeneration → RouteMove → Option (Option RouteGeneration)
  | current, .opened generation => if current.all (· == generation) then some (some generation) else none
  | current, .closed generation => if current = some generation then some none else some current
  | current, _ => some current

section Open
variable {moves : List RouteMove} {current after : Option RouteGeneration} {generation : RouteGeneration}

theorem open_was_opened (h : run routeOpen current moves = some (some generation)) :
    current = some generation ∨ .opened generation ∈ moves := by
  induction moves generalizing current with
  | nil => exact .inl (Option.some.inj h)
  | cons move moves ih =>
    obtain ⟨next, hnext, hrun⟩ := run_cons h
    rcases ih hrun with rfl | hmem
    · cases move with
      | opened other =>
        obtain ⟨-, hsame⟩ := Option.ite_none_right_eq_some.mp hnext
        cases hsame
        exact .inr List.mem_cons_self
      | closed other =>
        simp only [routeOpen] at hnext
        split at hnext
        · cases hnext
        · exact .inl (Option.some.inj hnext)
      | started => exact .inl (Option.some.inj hnext)
      | scheduled => exact .inl (Option.some.inj hnext)
    · exact .inr (List.mem_cons_of_mem _ hmem)

theorem stays_open (h : run routeOpen (some generation) moves = some after)
    (hopen : .closed generation ∉ moves) : after = some generation := by
  induction moves with
  | nil => exact (Option.some.inj h).symm
  | cons move moves ih =>
    obtain ⟨next, hnext, hrun⟩ := run_cons h
    have hsame : next = some generation := by
      cases move with
      | opened other =>
        obtain ⟨hall, hnext⟩ := Option.ite_none_right_eq_some.mp hnext
        rw [← Option.some.inj hnext, ← beq_iff_eq.mp hall]
      | closed other =>
        have hother : some generation ≠ some other := fun heq =>
          hopen (Option.some.inj heq ▸ List.mem_cons_self)
        rw [routeOpen, if_neg hother] at hnext
        exact (Option.some.inj hnext).symm
      | started => exact (Option.some.inj hnext).symm
      | scheduled => exact (Option.some.inj hnext).symm
    rw [hsame] at hrun
    exact ih hrun fun hmem => hopen (List.mem_cons_of_mem _ hmem)

theorem closed_between {before between rest : List RouteMove} {later : RouteGeneration}
    (h : run routeOpen none (before ++ .opened generation :: between ++ .opened later :: rest) = some after)
    (hlater : later ≠ generation) : .closed generation ∈ between := by
  by_contra hopen
  rw [List.append_assoc, List.cons_append, run_append] at h
  obtain ⟨first, -, h⟩ := Option.bind_eq_some_iff.mp h
  obtain ⟨opened, hopened, h⟩ := run_cons h
  obtain ⟨-, hopenedEq⟩ := Option.ite_none_right_eq_some.mp hopened
  rw [← Option.some.inj hopenedEq, run_append] at h
  obtain ⟨still, hstill, h⟩ := Option.bind_eq_some_iff.mp h
  rw [stays_open hstill hopen] at h
  obtain ⟨last, hlast, -⟩ := run_cons h
  obtain ⟨hall, -⟩ := Option.ite_none_right_eq_some.mp hlast
  exact hlater (beq_iff_eq.mp hall).symm

end Open

/-! ## Inputs that keep the routes apart -/

/-- A retry on command finds neither a candidate nor a route of the current generation, a route is activated
once, and an attempt that is due was counted. -/
def keepsRoutesApart (session : Session) : Input → Bool
  | .command (.retryRoute requestId sessionId) =>
    (session.state.requests.find (.retryRoute requestId sessionId)).isSome ||
      session.state.sessionId != some sessionId ||
      session.state.candidate.isNone &&
        !session.moves.contains (.opened session.state.routeGeneration)
  | .observation (.environmentActivated sessionId) _ =>
    session.state.sessionId != some sessionId ||
      !session.moves.contains (.opened session.state.routeGeneration)
  | .observation (.routeRetryDue generation attempt) _ =>
    generation != session.state.routeGeneration || attempt != session.state.retryAttempt ||
      session.state.sessionStatus != .recovering || session.state.sessionId.isNone || attempt != 0
  | _ => true

/-- How the log and the route belong together. -/
structure Routed (session : Session) : Prop where
  candidate : ∀ hearing, session.state.hearing = some hearing →
    hearing.generation = session.state.routeGeneration
  bounded : ∀ generation, .opened generation ∈ session.moves → generation ≤ session.state.routeGeneration
  running : ∃ current, run routeOpen none session.moves = some current ∧
    ∀ generation, current = some generation →
      generation = session.state.routeGeneration ∧ session.state.sessionId ≠ none
  scheduled : session.state.sessionStatus = .recovering → session.state.retryAttempt ≠ 0 →
    FaultScheduled session.log session.state.routeGeneration session.state.retryAttempt

theorem FaultScheduled.append {log more : List Moment} {generation : RouteGeneration} {attempt : ℕ}
    (h : FaultScheduled log generation attempt) : FaultScheduled (log ++ more) generation attempt := by
  obtain ⟨moment, hmoment, hfault⟩ := h
  exact ⟨moment, List.mem_append_left _ hmoment, hfault⟩

@[simp] theorem Session.next_moves {platform : Platform} {session : Session} {input : Input} :
    (session.next platform input).moves = session.moves ++ routeMoves (react platform session.state input).2 := by
  rw [Session.moves, Session.next_actions, routeMoves_append, Session.moves]

/-! ## The candidate and its route -/

section Steps
variable {platform : Platform} {s : VoiceState} {session : Session} {input : Input}

variable {generation : RouteGeneration} {routing : Routing} {moves : List RouteMove}

theorem handleRouteFault_clears {recoverable : Bool} {now : MonoTimeNs}
    (hmoved : (s.handleRouteFault generation recoverable now).1.routeGeneration ≠ s.routeGeneration) :
    (s.handleRouteFault generation recoverable now).1.candidate = none := by
  rcases s.handleRouteFault_cases generation recoverable now with hsame | ⟨-, -, -, hfault⟩
  · rw [hsame] at hmoved
    exact absurd rfl hmoved
  · rw [hfault]
    dsimp only
    rw [VoiceState.retryIf_candidate, VoiceState.cancelActiveTurn_candidate]
    exact (VoiceState.discardCandidate_cases .routeChanged).1

theorem generation_changed (hmoved : (react platform s input).1.routeGeneration ≠ s.routeGeneration) :
    (react platform s input).1.candidate = none ∨
      ∃ requestId sessionId, input = .command (.retryRoute requestId sessionId) ∧
        s.requests.find (.retryRoute requestId sessionId) = none ∧ s.sessionId = some sessionId := by
  have hstep := react_routeStep platform s input
  rw [RouteStepOf] at hstep
  have hgeneration : (react platform s input).1.routing.generation ≠ s.routeGeneration := hmoved
  generalize (react platform s input).1.routing = routing at hstep hgeneration
  generalize routeMoves (react platform s input).2 = moves at hstep
  have hfault : input.isFault = true → (react platform s input).1.candidate = none := by
    intro hfault
    cases input with
    | command => cases hfault
    | observation observation now =>
      cases observation <;> try cases hfault
      · exact handleRouteFault_clears hmoved
      · change (s.callbacksStalled _ _ now).1.routeGeneration ≠ _ at hmoved
        change (s.callbacksStalled _ _ now).1.candidate = none
        unfold VoiceState.callbacksStalled at hmoved ⊢
        split at hmoved
        · rename_i hcurrent
          rw [if_pos hcurrent]
          exact handleRouteFault_clears hmoved
        · exact absurd rfl hmoved
  cases hstep with
  | retried requestId sessionId hnew hsession => exact .inr ⟨requestId, sessionId, rfl, hnew, hsession⟩
  | abandoned _ hisFault => exact .inl (hfault hisFault)
  | faulted _ hisFault => exact .inl (hfault hisFault)
  | replaced requestId preferredInput preferredOutput =>
    refine .inl ?_
    rcases react_command platform s (.startSession requestId preferredInput preferredOutput) with
      hsame | ⟨-, requests, happlied⟩
    · rw [hsame] at hmoved
      exact absurd rfl hmoved
    · rw [happlied] at hmoved ⊢
      change (s.startSession _ _).state.routeGeneration ≠ _ at hmoved
      change (s.startSession _ _).state.candidate = none
      unfold VoiceState.startSession at hmoved ⊢
      split at hmoved
      · exact absurd rfl hmoved
      · rename_i hready
        rw [if_neg hready]
  | _ => exact absurd rfl hgeneration

theorem hearing_generation {hearing : Option Hearing} {events : List Utterance}
    (hstep : CandidateStep s input hearing events)
    (h : ∀ heard, s.hearing = some heard → heard.generation = s.routeGeneration) :
    ∀ heard, hearing = some heard → heard.generation = s.routeGeneration := by
  cases hstep with
  | kept => exact h
  | remarked _ _ _ hhearing =>
    rintro _ ⟨⟩
    exact h _ hhearing
  | started =>
    rintro _ ⟨⟩
    rfl
  | heard _ _ _ _ _ _ _ hgeneration =>
    rintro _ ⟨⟩
    exact hgeneration
  | confirmed _ _ _ _ _ _ _ _ _ hmarked hgeneration =>
    rintro _ ⟨⟩
    rw [hmarked]
    exact hgeneration
  | _ => exact nofun

theorem candidate_generation (h : ∀ heard, s.hearing = some heard → heard.generation = s.routeGeneration)
    (hretry : ∀ requestId sessionId, input = .command (.retryRoute requestId sessionId) →
      s.requests.find (.retryRoute requestId sessionId) = none → s.sessionId = some sessionId →
        s.candidate = none) : ∀ heard, (react platform s input).1.hearing = some heard →
      heard.generation = (react platform s input).1.routeGeneration := by
  intro heard hheard
  have hstep := react_candidateStep platform s input
  by_cases hmoved : (react platform s input).1.routeGeneration = s.routeGeneration
  · rw [hmoved]
    exact hearing_generation hstep h heard hheard
  · rcases generation_changed hmoved with hgone | ⟨requestId, sessionId, rfl, hnew, hsession⟩
    · rw [VoiceState.hearing_none.mpr hgone] at hheard
      cases hheard
    · have hnone := VoiceState.hearing_none.mpr (hretry requestId sessionId rfl hnew hsession)
      rw [hheard] at hstep
      generalize utterances _ = events at hstep
      generalize hgoal : some heard = hearing at hstep
      cases hstep with
      | kept => rw [hnone] at hgoal; cases hgoal
      | remarked _ _ _ hhearing => rw [hnone] at hhearing; cases hhearing
      | discarded => cases hgoal

/-! ## The log of a step -/

/-- Where the open route is the current one, the moves of a step are accepted, and the route that they leave
open is the current one. -/
theorem running_step {current : Option RouteGeneration} (hstep : RouteStep s input routing moves)
    (hcurrent : ∀ generation, current = some generation → generation = s.routeGeneration ∧ s.sessionId ≠ none)
    (hretry : ∀ requestId sessionId, input = .command (.retryRoute requestId sessionId) →
      s.requests.find (.retryRoute requestId sessionId) = none → s.sessionId = some sessionId →
        current = none) : ∃ after, run routeOpen current moves = some after ∧ ∀ generation, after = some generation →
      generation = routing.generation ∧ routing.sessionId ≠ none := by
  have hopenable : current.all (· == s.routeGeneration) = true := by
    cases hcases : current with
    | none => rfl
    | some generation => exact beq_iff_eq.mpr (hcurrent generation hcases).1
  have hclosed : ∀ rest, run routeOpen current (.closed s.routeGeneration :: rest) = run routeOpen none rest := by
    intro rest
    rw [run, routeOpen]
    by_cases hsame : current = some s.routeGeneration
    · rw [if_pos hsame]
      rfl
    · rw [if_neg hsame]
      cases hcases : current with
      | none => rfl
      | some generation => exact absurd ((hcurrent generation hcases).1 ▸ hcases) hsame
  have hopened : ∀ sessionId, s.sessionId = some sessionId → ∃ after,
      run routeOpen current [.opened s.routeGeneration] = some after ∧ ∀ generation,
        after = some generation → generation = s.routeGeneration ∧ s.sessionId ≠ none := by
    intro sessionId hsession
    refine ⟨some s.routeGeneration, by rw [run, routeOpen, if_pos hopenable]; rfl, ?_⟩
    rintro generation ⟨⟩
    exact ⟨rfl, by rw [hsession]; exact Option.some_ne_none _⟩
  have hnothing : ∀ generation : RouteGeneration, none = some generation →
      generation = routing.generation ∧ routing.sessionId ≠ none := by
    intro generation hnone
    cases hnone
  cases hstep with
  | unmoved => exact ⟨current, rfl, hcurrent⟩
  | activated sessionId _ hsession => exact hopened sessionId hsession
  | opened => exact ⟨current, rfl, hcurrent⟩
  | steadied => exact ⟨current, rfl, hcurrent⟩
  | retried requestId sessionId hnew hsession =>
    rw [hretry requestId sessionId rfl hnew hsession]
    refine ⟨some (s.routeGeneration + 1), rfl, ?_⟩
    rintro generation ⟨⟩
    exact ⟨rfl, by rw [hsession]; exact Option.some_ne_none _⟩
  | due sessionId _ hsession => exact hopened sessionId hsession
  | abandoned => exact ⟨none, by rw [hclosed]; rfl, hnothing⟩
  | faulted => exact ⟨none, by rw [hclosed]; rfl, hnothing⟩
  | stopped => exact ⟨none, by rw [hclosed]; rfl, hnothing⟩
  | replaced =>
    cases hsession : s.sessionId with
    | none =>
      cases hcases : current with
      | none => exact ⟨none, rfl, hnothing⟩
      | some generation => exact absurd hsession (hcurrent generation hcases).2
    | some sessionId => exact ⟨none, hclosed [], hnothing⟩

theorem bounded_step (hstep : RouteStep s input routing moves) : s.routeGeneration ≤ routing.generation ∧
      ∀ generation, .opened generation ∈ moves → generation ≤ routing.generation := by
  cases hstep with
  | retried => exact ⟨Nat.le_succ _, by simp⟩
  | abandoned => exact ⟨Nat.le_succ _, by simp⟩
  | faulted => exact ⟨Nat.le_succ _, by simp⟩
  | replaced =>
    refine ⟨Nat.le_succ _, ?_⟩
    cases s.sessionId <;> simp
  | _ => exact ⟨Nat.le_refl _, by simp [VoiceState.routing]⟩

theorem scheduled_step (hstep : RouteStep s input routing moves) (hrecovering : routing.recovering = true)
    (hattempt : routing.attempt ≠ 0) :
    routing = s.routing ∨ input.isFault = true ∧ .scheduled routing.generation routing.attempt ∈ moves := by
  cases hstep with
  | steadied => cases hrecovering
  | retried => exact absurd rfl hattempt
  | abandoned => cases hrecovering
  | faulted _ hfault => exact .inr ⟨hfault, by simp⟩
  | stopped => cases hrecovering
  | replaced => cases hrecovering
  | _ => exact .inl rfl

theorem opened_step (hrouted : Routed session) (hstep : RouteStep session.state input routing moves)
    (hkeeps : keepsRoutesApart session input = true) (hopened : .opened generation ∈ moves) :
    .opened generation ∉ session.moves ∨ ∃ attempt now, input = .observation (.routeRetryDue generation attempt) now ∧
        FaultScheduled session.log generation attempt := by
  cases hstep with
  | activated sessionId _ hsession =>
    have hsame : generation = session.state.routeGeneration := by simpa using hopened
    exact .inl (by simpa [keepsRoutesApart, hsession, hsame] using hkeeps)
  | retried =>
    have hsame : generation = session.state.routeGeneration + 1 := by simpa using hopened
    refine .inl fun hmem => ?_
    exact Nat.not_succ_le_self _ (hsame ▸ hrouted.bounded generation hmem)
  | due sessionId now hsession hrecovering =>
    have hsame : generation = session.state.routeGeneration := by simpa using hopened
    have hattempt : session.state.retryAttempt ≠ 0 := by
      simpa [keepsRoutesApart, hsession, hrecovering] using hkeeps
    exact .inr ⟨_, now, by rw [hsame], hsame ▸ hrouted.scheduled hrecovering hattempt⟩
  | replaced => cases hsession : session.state.sessionId <;> simp [hsession] at hopened
  | _ => simp at hopened

theorem routed_step (h : Routed session) (hkeeps : keepsRoutesApart session input = true) :
    Routed (session.next platform input) := by
  have hstep := react_routeStep platform session.state input
  rw [RouteStepOf] at hstep
  have hretry : ∀ requestId sessionId, input = .command (.retryRoute requestId sessionId) →
      session.state.requests.find (.retryRoute requestId sessionId) = none →
        session.state.sessionId = some sessionId → session.state.candidate = none ∧
          .opened session.state.routeGeneration ∉ session.moves := by
    rintro requestId sessionId rfl hnew hsession
    simpa [keepsRoutesApart, hnew, hsession] using hkeeps
  obtain ⟨current, hrun, hcurrent⟩ := h.running
  refine ⟨?_, ?_, ?_, ?_⟩
  · exact candidate_generation h.candidate fun requestId sessionId heq hnew hsession =>
      (hretry requestId sessionId heq hnew hsession).1
  · intro generation hmem
    rw [Session.next_moves] at hmem
    obtain ⟨hgrows, hbound⟩ := bounded_step hstep
    rcases List.mem_append.mp hmem with hold | hnew
    · exact (h.bounded generation hold).trans hgrows
    · exact hbound generation hnew
  · obtain ⟨after, hafter, hopen⟩ := running_step hstep hcurrent fun requestId sessionId heq hnew hsession => by
        cases hcases : current with
        | none => rfl
        | some generation =>
          rw [hcases] at hrun
          have hmem := (open_was_opened hrun).resolve_left fun hnone => (by cases hnone)
          rw [(hcurrent generation hcases).1] at hmem
          exact absurd hmem (hretry requestId sessionId heq hnew hsession).2
    refine ⟨after, ?_, hopen⟩
    rw [Session.next_moves, run_append, hrun]
    exact hafter
  · intro hrecovering hattempt
    rcases scheduled_step hstep (beq_iff_eq.mpr hrecovering) hattempt with hsame | ⟨hfault, hmem⟩
    · have hstatus : session.state.sessionStatus = .recovering := by
        have hrecovers := congrArg Routing.recovering hsame
        exact beq_iff_eq.mp (hrecovers.symm.trans (beq_iff_eq.mpr hrecovering))
      have hgeneration : (react platform session.state input).1.routeGeneration =
          session.state.routeGeneration := congrArg Routing.generation hsame
      have hcount : (react platform session.state input).1.retryAttempt =
          session.state.retryAttempt := congrArg Routing.attempt hsame
      rw [Session.next_state] at hattempt ⊢
      rw [hcount] at hattempt ⊢
      rw [hgeneration]
      exact (h.scheduled hstatus hattempt).append
    · exact ⟨⟨session.state, input, (react platform session.state input).2⟩,
        List.mem_append_right _ List.mem_cons_self, hfault, hmem⟩

end Steps

/-! ## Runs -/

/-- As long as no input opens a route over another one, the routes are coherent. -/
theorem route_coherence {platform : Platform} {session : Session}
    (h : Reaches platform (fun session input => keepsRoutesApart session input = true) session) :
    RouteCoherence session := by
  have hboth : Routed session ∧ ∀ before moment after generation,
      session.log = before ++ moment :: after → .opened generation ∈ routeMoves moment.actions →
        .opened generation ∉ routeMoves (before.flatMap Moment.actions) ∨
          ∃ attempt now, moment.input = .observation (.routeRetryDue generation attempt) now ∧
            FaultScheduled before generation attempt := by
    induction h with
    | new =>
      refine ⟨⟨nofun, fun _ hmem => (by cases hmem), ⟨none, rfl, nofun⟩, nofun⟩, ?_⟩
      intro before moment after generation hlog
      simp [Session.new] at hlog
    | next session input _ hkeeps ih =>
      obtain ⟨hrouted, hopenedOnce⟩ := ih
      refine ⟨routed_step hrouted hkeeps, fun before moment after generation hlog hopened => ?_⟩
      rcases List.eq_nil_or_concat after with rfl | ⟨rest, last, rfl⟩
      · obtain ⟨hbefore, hmoment⟩ := List.append_inj' hlog rfl
        cases hmoment
        rw [← hbefore]
        exact opened_step hrouted (react_routeStep platform session.state input) hkeeps hopened
      · have hsplit : before ++ moment :: (rest ++ [last]) = (before ++ moment :: rest) ++ [last] := by simp
        rw [List.concat_eq_append, hsplit] at hlog
        obtain ⟨hbefore, -⟩ := List.append_inj' hlog rfl
        exact hopenedOnce before moment rest generation hbefore hopened
  obtain ⟨hrouted, hopenedOnce⟩ := hboth
  obtain ⟨current, hrun, -⟩ := hrouted.running
  refine ⟨fun candidate hcandidate => ?_, hopenedOnce, ?_⟩
  · exact hrouted.candidate candidate.hearing (by rw [VoiceState.hearing, hcandidate]; rfl)
  · intro before generation between later after hmoves hlater
    rw [hmoves] at hrun
    exact closed_between hrun hlater

/-- A route that is opened, fails, and is opened again. -/
def routeInputs : List Input :=
  [.observation (.modelsPrepared true true) 0, .command (.startSession "r1" none none),
    .observation (.environmentActivated "boot-s-1") 1]

theorem route_coherence_fault : RouteCoherence ((Session.new "boot" .default).run plainPlatform
    (routeInputs ++ [.observation (.vadStarted "c1" 1 false .converged) 2,
      .observation (.routeFault 1 true) 3, .observation (.routeRetryDue 2 1) 4,
      .observation (.routeFault 2 true) 5, .command (.retryRoute "r2" "boot-s-1")])) :=
  route_coherence ((Reaches.new "boot" .default).run _ (by decide +kernel))

/-- A retry on command leaves the route of the generation before it open. -/
theorem retried_route_unclosed : ¬ ∀ platform session, Reachable platform session → RouteCoherence session := by
  intro h
  have hcoherent := h plainPlatform _ ((Reaches.new "boot" .default).run
    (routeInputs ++ [.command (.retryRoute "r2" "boot-s-1")]) (by decide +kernel))
  have hmoves : Session.moves ((Session.new "boot" .default).run plainPlatform
      (routeInputs ++ [.command (.retryRoute "r2" "boot-s-1")])) =
        [] ++ .opened 1 :: [] ++ .opened 2 :: [] := by decide +kernel
  exact absurd (hcoherent.closedBetween _ _ _ _ _ hmoves (by decide)) (by decide)

end AvenOS.Voice
