import AvenOS.Foundations.Lifecycle
import AvenOS.Voice.CandidateSteps

/-! # The life of a candidate

A candidate begins, is heard, and ends; while one is heard no other begins and no session stops. The log of a
run is accepted by this rule as long as no session starts over a candidate. -/
namespace AvenOS.Voice
open AvenOS.LabelledRun AvenOS.Lifecycle

/-! ## What a log of utterances promises -/

/-- How often a candidate ends. -/
def endings (candidateId : CandidateId) (log : List Utterance) : ℕ :=
  log.count (.finished candidateId) + log.count (.discarded candidateId)

/-- The next candidate, or the end of the session. -/
def Utterance.interrupts : Utterance → Prop
  | .started _ => True
  | .sessionStopped => True
  | _ => False

/-- Something between the beginning and the end of a candidate. -/
def Utterance.within : Utterance → Option CandidateId
  | .shown candidateId => some candidateId
  | .confirmed candidateId => some candidateId
  | .identified candidateId => some candidateId
  | _ => none

structure InputLifecycle (log : List Utterance) : Prop where
  endsOnce : ∀ before candidateId after, log = before ++ .started candidateId :: after →
    endings candidateId after ≤ 1
  endsBefore : ∀ before candidateId between event after,
    log = before ++ .started candidateId :: between ++ event :: after → event.interrupts →
      endings candidateId between = 1
  within : ∀ before event candidateId after, log = before ++ event :: after →
    event.within = some candidateId → .started candidateId ∈ before ∧ endings candidateId before = 0
  endsStarted : ∀ before event candidateId after, log = before ++ event :: after →
    event = .finished candidateId ∨ event = .discarded candidateId →
      .started candidateId ∈ before ∧ endings candidateId before = 0
  confirmedOnce : ∀ candidateId, log.count (.confirmed candidateId) ≤ 1
  finishedConfirmed : ∀ before candidateId after, log = before ++ .finished candidateId :: after →
    .confirmed candidateId ∈ before

/-! ## Stages -/

def Utterance.stages : Utterance → List (Stage CandidateId)
  | .started candidateId => [.idle, .began candidateId]
  | .shown candidateId => [.ongoing candidateId]
  | .confirmed candidateId => [.ongoing candidateId]
  | .identified candidateId => [.ongoing candidateId]
  | .finished candidateId => [.ended candidateId]
  | .discarded candidateId => [.ended candidateId]
  | .sessionStopped => [.idle]

def Utterance.confirmations : Utterance → List (Stage CandidateId)
  | .confirmed candidateId => [.began candidateId]
  | .finished candidateId => [.ongoing candidateId]
  | _ => []

def lives (log : List Utterance) : List (Stage CandidateId) := log.flatMap Utterance.stages

def confirmations (log : List Utterance) : List (Stage CandidateId) := log.flatMap Utterance.confirmations

variable {log before after : List Utterance} {candidateId : CandidateId} {event : Utterance}

@[simp] theorem lives_append : lives (log ++ after) = lives log ++ lives after := List.flatMap_append

@[simp] theorem lives_cons : lives (event :: log) = event.stages ++ lives log := List.flatMap_cons

@[simp] theorem confirmations_append :
    confirmations (log ++ after) = confirmations log ++ confirmations after := List.flatMap_append

@[simp] theorem confirmations_cons :
    confirmations (event :: log) = event.confirmations ++ confirmations log := List.flatMap_cons

theorem count_ended : (lives log).count (.ended candidateId) = endings candidateId log := by
  induction log with
  | nil => rfl
  | cons event log ih =>
    rw [lives_cons, List.count_append, ih, endings, endings, List.count_cons, List.count_cons]
    cases event <;> simp [Utterance.stages, List.count_cons] <;> omega

theorem mem_lives_began : .began candidateId ∈ lives log ↔ .started candidateId ∈ log := by
  rw [lives, List.mem_flatMap]
  constructor
  · rintro ⟨event, hevent, hstage⟩
    cases event <;> simp [Utterance.stages] at hstage
    rwa [hstage]
  · intro hstarted
    exact ⟨_, hstarted, by simp [Utterance.stages]⟩

theorem mem_confirmations_began : .began candidateId ∈ confirmations log ↔ .confirmed candidateId ∈ log := by
  rw [confirmations, List.mem_flatMap]
  constructor
  · rintro ⟨event, hevent, hstage⟩
    cases event <;> simp [Utterance.confirmations] at hstage
    rwa [hstage]
  · intro hconfirmed
    exact ⟨_, hconfirmed, by simp [Utterance.confirmations]⟩

theorem began_of_live (hlive : .began candidateId ∈ lives log ∧ .ended candidateId ∉ lives log) :
    .started candidateId ∈ log ∧ endings candidateId log = 0 :=
  ⟨mem_lives_began.1 hlive.1, by rw [← count_ended]; exact List.count_eq_zero.mpr hlive.2⟩

variable {ledger confirmed : Ledger CandidateId}

theorem inputLifecycle_of_run (hlives : run Ledger.next .empty (lives log) = some ledger)
    (hconfirmed : run Ledger.next .empty (confirmations log) = some confirmed) : InputLifecycle log where
  endsOnce := by
    rintro before candidateId after rfl
    rw [← count_ended]
    have hsplit : lives (before ++ .started candidateId :: after) =
        (lives before ++ [.idle]) ++ .began candidateId :: lives after := by
      simp [Utterance.stages]
    rw [hsplit] at hlives
    exact (ended_once hlives).1
  endsBefore := by
    rintro before candidateId between event after rfl hinterrupts
    rw [← count_ended]
    obtain ⟨rest, hrest⟩ : ∃ rest, event.stages = .idle :: rest := by
      cases event <;> first | exact ⟨_, rfl⟩ | cases hinterrupts
    have hsplit : lives (before ++ .started candidateId :: between ++ event :: after) =
        (lives before ++ [.idle]) ++ .began candidateId :: lives between ++ .idle :: (rest ++ lives after) := by
      have hbegan : (Utterance.started candidateId).stages = [.idle, .began candidateId] := rfl
      simp [hrest, hbegan]
    rw [hsplit] at hlives
    exact ended_before_idle hlives
  within := by
    rintro before event candidateId after rfl hwithin
    have hstages : event.stages = [.ongoing candidateId] := by
      cases event <;> cases hwithin <;> rfl
    rw [lives_append, lives_cons, hstages] at hlives
    exact began_of_live (begun_before hlives rfl nofun)
  endsStarted := by
    rintro before event candidateId after rfl hends
    have hstages : event.stages = [.ended candidateId] := by
      rcases hends with rfl | rfl <;> rfl
    rw [lives_append, lives_cons, hstages] at hlives
    exact began_of_live (begun_before hlives rfl nofun)
  confirmedOnce := by
    intro candidateId
    by_cases hmem : .confirmed candidateId ∈ log
    · obtain ⟨before, after, rfl⟩ := List.append_of_mem hmem
      have hbegan : (Utterance.confirmed candidateId).confirmations = [.began candidateId] := rfl
      rw [confirmations_append, confirmations_cons, hbegan, List.singleton_append] at hconfirmed
      obtain ⟨hbefore, hafter⟩ := began_once hconfirmed
      rw [mem_confirmations_began] at hbefore hafter
      rw [List.count_append, List.count_cons_self, List.count_eq_zero.mpr hbefore, List.count_eq_zero.mpr hafter]
    · rw [List.count_eq_zero.mpr hmem]
      exact Nat.zero_le 1
  finishedConfirmed := by
    rintro before candidateId after rfl
    rw [confirmations_append, confirmations_cons] at hconfirmed
    exact mem_confirmations_began.1 (begun_before hconfirmed rfl nofun).1

/-! ## Runs -/

def Input.vadCandidate : Input → Option CandidateId
  | .observation (.vadStarted candidateId _ _ _) _ => some candidateId
  | _ => none

/-- No candidate identifier is reported as started twice. -/
def FreshCandidate (session : Session) (input : Input) : Prop :=
  ∀ candidateId ∈ input.vadCandidate, ∀ moment ∈ session.log,
    moment.input.vadCandidate ≠ some candidateId

instance (session : Session) (input : Input) : Decidable (FreshCandidate session input) :=
  inferInstanceAs (Decidable (∀ candidateId ∈ input.vadCandidate, ∀ moment ∈ session.log,
    moment.input.vadCandidate ≠ some candidateId))

def dropsCandidate (s : VoiceState) : Input → Bool
  | .command (.startSession requestId preferredInput preferredOutput) =>
    (s.requests.find (.startSession requestId preferredInput preferredOutput)).isNone &&
      s.inputReady && s.outputReady && s.candidate.isSome
  | _ => false

structure Heard (log : List Utterance) (hearing : Option Hearing) (ledger confirmed : Ledger CandidateId) :
    Prop where
  lives : run Ledger.next .empty (lives log) = some ledger
  confirmations : run Ledger.next .empty (Voice.confirmations log) = some confirmed
  live : ledger.live = (hearing.map Hearing.id).toList
  stays : confirmed.live = confirmed.seen
  known : ∀ candidateId ∈ confirmed.seen, candidateId ∈ ledger.seen
  current : ∀ heard, hearing = some heard → (heard.confirmed = true ↔ heard.id ∈ confirmed.seen)

section Heard
variable {hearing : Option Hearing} {heard : Hearing} {ledger confirmed : Ledger CandidateId}
  {events : List Utterance}

theorem Heard.remarks (h : Heard log (some heard) ledger confirmed) (hevents : Remarks heard.id events) :
    Heard (log ++ events) (some heard) ledger confirmed := by
  have hlive : heard.id ∈ ledger.live := by rw [h.live]; exact List.mem_singleton_self _
  have hstays : ∀ event ∈ events, event.stages = [.ongoing heard.id] ∧ event.confirmations = [] := by
    intro event hevent
    rcases hevents event hevent with rfl | rfl <;> exact ⟨rfl, rfl⟩
  have hruns : run Ledger.next ledger (Voice.lives events) = some ledger ∧
      run Ledger.next confirmed (Voice.confirmations events) = some confirmed := by
    clear hevents
    induction events with
    | nil => exact ⟨rfl, rfl⟩
    | cons event events ih =>
      obtain ⟨hstage, hsilent⟩ := hstays event List.mem_cons_self
      obtain ⟨hlives, hconfirmations⟩ := ih fun event hevent => hstays event (List.mem_cons_of_mem _ hevent)
      rw [lives_cons, confirmations_cons, hstage, hsilent]
      refine ⟨?_, hconfirmations⟩
      rw [List.singleton_append, run, Ledger.next, if_pos hlive]
      exact hlives
  refine { h with lives := ?_, confirmations := ?_ }
  · rw [lives_append, run_append, h.lives]
    exact hruns.1
  · rw [confirmations_append, run_append, h.confirmations]
    exact hruns.2

theorem Heard.congr (h : Heard log (some heard) ledger confirmed) {other : Hearing} (hid : other.id = heard.id)
    (hconfirmed : other.confirmed = heard.confirmed) : Heard log (some other) ledger confirmed :=
  { h with
    live := by rw [h.live, Option.map_some, Option.map_some, hid]
    current := by
      rintro _ ⟨⟩
      rw [hconfirmed, hid]
      exact h.current heard rfl }

theorem Heard.start (heard : Hearing) (h : Heard log none ledger confirmed) (hfresh : heard.id ∉ ledger.seen)
    (hconfirmed : heard.confirmed = false) :
    Heard (log ++ [.started heard.id]) (some heard) ⟨heard.id :: ledger.seen, heard.id :: ledger.live⟩ confirmed where
  lives := by
    have hlive : ledger.live = [] := h.live
    rw [lives_append, run_append, h.lives]
    simp [Voice.lives, Utterance.stages, run, Ledger.next, hlive, hfresh]
  confirmations := by
    rw [confirmations_append, run_append, h.confirmations]
    rfl
  live := by
    have hlive : ledger.live = [] := h.live
    rw [hlive]
    rfl
  stays := h.stays
  known := fun candidateId hmem => List.mem_cons_of_mem _ (h.known candidateId hmem)
  current := by
    rintro _ ⟨⟩
    rw [hconfirmed]
    exact ⟨fun hfalse => (by cases hfalse), fun hmem => absurd (h.known _ hmem) hfresh⟩

theorem Heard.confirm (h : Heard log (some heard) ledger confirmed) (hfresh : heard.confirmed = false) :
    Heard (log ++ [.confirmed heard.id]) (some { heard with confirmed := true }) ledger
      ⟨heard.id :: confirmed.seen, heard.id :: confirmed.live⟩ := by
  have hlive : heard.id ∈ ledger.live := by rw [h.live]; exact List.mem_singleton_self _
  have hunseen : heard.id ∉ confirmed.seen := by
    rw [← h.current heard rfl, hfresh]
    exact nofun
  refine ⟨?_, ?_, h.live, by rw [h.stays], ?_, ?_⟩
  · rw [lives_append, run_append, h.lives]
    simp [Voice.lives, Utterance.stages, run, Ledger.next, hlive]
  · rw [confirmations_append, run_append, h.confirmations]
    simp [Voice.confirmations, Utterance.confirmations, run, Ledger.next, hunseen]
  · intro candidateId hmem
    rcases List.mem_cons.mp hmem with rfl | hold
    · exact (sound_empty.run h.lives).seen _ hlive
    · exact h.known candidateId hold
  · rintro _ ⟨⟩
    exact ⟨fun _ => List.mem_cons_self, fun _ => rfl⟩

theorem Heard.finish (h : Heard log (some heard) ledger confirmed) (hconfirmed : heard.confirmed = true) :
    Heard (log ++ [.finished heard.id]) none ⟨ledger.seen, []⟩ confirmed := by
  have hlive : ledger.live = [heard.id] := h.live
  have hmem : heard.id ∈ confirmed.live := by
    rw [h.stays]
    exact (h.current heard rfl).mp hconfirmed
  refine ⟨?_, ?_, rfl, h.stays, h.known, nofun⟩
  · rw [lives_append, run_append, h.lives]
    simp [Voice.lives, Utterance.stages, run, Ledger.next, hlive]
  · rw [confirmations_append, run_append, h.confirmations]
    simp [Voice.confirmations, Utterance.confirmations, run, Ledger.next, hmem]

theorem Heard.discard (h : Heard log (some heard) ledger confirmed) :
    Heard (log ++ [.discarded heard.id]) none ⟨ledger.seen, []⟩ confirmed := by
  have hlive : ledger.live = [heard.id] := h.live
  refine ⟨?_, ?_, rfl, h.stays, h.known, nofun⟩
  · rw [lives_append, run_append, h.lives]
    simp [Voice.lives, Utterance.stages, run, Ledger.next, hlive]
  · rw [confirmations_append, run_append, h.confirmations]
    rfl

theorem Heard.stop (h : Heard log none ledger confirmed) : Heard (log ++ [.sessionStopped]) none ledger confirmed := by
  have hlive : ledger.live = [] := h.live
  refine ⟨?_, ?_, hlive, h.stays, h.known, nofun⟩
  · rw [lives_append, run_append, h.lives]
    simp [Voice.lives, Utterance.stages, run, Ledger.next, hlive]
  · rw [confirmations_append, run_append, h.confirmations]
    rfl

end Heard

theorem heard_step {s : VoiceState} {input : Input} {hearing : Option Hearing} {events : List Utterance}
    (hstep : CandidateStep s input hearing events) (h : Heard log s.hearing ledger confirmed)
    (hfresh : ∀ candidateId ∈ input.vadCandidate, candidateId ∉ ledger.seen) (hkeeps : dropsCandidate s input = false) :
    ∃ ledger' confirmed', Heard (log ++ events) hearing ledger' confirmed' ∧
      ∀ candidateId ∈ ledger'.seen, candidateId ∈ ledger.seen ∨ input.vadCandidate = some candidateId := by
  cases hstep with
  | kept => exact ⟨ledger, confirmed, by rwa [List.append_nil], fun _ => .inl⟩
  | remarked _ _ _ hhearing hevents =>
    rw [hhearing] at h
    exact ⟨ledger, confirmed, h.remarks hevents, fun _ => .inl⟩
  | started candidateId _ _ _ hnone isUnsafe =>
    rw [hnone] at h
    have hstarted := h.start ⟨candidateId, s.routeGeneration, isUnsafe, isUnsafe, false⟩ (hfresh candidateId rfl) rfl
    refine ⟨_, _, hstarted, fun other hmem => ?_⟩
    rcases List.mem_cons.mp hmem with rfl | hold
    · exact .inr rfl
    · exact .inl hold
  | heard _ _ _ _ _ _ hhearing _ hevents =>
    rw [hhearing] at h
    exact ⟨ledger, confirmed, (h.remarks hevents).congr rfl rfl, fun _ => .inl⟩
  | confirmed hearing marked _ _ _ _ before after hhearing hmarked _ hunconfirmed _ hbefore hafter =>
    rw [hhearing] at h
    have hconfirmed := (h.remarks hbefore).confirm hunconfirmed
    have hremarked := hconfirmed.remarks hafter
    rw [List.append_assoc, List.append_assoc] at hremarked
    exact ⟨_, _, hremarked.congr (by rw [hmarked]; rfl) rfl, fun _ => .inl⟩
  | finished hearing _ _ _ _ events hhearing hconfirmed hevents =>
    rw [hhearing] at h
    have hfinished := (h.remarks hevents).finish hconfirmed
    rw [List.append_assoc] at hfinished
    exact ⟨_, _, hfinished, fun _ => .inl⟩
  | confirmedFinished hearing marked _ _ _ _ events hhearing _ _ hunconfirmed _ hevents =>
    rw [hhearing] at h
    have hconfirmed := h.confirm hunconfirmed
    have hfinished := (hconfirmed.remarks hevents).finish rfl
    rw [List.append_assoc, List.append_assoc] at hfinished
    exact ⟨_, _, hfinished, fun _ => .inl⟩
  | discarded _ hearing hhearing =>
    rw [hhearing] at h
    exact ⟨_, _, h.discard, fun _ => .inl⟩
  | stopped =>
    rw [← List.append_assoc]
    cases hhearing : s.hearing with
    | none =>
      rw [hhearing] at h
      exact ⟨ledger, confirmed, (by simpa using h.stop), fun _ => .inl⟩
    | some hearing =>
      rw [hhearing] at h
      exact ⟨_, _, h.discard.stop, fun _ => .inl⟩
  | replaced _ _ _ hready hnew =>
    have hnone : s.hearing = none := by
      rw [VoiceState.hearing_none]
      simpa [dropsCandidate, hnew, Bool.and_eq_true_iff.mp hready] using hkeeps
    rw [hnone] at h
    refine ⟨ledger, confirmed, ?_, fun _ => .inl⟩
    cases s.sessionId with
    | none => simpa using h
    | some _ => exact h.stop

theorem reaches_heard {platform : Platform} {session : Session} (h : Reaches platform (fun session input =>
      FreshCandidate session input ∧ dropsCandidate session.state input = false) session) :
    ∃ ledger confirmed, Heard (utterances session.actions) session.state.hearing ledger confirmed ∧
      ∀ candidateId ∈ ledger.seen, ∃ moment ∈ session.log, moment.input.vadCandidate = some candidateId := by
  induction h with
  | new => exact ⟨.empty, .empty, ⟨rfl, rfl, rfl, rfl, nofun, nofun⟩, nofun⟩
  | next session input _ hmet ih =>
    obtain ⟨ledger, confirmed, hheard, hknown⟩ := ih
    obtain ⟨hfresh, hkeeps⟩ := hmet
    obtain ⟨ledger', confirmed', hheard', hnew⟩ := heard_step (react_candidateStep platform session.state input) hheard
        (fun candidateId hcandidate hseen => by
          obtain ⟨moment, hmoment, hsame⟩ := hknown candidateId hseen
          exact hfresh candidateId hcandidate moment hmoment hsame) hkeeps
    refine ⟨ledger', confirmed', by rwa [Session.next_actions, utterances_append], ?_⟩
    intro candidateId hseen
    rcases hnew candidateId hseen with hold | hinput
    · obtain ⟨moment, hmoment, hsame⟩ := hknown candidateId hold
      exact ⟨moment, List.mem_append_left _ hmoment, hsame⟩
    · exact ⟨⟨session.state, input, (react platform session.state input).2⟩,
        List.mem_append_right _ List.mem_cons_self, hinput⟩

/-- Unless a session starts over a candidate, every candidate that starts ends once, before the next one
and before its session is closed or replaced. -/
theorem candidate_lifecycle {platform : Platform} {session : Session}
    (h : Reaches platform (fun session input =>
      FreshCandidate session input ∧ dropsCandidate session.state input = false) session) :
    InputLifecycle (utterances session.actions) := by
  obtain ⟨ledger, confirmed, hheard, -⟩ := reaches_heard h
  exact inputLifecycle_of_run hheard.lives hheard.confirmations

/-! ## Runs with and without a new session -/

def candidateInputs : List Input :=
  [.observation (.modelsPrepared true true) 0, .command (.startSession "r1" none none),
    .observation (.vadStarted "c1" 1 false .converged) 1]

theorem candidate_lifecycle_finished : InputLifecycle (utterances (Session.actions
    ((Session.new "boot" .default).run plainPlatform (candidateInputs ++
      [.observation (.recognizerFinal "c1" 1 "hello" false true) 2,
        .command (.startSession "r2" none none)])))) :=
  candidate_lifecycle ((Reaches.new "boot" .default).run _ (by decide +kernel))

/-- A session that starts over a candidate leaves it without an end. -/
theorem superseded_candidate_unfinished : ¬ ∀ platform session, Reaches platform FreshCandidate session →
    InputLifecycle (utterances session.actions) := by
  intro h
  have hlog : utterances (Session.actions ((Session.new "boot" .default).run plainPlatform
      (candidateInputs ++ [.command (.startSession "r2" none none)]))) =
        [.started "c1", .sessionStopped] := by decide +kernel
  have hlifecycle := h plainPlatform _ ((Reaches.new "boot" .default).run
    (candidateInputs ++ [.command (.startSession "r2" none none)]) (by decide +kernel))
  rw [hlog] at hlifecycle
  exact absurd (hlifecycle.endsBefore [] "c1" [] .sessionStopped [] rfl trivial) (by decide)

end AvenOS.Voice
