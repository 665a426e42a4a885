import AvenOS.Voice.PlaybackLifecycle
import AvenOS.Voice.Requests
import AvenOS.Voice.SpeechSteps

/-! # The segments of a turn

The synthesizer gets the segments of a turn in order, each once, and none after the turn has been finished or
cut off. Not more of them wait than the queue holds. -/
namespace AvenOS.Voice
open AvenOS.LabelledRun

/-! ## Streams -/

def saidOf (turnId : TurnId) (said : List (TurnId × Voiced)) : List Voiced :=
  (said.filter fun entry => entry.1 = turnId).map Prod.snd

theorem saidOf_append (turnId : TurnId) (said more : List (TurnId × Voiced)) :
    saidOf turnId (said ++ more) = saidOf turnId said ++ saidOf turnId more := by
  rw [saidOf, List.filter_append, List.map_append]
  rfl

theorem saidOf_self (turnId : TurnId) (voiced : Voiced) : saidOf turnId [(turnId, voiced)] = [voiced] := by
  simp [saidOf]

variable {turnId : TurnId} {index : ℕ} {text : String} {line : Option Line} {ids : IdGenerator} {requestId : RequestId}
  {sessionId : SessionId}

theorem saidOf_other {other : TurnId} (voiced : Voiced) (h : other ≠ turnId) :
    saidOf turnId [(other, voiced)] = [] := by
  simp [saidOf, h]

theorem mem_saidOf {voiced : Voiced} {said : List (TurnId × Voiced)} :
    voiced ∈ saidOf turnId said ↔ (turnId, voiced) ∈ said := by
  rw [saidOf, List.mem_map]
  constructor
  · rintro ⟨⟨other, _⟩, hmem, rfl⟩
    obtain ⟨hmem, hid⟩ := List.mem_filter.mp hmem
    exact of_decide_eq_true hid ▸ hmem
  · intro hmem
    exact ⟨(turnId, voiced), List.mem_filter.mpr ⟨hmem, decide_eq_true rfl⟩, rfl⟩

/-- The segments, numbered from the first one. -/
def streamOf (segments : List String) : List Voiced := segments.mapIdx Voiced.segment

theorem streamOf_concat (segments : List String) (text : String) :
    streamOf (segments ++ [text]) = streamOf segments ++ [.segment segments.length text] :=
  List.mapIdx_concat

theorem mem_streamOf {segments : List String} :
    .segment index text ∈ streamOf segments ↔ segments[index]? = some text := by
  rw [streamOf, List.mem_mapIdx]
  constructor
  · rintro ⟨i, hi, hsame⟩
    obtain ⟨rfl, rfl⟩ := Voiced.segment.inj hsame
    exact List.getElem?_eq_getElem hi
  · intro hindex
    obtain ⟨hi, hsame⟩ := List.getElem?_eq_some_iff.mp hindex
    exact ⟨index, hi, by rw [hsame]⟩

/-- How a stream may end: it is open, or the turn has been finished, cut off, or both. -/
def streamEndings : List (List Voiced) := [[], [.finish], [.cut], [.finish, .cut]]

/-- What has been said of the turn that speaks. -/
def Line.said (line : Line) : List Voiced :=
  streamOf line.segments ++ if line.finished then [.finish] else []

theorem Line.mem_said {line : Line} : .segment index text ∈ line.said ↔ line.segments[index]? = some text := by
  rw [said, List.mem_append, mem_streamOf]
  refine ⟨fun h => h.resolve_right ?_, .inl⟩
  split <;> simp

/-! ## Streams and their log -/

structure Spoke (said : List (TurnId × Voiced)) (line : Option Line) (ids : IdGenerator) : Prop where
  known : ∀ entry ∈ said, ∃ n < ids.next, entry.1 = IdGenerator.value ⟨ids.bootNonce, n⟩ "t"
  speaking : ∀ current, line = some current →
    (∃ n < ids.next, current.turnId = IdGenerator.value ⟨ids.bootNonce, n⟩ "t") ∧
      saidOf current.turnId said = current.said
  streams : ∀ turnId, ∃ segments, ∃ ending ∈ streamEndings, saidOf turnId said = streamOf segments ++ ending

section Spoke
variable {said : List (TurnId × Voiced)} {line : Option Line} {ids after : IdGenerator} {current : Line}

theorem Spoke.later (h : Spoke said line ids) (hids : ids.Before after) : Spoke said line after where
  known := by
    intro entry hmem
    obtain ⟨n, hn, hvalue⟩ := h.known entry hmem
    exact ⟨n, Nat.lt_of_lt_of_le hn hids.next, by rw [hids.bootNonce]; exact hvalue⟩
  speaking := by
    intro current hline
    obtain ⟨⟨n, hn, hvalue⟩, hsaid⟩ := h.speaking current hline
    exact ⟨⟨n, Nat.lt_of_lt_of_le hn hids.next, by rw [hids.bootNonce]; exact hvalue⟩, hsaid⟩
  streams := h.streams

theorem Spoke.say (h : Spoke said (some current) ids) (voiced : Voiced) {next : Option Line}
    (hnext : ∀ line, next = some line → line.turnId = current.turnId ∧ line.said = current.said ++ [voiced])
    (hstream : ∃ segments, ∃ ending ∈ streamEndings, current.said ++ [voiced] = streamOf segments ++ ending) :
    Spoke (said ++ [(current.turnId, voiced)]) next ids where
  known := by
    intro entry hmem
    rcases List.mem_append.mp hmem with hold | hlast
    · exact h.known entry hold
    · rw [List.mem_singleton.mp hlast]
      exact (h.speaking current rfl).1
  speaking := by
    intro line hline
    obtain ⟨hid, hsaid⟩ := hnext line hline
    obtain ⟨hvalue, hcurrent⟩ := h.speaking current rfl
    rw [hid]
    exact ⟨hvalue, by rw [saidOf_append, saidOf_self, hcurrent, hsaid]⟩
  streams := by
    intro turnId
    rw [saidOf_append]
    by_cases hid : current.turnId = turnId
    · rw [← hid, saidOf_self, (h.speaking current rfl).2]
      exact hstream
    · rw [saidOf_other voiced hid, List.append_nil]
      exact h.streams turnId

theorem Spoke.queue (h : Spoke said (some current) ids) (hopen : current.finished = false) (text : String) :
    Spoke (said ++ [(current.turnId, .segment current.segments.length text)])
      (some { current with segments := current.segments ++ [text] }) ids := by
  have hsaid : Line.said { current with segments := current.segments ++ [text] } =
      current.said ++ [.segment current.segments.length text] := by
    simp [Line.said, hopen, streamOf_concat]
  refine h.say _ (fun line hline => ?_) ⟨current.segments ++ [text], [], by simp [streamEndings], ?_⟩
  · cases hline
    exact ⟨rfl, hsaid⟩
  · simp [Line.said, hopen, streamOf_concat]

theorem Spoke.finish (h : Spoke said (some current) ids) (hopen : current.finished = false) :
    Spoke (said ++ [(current.turnId, .finish)]) (some { current with finished := true }) ids := by
  refine h.say _ (fun line hline => ?_) ⟨current.segments, [.finish], by simp [streamEndings], ?_⟩
  · cases hline
    exact ⟨rfl, by simp [Line.said, hopen]⟩
  · simp [Line.said, hopen]

theorem Spoke.cutOff (h : Spoke said line ids) :
    Spoke (said ++ line.toList.map fun line => (line.turnId, .cut)) none ids := by
  cases line with
  | none => simpa using h
  | some current =>
    refine h.say .cut nofun ?_
    cases hfinished : current.finished with
    | false => exact ⟨current.segments, [.cut], by simp [streamEndings], by simp [Line.said, hfinished]⟩
    | true => exact ⟨current.segments, [.finish, .cut], by simp [streamEndings], by simp [Line.said, hfinished]⟩

theorem Spoke.begin (h : Spoke said none ids) : Spoke said (some ⟨ids.value "t", [], 0, false⟩) ids.advance where
  known := by
    intro entry hmem
    obtain ⟨n, hn, hvalue⟩ := h.known entry hmem
    exact ⟨n, Nat.lt_succ_of_lt hn, hvalue⟩
  speaking := by
    rintro _ ⟨⟩
    refine ⟨⟨ids.next, Nat.lt_succ_self _, rfl⟩, ?_⟩
    have hnone : saidOf (ids.value "t") said = [] := by
      rw [List.eq_nil_iff_forall_not_mem]
      intro voiced hmem
      obtain ⟨n, hn, hvalue⟩ := h.known _ (mem_saidOf.1 hmem)
      have hsame := value_injective (n := ids.next) (m := n) hvalue
      omega
    exact hnone
  streams := h.streams

theorem Spoke.quietly (h : Spoke said (some current) ids) {next : Line} (hid : next.turnId = current.turnId)
    (hsaid : next.said = current.said) : Spoke said (some next) ids where
  known := h.known
  speaking := by
    rintro _ ⟨⟩
    rw [hid, hsaid]
    exact h.speaking current rfl
  streams := h.streams

end Spoke

variable {s : VoiceState} {input : Input} {platform : Platform} {session : Session} {turnId : TurnId}
    {segmentIndex : ℕ} {text : String}

theorem spoke_step {more said : List (TurnId × Voiced)} (hstep : SpeechStep s input line ids more)
    (h : Spoke said s.line s.ids) : Spoke (said ++ more) line ids := by
  cases hstep with
  | mute _ _ hids =>
    rw [List.append_nil]
    exact h.later hids
  | cut _ _ hids => exact h.cutOff.later hids
  | begun => exact h.cutOff.begin
  | queued _ _ text line hline hopen =>
    rw [hline] at h
    exact h.queue hopen text
  | finished _ line hline hopen =>
    rw [hline] at h
    exact h.finish hopen
  | started _ _ _ line hline =>
    rw [hline] at h
    rw [List.append_nil]
    exact h.quietly rfl rfl
  | completed _ line hline =>
    rw [List.append_nil]
    exact ⟨h.known, nofun, h.streams⟩

theorem reachable_spoke (h : Reachable platform session) :
    Spoke (speech session.actions) session.state.line session.state.ids := by
  induction h with
  | new => exact ⟨nofun, nofun, fun turnId => ⟨[], [], by simp [streamEndings], rfl⟩⟩
  | next session input _ _ ih =>
    rw [Session.next_actions, speech_append]
    exact spoke_step (react_speechStep platform session.state input).step ih

/-! ## Accepted segments -/

def Moment.Accepts (platform : Platform) (moment : Moment) (turnId : TurnId) (segmentIndex : ℕ)
    (text : String) : Prop :=
  ∃ requestId sessionId idempotent remaining,
    moment.input = .command (.enqueueSpeech requestId sessionId turnId segmentIndex text) ∧
      (moment.state.command platform (.enqueueSpeech requestId sessionId turnId segmentIndex text)).result =
        .ok (.enqueued idempotent remaining)

theorem enqueue_applied (platform : Platform)
    (hnew : s.requests.find (.enqueueSpeech requestId sessionId turnId segmentIndex text) = none) :
    (s.command platform (.enqueueSpeech requestId sessionId turnId segmentIndex text)).result =
        (s.enqueueSpeech platform sessionId turnId segmentIndex text).result ∧
      (s.command platform (.enqueueSpeech requestId sessionId turnId segmentIndex text)).state.turn =
        (s.enqueueSpeech platform sessionId turnId segmentIndex text).state.turn ∧
      (s.command platform (.enqueueSpeech requestId sessionId turnId segmentIndex text)).actions =
        (s.enqueueSpeech platform sessionId turnId segmentIndex text).actions := by
  rw [VoiceState.command, hnew]
  exact ⟨rfl, rfl, rfl⟩

theorem segment_said (h : (turnId, .segment segmentIndex text) ∈ speech (react platform s input).2) :
    Moment.Accepts platform ⟨s, input, (react platform s input).2⟩ turnId segmentIndex text ∧
      ∃ line, s.line = some line ∧ line.turnId = turnId ∧ line.segments.length = segmentIndex := by
  have hstep := (react_speechStep platform s input).step
  generalize hsaid : speech (react platform s input).2 = said at hstep h
  generalize (react platform s input).1.line = next at hstep
  generalize (react platform s input).1.ids = ids at hstep
  cases hstep with
  | mute => cases h
  | cut =>
    obtain ⟨_, -, hsame⟩ := List.mem_map.mp h
    cases hsame
  | begun =>
    obtain ⟨_, -, hsame⟩ := List.mem_map.mp h
    cases hsame
  | finished _ line => cases List.mem_singleton.mp h
  | started => cases h
  | completed => cases h
  | queued requestId sessionId queuedText line hline hopen hroom hnew =>
    obtain ⟨rfl, rfl, rfl⟩ : turnId = line.turnId ∧ segmentIndex = line.segments.length ∧ text = queuedText := by
      simpa using List.mem_singleton.mp h
    refine ⟨?_, line, hline, rfl, rfl⟩
    obtain ⟨hresult, -, hactions⟩ := enqueue_applied platform hnew
    have hsaid : speech (s.enqueueSpeech platform sessionId line.turnId line.segments.length text).actions =
        [(line.turnId, .segment line.segments.length text)] := hactions ▸ hsaid
    rcases s.enqueueSpeech_cases platform sessionId line.turnId line.segments.length text with
      ⟨error, hrejected⟩ | ⟨turn, hturn, hid, -, ⟨-, hagain⟩ | ⟨-, -, hqueued⟩⟩
    · rw [hrejected] at hsaid
      cases hsaid
    · rw [hagain] at hsaid
      cases hsaid
    · rw [hqueued] at hresult
      exact ⟨requestId, sessionId, _, _, rfl, hresult⟩

theorem applied_input {moment : Moment} {command : Command} (h : moment.applied = some command) :
    moment.input = .command command := by
  unfold Moment.applied at h
  split at h
  · rename_i other hinput
    split at h
    · cases h
    · cases h
      exact hinput
  · cases h

theorem accepted_said (h : Reachable platform session) :
    ∀ moment ∈ session.log, ∀ turnId segmentIndex text, moment.Accepts platform turnId segmentIndex text →
      (turnId, .segment segmentIndex text) ∈ speech session.actions := by
  induction h with
  | new => exact fun _ hmem => absurd hmem List.not_mem_nil
  | next session input h _ ih =>
    intro moment hmem turnId segmentIndex text haccepts
    rw [Session.next_actions, speech_append, List.mem_append]
    rcases List.mem_append.mp hmem with hold | hlast
    · exact .inl (ih moment hold turnId segmentIndex text haccepts)
    · rw [List.mem_singleton.mp hlast] at haccepts
      obtain ⟨requestId, sessionId, idempotent, remaining, hinput, hresult⟩ := haccepts
      change input = _ at hinput
      change (session.state.command platform _).result = _ at hresult
      cases hfind : session.state.requests.find (.enqueueSpeech requestId sessionId turnId segmentIndex text) with
      | none =>
        obtain ⟨happlied, -, hactions⟩ := enqueue_applied platform hfind
        rw [happlied] at hresult
        rcases session.state.enqueueSpeech_cases platform sessionId turnId segmentIndex text with
          ⟨error, hrejected⟩ | ⟨turn, hturn, hid, -, ⟨hsame, -⟩ | ⟨-, -, hqueued⟩⟩
        · rw [hrejected] at hresult
          cases hresult
        · left
          have hline : session.state.line = some turn.line := by rw [VoiceState.line, hturn]; rfl
          rw [← hid, ← mem_saidOf]
          have hsaid : saidOf turn.id (speech session.actions) = turn.line.said :=
            ((reachable_spoke h).speaking _ hline).2
          rw [hsaid, Line.mem_said]
          exact hsame
        · right
          rw [hinput, react, hactions, hqueued]
          exact List.mem_cons_self
      | some answer =>
        left
        have hkept : answer = .ok (.enqueued idempotent remaining) := by
          rw [command_known hfind] at hresult
          exact hresult
        obtain ⟨entry, hentry, hanswer⟩ := Option.map_eq_some_iff.mp hfind
        split at hanswer
        · rename_i hfingerprint
          obtain ⟨before, earlier, after, hlog, hearlier, -, hmade, -⟩ := (reachable_ledgered h).made _ entry hentry
          rw [hfingerprint] at hearlier hmade
          refine ih earlier (by rw [hlog]; simp) turnId segmentIndex text
            ⟨requestId, sessionId, idempotent, remaining, applied_input hearlier, ?_⟩
          rw [← hmade, hanswer, hkept]
        · rw [hkept] at hanswer
          cases hanswer

/-! ## The speech of a session -/

def reportsEnqueued (session : Session) : Input → Bool
  | .observation (.synthesisStarted turnId segmentIndex generation) _ =>
    (session.state.outputTurn turnId generation).all fun turn => segmentIndex < turn.segments.length
  | _ => true

theorem pending_step {said : List (TurnId × Voiced)} (hstep : SpeechStep s input line ids said)
    (h : ∀ current, s.line = some current → current.pending ≤ s.config.maxQueuedSegments) :
    ∀ current, line = some current → current.pending ≤ s.config.maxQueuedSegments := by
  intro current hcurrent
  cases hstep with
  | mute => exact h current hcurrent
  | cut => cases hcurrent
  | completed => cases hcurrent
  | begun =>
    cases hcurrent
    exact Nat.zero_le _
  | finished _ line hline =>
    cases hcurrent
    exact h line hline
  | started _ _ _ line hline =>
    cases hcurrent
    have hbefore := h line hline
    unfold Line.pending at hbefore ⊢
    dsimp only
    omega
  | queued _ _ text line hline _ hroom =>
    cases hcurrent
    have hbefore := h line hline
    unfold Line.pending at hbefore hroom ⊢
    rw [List.length_append, List.length_singleton]
    dsimp only
    omega

theorem reachable_pending (h : Reachable platform session) :
    ∀ current, session.state.line = some current → current.pending ≤ session.state.config.maxQueuedSegments := by
  induction h with
  | new => exact nofun
  | next session input _ _ ih =>
    have hstep := react_speechStep platform session.state input
    rw [Session.next_state, hstep.config]
    exact pending_step hstep.step ih

theorem reaches_started (h : Reaches platform (fun session input => reportsEnqueued session input = true) session) :
    ∀ current, session.state.line = some current → current.startedSegments ≤ current.segments.length := by
  induction h with
  | new => exact nofun
  | next session input _ hreports ih =>
    intro current hcurrent
    have hstep := (react_speechStep platform session.state input).step
    rw [Session.next_state] at hcurrent
    rw [hcurrent] at hstep
    generalize (react platform session.state input).1.ids = ids at hstep
    generalize speech (react platform session.state input).2 = said at hstep
    generalize hnext : some current = next at hstep
    cases hstep with
    | mute => exact ih current hnext.symm
    | cut => cases hnext
    | completed => cases hnext
    | begun =>
      cases hnext
      exact Nat.zero_le _
    | finished _ line hline =>
      cases hnext
      exact ih line hline
    | queued _ _ text line hline =>
      cases hnext
      have hbefore := ih line hline
      rw [List.length_append]
      exact Nat.le_add_right_of_le hbefore
    | started turnId generation _ line hline houtput =>
      cases hnext
      obtain ⟨turn, hturn⟩ := Option.ne_none_iff_exists'.mp houtput
      have hsame : some turn.line = some line := by
        rw [← hline, VoiceState.line, VoiceState.outputTurn_turn hturn]
        rfl
      rw [← Option.some.inj hsame] at hreports ⊢
      rw [reportsEnqueued, hturn] at hreports
      exact of_decide_eq_true hreports

theorem enqueued_answer {idempotent : Bool} {remaining : ℕ}
    (hnew : s.requests.find (.enqueueSpeech requestId sessionId turnId segmentIndex text) = none)
    (hstarted : ∀ current, s.line = some current → current.startedSegments ≤ current.segments.length)
    (hresult : (s.command platform (.enqueueSpeech requestId sessionId turnId segmentIndex text)).result =
      .ok (.enqueued idempotent remaining)) :
    ∃ turn, (s.command platform (.enqueueSpeech requestId sessionId turnId segmentIndex text)).state.turn =
        some turn ∧ turn.id = turnId ∧ remaining = s.config.maxQueuedSegments - turn.line.pending := by
  obtain ⟨happlied, hturns, -⟩ := enqueue_applied platform hnew
  rw [happlied] at hresult
  rw [hturns]
  rcases s.enqueueSpeech_cases platform sessionId turnId segmentIndex text with
    ⟨error, hrejected⟩ | ⟨turn, hturn, hid, -, ⟨-, hagain⟩ | ⟨-, -, hqueued⟩⟩
  · rw [hrejected] at hresult
    cases hresult
  · rw [hagain] at hresult ⊢
    cases hresult
    exact ⟨turn, hturn, hid, rfl⟩
  · rw [hqueued] at hresult ⊢
    cases hresult
    have hbefore : turn.startedSegments ≤ turn.segments.length :=
      hstarted turn.line (by rw [VoiceState.line, hturn]; rfl)
    refine ⟨_, rfl, hid, ?_⟩
    congr 1
    show turn.segments.length - turn.startedSegments + 1 = (turn.segments ++ [text]).length - turn.startedSegments
    rw [List.length_append, List.length_singleton]
    omega

structure SpeechStream (platform : Platform) (session : Session) : Prop where
  /-- Of every turn the synthesizer is told numbered segments, then at most that it is finished, and at most
  that it is cut off. -/
  stream : ∀ turnId, ∃ segments, ∃ ending ∈ streamEndings,
    saidOf turnId (speech session.actions) = streamOf segments ++ ending
  /-- A segment is handed over when it is accepted for the first time. -/
  first : ∀ before moment after turnId segmentIndex text, session.log = before ++ moment :: after →
    (turnId, .segment segmentIndex text) ∈ speech moment.actions →
    moment.Accepts platform turnId segmentIndex text ∧
      ∀ earlier ∈ before, ∀ other, ¬earlier.Accepts platform turnId segmentIndex other
  accepted : ∀ moment ∈ session.log, ∀ turnId segmentIndex text,
    moment.Accepts platform turnId segmentIndex text →
    (turnId, .segment segmentIndex text) ∈ speech session.actions
  speaking : ∀ turn, session.state.turn = some turn →
    saidOf turn.id (speech session.actions) = turn.line.said
  bounded : ∀ turn, session.state.turn = some turn →
    turn.line.pending ≤ session.state.config.maxQueuedSegments

theorem first_accepted (h : Reachable platform session) :
    ∀ before moment after turnId segmentIndex text, session.log = before ++ moment :: after →
      (turnId, .segment segmentIndex text) ∈ speech moment.actions →
      moment.Accepts platform turnId segmentIndex text ∧
        ∀ earlier ∈ before, ∀ other, ¬earlier.Accepts platform turnId segmentIndex other := by
  induction h with
  | new =>
    intro before moment after turnId segmentIndex text hlog
    cases before <;> cases hlog
  | next session input h _ ih =>
    intro before moment after turnId segmentIndex text hlog hsaid
    rcases concat_split hlog with ⟨rfl, rfl, rfl⟩ | ⟨rest, -, hbefore⟩
    · obtain ⟨haccepts, line, hline, rfl, rfl⟩ := segment_said hsaid
      refine ⟨haccepts, fun earlier hearlier other hother => ?_⟩
      -- The segments of the turn are all before this one.
      have hold := accepted_said h earlier hearlier _ _ _ hother
      have hspoken : saidOf line.turnId (speech session.actions) = line.said :=
        ((reachable_spoke h).speaking line hline).2
      rw [← mem_saidOf, hspoken, Line.mem_said, List.getElem?_eq_none (Nat.le_refl _)] at hold
      cases hold
    · exact ih before moment rest turnId segmentIndex text hbefore hsaid

/-- Every turn is spoken in order. While the synthesizer starts only what it was given, the answers to new
requests tell how many segments the queue still takes. -/
theorem speech_stream {platform : Platform} {session : Session} (h : Reachable platform session) :
    SpeechStream platform session ∧
      (Reaches platform (fun session input => reportsEnqueued session input = true) session →
        (∀ turn, session.state.turn = some turn → turn.startedSegments ≤ turn.segments.length) ∧
          ∀ requestId sessionId turnId segmentIndex text idempotent remaining,
            session.state.requests.find (.enqueueSpeech requestId sessionId turnId segmentIndex text) = none →
            (session.state.command platform
              (.enqueueSpeech requestId sessionId turnId segmentIndex text)).result =
                .ok (.enqueued idempotent remaining) → ∃ turn, (session.state.command platform
                (.enqueueSpeech requestId sessionId turnId segmentIndex text)).state.turn = some turn ∧
              turn.id = turnId ∧ remaining = session.state.config.maxQueuedSegments - turn.line.pending) := by
  have hspoke := reachable_spoke h
  have hline : ∀ turn, session.state.turn = some turn → session.state.line = some turn.line := by
    intro turn hturn
    rw [VoiceState.line, hturn]
    rfl
  refine ⟨⟨hspoke.streams, first_accepted h, accepted_said h, ?_, ?_⟩, fun hreports => ⟨?_, ?_⟩⟩
  · exact fun turn hturn => (hspoke.speaking turn.line (hline turn hturn)).2
  · exact fun turn hturn => reachable_pending h turn.line (hline turn hturn)
  · exact fun turn hturn => reaches_started hreports turn.line (hline turn hturn)
  · intro requestId sessionId turnId segmentIndex text idempotent remaining hnew hresult
    exact enqueued_answer hnew (reaches_started hreports) hresult

/-! ## An answer that is repeated -/

/-- A turn with two segments. -/
def spokenInputs : List Input :=
  speechInputs ++ [.command (.beginSpeech "r2" "boot-s-1" none "en" "v"),
    .command (.enqueueSpeech "r3" "boot-s-1" "boot-t-2" 0 "Hello."),
    .command (.enqueueSpeech "r4" "boot-s-1" "boot-t-2" 1 "Here I am.")]

def spokenSession : Session := (Session.new "boot" .default).run plainPlatform spokenInputs

theorem speech_stream_spoken : SpeechStream plainPlatform spokenSession :=
  (speech_stream (reachable_run (.new "boot" .default) spokenInputs)).1

/-- A repeated answer tells what the queue took when it was given first. -/
theorem repeated_capacity : ¬ ∀ platform session,
    Reaches platform (fun session input => reportsEnqueued session input = true) session →
    ∀ requestId sessionId turnId segmentIndex text idempotent remaining turn,
      (session.state.command platform (.enqueueSpeech requestId sessionId turnId segmentIndex text)).result =
        .ok (.enqueued idempotent remaining) → (session.state.command platform
        (.enqueueSpeech requestId sessionId turnId segmentIndex text)).state.turn = some turn →
      remaining = session.state.config.maxQueuedSegments - turn.line.pending := by
  intro h
  have hreaches : Reaches plainPlatform (fun session input => reportsEnqueued session input = true)
      spokenSession := (Reaches.new "boot" .default).run spokenInputs (by decide +kernel)
  obtain ⟨turn, hturn, hpending⟩ : ∃ turn, (spokenSession.state.command plainPlatform
      (.enqueueSpeech "r3" "boot-s-1" "boot-t-2" 0 "Hello.")).state.turn = some turn ∧ turn.line.pending = 2 :=
    ⟨⟨"boot-t-2", 1, ["Hello.", "Here I am."], 0, false, false, "en", "v"⟩, by decide +kernel, by decide⟩
  have hseven : (spokenSession.state.command plainPlatform
      (.enqueueSpeech "r3" "boot-s-1" "boot-t-2" 0 "Hello.")).result = .ok (.enqueued false 7) := by decide +kernel
  have hsix := h plainPlatform spokenSession hreaches "r3" "boot-s-1" "boot-t-2" 0 "Hello." false 7 turn hseven hturn
  rw [hpending] at hsix
  exact absurd hsix (by decide +kernel)

end AvenOS.Voice
