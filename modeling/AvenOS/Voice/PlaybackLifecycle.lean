import AvenOS.Voice.TurnSteps

/-! # The life of a turn

A turn that starts ends once, when its output has drained or has faded. Only one fading turn is remembered:
a turn that is retired while another one is fading takes the place of that one, which then never ends. -/
namespace AvenOS.Voice
open AvenOS.LabelledRun AvenOS.Lifecycle

/-! ## What a log promises -/

def Input.drained : Input → Option Mark
  | .observation (.fadeDrained turnId generation) _ => some (turnId, generation)
  | _ => none

def FadesDrained : List Moment → Prop
  | [] => True
  | moment :: after =>
    (∀ mark ∈ fades moment.actions, after.countP (fun later => later.input.drained == some mark) = 1) ∧
      FadesDrained after

instance FadesDrained.decidable : (log : List Moment) → Decidable (FadesDrained log)
  | [] => inferInstanceAs (Decidable True)
  | _ :: after =>
    have := FadesDrained.decidable after
    inferInstanceAs (Decidable (_ ∧ _))

theorem FadesDrained.split {before after : List Moment} {moment : Moment}
    (h : FadesDrained (before ++ moment :: after)) :
    ∀ mark ∈ fades moment.actions, after.countP (fun later => later.input.drained == some mark) = 1 := by
  induction before with
  | nil => exact h.1
  | cons _ before ih => exact ih h.2

structure PlaybackLifecycle (session : Session) : Prop where
  endsOnce : ∀ before turnId after, plays session.actions = before ++ .began turnId :: after →
    after.count (.ended turnId) ≤ 1
  silentAfterEnd : ∀ before turnId after, plays session.actions = before ++ .ended turnId :: after →
    ∀ stage ∈ after, stage.subject ≠ some turnId
  finallyEnded : FadesDrained session.log → session.state.turn = none →
    ∀ before turnId after, plays session.actions = before ++ .began turnId :: after →
      after.count (.ended turnId) = 1

/-! ## Turns and their log -/

/-- A turn is retired while another one is fading. -/
def overtakesFade (platform : Platform) (s : VoiceState) (input : Input) : Bool :=
  retiresTurn platform s input && s.turn.isSome && s.retiringTurn.isSome

theorem value_injective {bootNonce kind : String} {n m : ℕ}
    (h : IdGenerator.value ⟨bootNonce, n⟩ kind = IdGenerator.value ⟨bootNonce, m⟩ kind) : n = m := by
  unfold IdGenerator.value at h
  have hrepr : (n + 1).repr = (m + 1).repr := (String.append_right_inj _).mp h
  have hdigits : Nat.toDigits 10 (n + 1) = Nat.toDigits 10 (m + 1) := String.ofList_inj.mp hrepr
  have hvalue := congrArg (fun digits => Nat.ofDigitChars 10 digits 0) hdigits
  simp only [Nat.ofDigitChars_toDigits (b := 10) (by decide) (by decide)] at hvalue
  exact Nat.succ.inj hvalue

structure Played (log : List (Stage TurnId)) (speaking fading : Option Mark) (ids : IdGenerator)
    (ledger : Ledger TurnId) : Prop where
  run : run Ledger.next .empty log = some ledger
  live : ledger.live = (speaking.toList ++ fading.toList).map Prod.fst
  known : ∀ turnId ∈ ledger.seen, ∃ n < ids.next, turnId = IdGenerator.value ⟨ids.bootNonce, n⟩ "t"

section Played
variable {log : List (Stage TurnId)} {speaking fading : Option Mark} {ids after : IdGenerator}
  {ledger : Ledger TurnId} {mark : Mark}

theorem Played.later (h : Played log speaking fading ids ledger) (hids : ids.Before after) :
    Played log speaking fading after ledger :=
  { h with
    known := fun turnId hseen => by
      obtain ⟨n, hn, hvalue⟩ := h.known turnId hseen
      exact ⟨n, Nat.lt_of_lt_of_le hn hids.next, by rw [hids.bootNonce]; exact hvalue⟩ }

theorem Played.goOn (h : Played log speaking fading ids ledger) (hlive : mark.1 ∈ ledger.live)
    (events : List (Stage TurnId)) (hevents : ∀ stage ∈ events, stage = .ongoing mark.1) :
    Played (log ++ events) speaking fading ids ledger := by
  have hrun : LabelledRun.run Ledger.next ledger events = some ledger := by
    clear h
    induction events with
    | nil => rfl
    | cons stage events ih =>
      rw [hevents stage List.mem_cons_self, LabelledRun.run, Ledger.next, if_pos hlive]
      exact ih fun stage hstage => hevents stage (List.mem_cons_of_mem _ hstage)
  refine { h with run := ?_ }
  rw [run_append, h.run]
  exact hrun

theorem Played.retire (h : Played log speaking fading ids ledger) (hfree : speaking = none ∨ fading = none) :
    Played (log ++ speaking.toList.map fun mark => .ongoing mark.1) none (speaking.or fading) ids ledger := by
  cases speaking with
  | none => simpa using h
  | some mark =>
    obtain rfl : fading = none := hfree.resolve_left nofun
    have hlive : mark.1 ∈ ledger.live := by rw [h.live]; exact List.mem_cons_self
    have hon := h.goOn hlive [.ongoing mark.1] (by simp)
    exact { hon with live := h.live }

theorem Played.begin (h : Played log none fading ids ledger) (generation : OutputGeneration) :
    Played (log ++ [.began (ids.value "t")]) (some (ids.value "t", generation)) fading ids.advance
      ⟨ids.value "t" :: ledger.seen, ids.value "t" :: ledger.live⟩ where
  run := by
    have hfresh : ids.value "t" ∉ ledger.seen := by
      intro hseen
      obtain ⟨n, hn, hvalue⟩ := h.known _ hseen
      have hsame := value_injective (n := ids.next) (m := n) hvalue
      omega
    rw [run_append, h.run]
    simp [LabelledRun.run, Ledger.next, hfresh]
  live := by
    rw [h.live]
    rfl
  known := by
    intro turnId hmem
    rcases List.mem_cons.mp hmem with rfl | hold
    · exact ⟨ids.next, Nat.lt_succ_self _, rfl⟩
    · obtain ⟨n, hn, hvalue⟩ := h.known turnId hold
      exact ⟨n, Nat.lt_succ_of_lt hn, hvalue⟩

theorem Played.complete (h : Played log (some mark) fading ids ledger) :
    Played (log ++ [.ended mark.1]) none fading ids ⟨ledger.seen, fading.toList.map Prod.fst⟩ := by
  have hlive : ledger.live = mark.1 :: fading.toList.map Prod.fst := h.live
  refine ⟨?_, rfl, h.known⟩
  rw [run_append, h.run]
  simp [LabelledRun.run, Ledger.next, hlive]

theorem Played.fade (h : Played log speaking (some mark) ids ledger) :
    Played (log ++ [.ended mark.1]) speaking none ids ⟨ledger.seen, speaking.toList.map Prod.fst⟩ := by
  have hsound := sound_empty.run h.run
  refine ⟨?_, by simp, h.known⟩
  rw [run_append, h.run]
  cases speaking with
  | none =>
    have hlive : ledger.live = [mark.1] := h.live
    simp [LabelledRun.run, Ledger.next, hlive]
  | some other =>
    have hlive : ledger.live = [other.1, mark.1] := h.live
    have hne : other.1 ≠ mark.1 := by
      have hnodup := hsound.nodup
      rw [hlive] at hnodup
      simpa using hnodup
    simp [LabelledRun.run, Ledger.next, hlive, hne]

end Played

variable {platform : Platform} {s : VoiceState} {input : Input} {session : Session}

theorem played_step {speaking fading : Option Mark}
    {ids : IdGenerator} {events : List (Stage TurnId)} {faded : List Mark} {log : List (Stage TurnId)}
    {ledger : Ledger TurnId} (hstep : TurnStep platform s input speaking fading ids events faded)
    (h : Played log s.speaking s.fading s.ids ledger) (hfree : overtakesFade platform s input = false) :
    ∃ ledger', Played (log ++ events) speaking fading ids ledger' := by
  have hone : retiresTurn platform s input = true → s.speaking = none ∨ s.fading = none := by
    intro hretires
    rw [overtakesFade, hretires, Bool.true_and, Bool.and_eq_false_iff] at hfree
    simpa [VoiceState.speaking, VoiceState.fading] using hfree
  cases hstep with
  | still _ _ hids => exact ⟨ledger, by rw [List.append_nil]; exact h.later hids⟩
  | spoken _ _ hids mark _ hspeaking hevents =>
    have hlive : mark.1 ∈ ledger.live := by rw [h.live, hspeaking]; exact List.mem_cons_self
    exact ⟨ledger, (h.goOn hlive events hevents).later hids⟩
  | retired _ _ hids hretires => exact ⟨ledger, (h.retire (hone hretires)).later hids⟩
  | begun _ _ _ _ _ generation hretires =>
    rw [← List.append_assoc]
    exact ⟨_, (h.retire (hone hretires)).begin generation⟩
  | completed turnId generation _ hspeaking =>
    rw [hspeaking] at h
    exact ⟨_, h.complete⟩
  | faded turnId generation _ hfading =>
    rw [hfading] at h
    exact ⟨_, h.fade⟩

theorem reaches_played
    (h : Reaches platform (fun session input => overtakesFade platform session.state input = false) session) :
    ∃ ledger, Played (plays session.actions) session.state.speaking session.state.fading session.state.ids ledger := by
  induction h with
  | new => exact ⟨.empty, rfl, rfl, nofun⟩
  | next session input _ hfree ih =>
    obtain ⟨ledger, hplayed⟩ := ih
    rw [Session.next_actions, plays_append]
    exact played_step (react_turnStep platform session.state input).step hplayed hfree

/-! ## Fades -/

variable {mark : Mark}

theorem drained_fading (hfading : s.fading = some mark) (hdrained : input.drained = some mark) :
    (react platform s input).1.fading = none := by
  obtain ⟨turnId, generation⟩ := mark
  cases input with
  | command => cases hdrained
  | observation observation now =>
    cases observation <;> cases hdrained
    obtain ⟨turn, hturn, hmark⟩ := Option.map_eq_some_iff.mp hfading
    obtain ⟨rfl, rfl⟩ := Prod.mk.inj hmark
    simp [react, VoiceState.observe, VoiceState.fadeDrained, hturn, Option.filter, VoiceState.fading]

theorem fading_step (hfading : (react platform s input).1.fading = some mark) :
    mark ∈ fades (react platform s input).2 ∨ s.fading = some mark ∧ input.drained ≠ some mark := by
  have hcases : mark ∈ fades (react platform s input).2 ∨ s.fading = some mark := by
    have hretired : s.speaking.or s.fading = some mark → mark ∈ s.speaking.toList ∨ s.fading = some mark := by
      cases s.speaking with
      | none => exact .inr
      | some other =>
        rintro ⟨⟩
        exact .inl (List.mem_singleton_self mark)
    have hstep := (react_turnStep platform s input).step
    rw [hfading] at hstep
    generalize fades (react platform s input).2 = faded at hstep ⊢
    generalize plays (react platform s input).2 = events at hstep
    generalize (react platform s input).1.speaking = speaking at hstep
    generalize (react platform s input).1.ids = ids at hstep
    generalize hgoal : some mark = fading at hstep
    cases hstep with
    | still => exact .inr rfl
    | spoken => exact .inr rfl
    | retired => exact (hretired hgoal.symm).imp_right fun h => h.trans hgoal
    | begun => exact (hretired hgoal.symm).imp_right fun h => h.trans hgoal
    | completed => exact .inr rfl
    | faded => cases hgoal
  refine hcases.imp_right fun hbefore => ⟨hbefore, fun hdrained => ?_⟩
  rw [drained_fading hbefore hdrained] at hfading
  cases hfading

theorem reachable_fading (h : Reachable platform session) (hfading : session.state.fading = some mark) :
    ∃ before moment after, session.log = before ++ moment :: after ∧ mark ∈ fades moment.actions ∧
      ∀ later ∈ after, later.input.drained ≠ some mark := by
  induction h with
  | new => cases hfading
  | next session input _ _ ih =>
    rcases fading_step hfading with hnew | ⟨hbefore, hundrained⟩
    · exact ⟨session.log, ⟨session.state, input, (react platform session.state input).2⟩, [], rfl, hnew,
        fun _ hlater => by cases hlater⟩
    · obtain ⟨before, moment, after, hlog, hmark, hafter⟩ := ih hbefore
      refine ⟨before, moment, after ++ [⟨session.state, input, (react platform session.state input).2⟩],
        by rw [Session.next, hlog]; simp, hmark, fun later hlater => ?_⟩
      rcases List.mem_append.mp hlater with hold | hlast
      · exact hafter later hold
      · rw [List.mem_singleton.mp hlast]
        exact hundrained

theorem nothing_fading (h : Reachable platform session)
    (hdrained : FadesDrained session.log) : session.state.fading = none := by
  cases hfading : session.state.fading with
  | none => rfl
  | some mark =>
    obtain ⟨before, moment, after, hlog, hmark, hafter⟩ := reachable_fading h hfading
    have hone := (hlog ▸ hdrained).split mark hmark
    have hzero : after.countP (fun later => later.input.drained == some mark) = 0 := by
      rw [List.countP_eq_zero]
      intro later hlater
      simpa using hafter later hlater
    omega

/-- Unless a turn is retired while another one is fading, every turn that starts ends once, and nothing is
heard of it afterwards. -/
theorem turn_lifecycle {platform : Platform} {session : Session}
    (h : Reaches platform (fun session input => overtakesFade platform session.state input = false)
      session) : PlaybackLifecycle session := by
  obtain ⟨ledger, hplayed⟩ := reaches_played h
  refine ⟨?_, ?_, ?_⟩
  · intro before turnId after hlog
    exact (ended_once (hlog ▸ hplayed.run)).1
  · intro before turnId after hlog
    exact silent_after_end (hlog ▸ hplayed.run)
  · intro hdrained hturn before turnId after hlog
    have hfading := nothing_fading (h.mono fun _ _ _ => trivial) hdrained
    have hlive : ledger.live = [] := by
      rw [hplayed.live, hfading, VoiceState.speaking, hturn]
      rfl
    exact (ended_once (hlog ▸ hplayed.run)).2 (by rw [hlive]; exact List.not_mem_nil)

/-! ## Runs in which turns fade -/

def speechInputs : List Input :=
  [.observation (.modelsPrepared true true) 0, .command (.startSession "r1" none none),
    .observation (.routeStarted "boot-s-1" 1) 1]

/-- A turn is replaced by another one, and the other is cancelled. -/
def replacedInputs : List Input :=
  speechInputs ++
    [.command (.beginSpeech "r2" "boot-s-1" none "en" "v"),
      .command (.beginSpeech "r3" "boot-s-1" none "en" "v")]

theorem turn_lifecycle_replaced : PlaybackLifecycle ((Session.new "boot" .default).run plainPlatform
    (replacedInputs ++ [.observation (.fadeDrained "boot-t-2" 1) 2,
      .command (.cancelSpeech "r4" "boot-s-1" none .manual), .observation (.fadeDrained "boot-t-3" 3) 3])) :=
  turn_lifecycle ((Reaches.new "boot" .default).run _ (by decide +kernel))

def overtakenSession : Session := (Session.new "boot" .default).run plainPlatform
  (replacedInputs ++ [.command (.cancelSpeech "r4" "boot-s-1" none .manual),
    .observation (.fadeDrained "boot-t-2" 1) 2, .observation (.fadeDrained "boot-t-3" 3) 3])

/-- A turn that is fading is forgotten when the next one is cancelled. -/
theorem overtaken_turn_unended : ¬ ∀ platform session, Reachable platform session →
    PlaybackLifecycle session := by
  intro h
  have hreachable : Reachable plainPlatform overtakenSession :=
    (Reaches.new "boot" .default).run _ (by decide +kernel)
  have hlifecycle := h plainPlatform overtakenSession hreachable
  have hlog : plays overtakenSession.actions =
      [] ++ .began "boot-t-2" :: [.ongoing "boot-t-2", .began "boot-t-3", .ongoing "boot-t-3",
        .ended "boot-t-3"] := by decide +kernel
  have hdrained : FadesDrained overtakenSession.log := by decide +kernel
  have hturn : overtakenSession.state.turn = none := by decide +kernel
  exact absurd (hlifecycle.finallyEnded hdrained hturn _ _ _ hlog) (by decide)

end AvenOS.Voice
