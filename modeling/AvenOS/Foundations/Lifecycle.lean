import AvenOS.Foundations.LabelledRun
import Mathlib.Data.List.Induction

/-! # Things that begin, go on and end

An acceptor for logs in which every thing begins once, goes on only until it ends, and ends once. A log may
also say that nothing is going on. -/
namespace AvenOS.Lifecycle
open AvenOS.LabelledRun

inductive Stage (α : Type)
  | began (a : α)
  | ongoing (a : α)
  | ended (a : α)
  | idle
deriving DecidableEq

def Stage.subject {α : Type} : Stage α → Option α
  | .began a => some a
  | .ongoing a => some a
  | .ended a => some a
  | .idle => none

/-- What has begun, and what of it has not ended. -/
structure Ledger (α : Type) where
  seen : List α
  live : List α

def Ledger.empty {α : Type} : Ledger α := ⟨[], []⟩

variable {α : Type} [DecidableEq α]

def Ledger.next (ledger : Ledger α) : Stage α → Option (Ledger α)
  | .began a => if a ∈ ledger.seen then none else some ⟨a :: ledger.seen, a :: ledger.live⟩
  | .ongoing a => if a ∈ ledger.live then some ledger else none
  | .ended a => if a ∈ ledger.live then some ⟨ledger.seen, ledger.live.erase a⟩ else none
  | .idle => if ledger.live = [] then some ledger else none

/-! ## One stage -/

structure Ledger.Sound (ledger : Ledger α) : Prop where
  seen : ∀ a ∈ ledger.live, a ∈ ledger.seen
  nodup : ledger.live.Nodup

omit [DecidableEq α] in
theorem sound_empty : (Ledger.empty : Ledger α).Sound := ⟨nofun, List.nodup_nil⟩

variable {ledger after : Ledger α} {a : α} {stage : Stage α} {stages : List (Stage α)}

theorem next_cases (h : ledger.next stage = some after) :
    (∃ b, stage = .began b ∧ b ∉ ledger.seen ∧ after = ⟨b :: ledger.seen, b :: ledger.live⟩) ∨
      (∃ b, stage = .ongoing b ∧ b ∈ ledger.live ∧ after = ledger) ∨
      (∃ b, stage = .ended b ∧ b ∈ ledger.live ∧ after = ⟨ledger.seen, ledger.live.erase b⟩) ∨
      (stage = .idle ∧ ledger.live = [] ∧ after = ledger) := by
  cases stage with
  | began b =>
    simp only [Ledger.next] at h
    split at h
    · cases h
    · rename_i hseen
      exact .inl ⟨b, rfl, hseen, (Option.some.inj h).symm⟩
  | ongoing b =>
    obtain ⟨hlive, hafter⟩ := Option.ite_none_right_eq_some.mp h
    exact .inr (.inl ⟨b, rfl, hlive, (Option.some.inj hafter).symm⟩)
  | ended b =>
    obtain ⟨hlive, hafter⟩ := Option.ite_none_right_eq_some.mp h
    exact .inr (.inr (.inl ⟨b, rfl, hlive, (Option.some.inj hafter).symm⟩))
  | idle =>
    obtain ⟨hlive, hafter⟩ := Option.ite_none_right_eq_some.mp h
    exact .inr (.inr (.inr ⟨rfl, hlive, (Option.some.inj hafter).symm⟩))

theorem Ledger.Sound.next (hsound : ledger.Sound) (h : ledger.next stage = some after) : after.Sound := by
  obtain ⟨b, -, hseen, rfl⟩ | ⟨b, -, -, rfl⟩ | ⟨b, -, -, rfl⟩ | ⟨-, -, rfl⟩ := next_cases h
  · refine ⟨fun a ha => ?_, List.nodup_cons.mpr ⟨fun hlive => hseen (hsound.seen b hlive), hsound.nodup⟩⟩
    rcases List.mem_cons.mp ha with rfl | hlive
    · exact List.mem_cons_self
    · exact List.mem_cons_of_mem b (hsound.seen a hlive)
  · exact hsound
  · exact ⟨fun a ha => hsound.seen a (List.mem_of_mem_erase ha), hsound.nodup.erase b⟩
  · exact hsound

theorem next_seen (hsound : ledger.Sound) (h : ledger.next stage = some after) :
    a ∈ after.seen ↔ a ∈ ledger.seen ∨ stage.subject = some a := by
  obtain ⟨b, rfl, -, rfl⟩ | ⟨b, rfl, hlive, rfl⟩ | ⟨b, rfl, hlive, rfl⟩ | ⟨rfl, -, rfl⟩ := next_cases h
  · simp [Stage.subject, or_comm, eq_comm]
  · have hseen := hsound.seen b hlive
    simp only [Stage.subject, Option.some.injEq]
    exact ⟨.inl, fun h => h.elim id fun hb => hb ▸ hseen⟩
  · have hseen := hsound.seen b hlive
    simp only [Stage.subject, Option.some.injEq]
    exact ⟨.inl, fun h => h.elim id fun hb => hb ▸ hseen⟩
  · simp [Stage.subject]

/-! ## Logs -/

theorem Ledger.Sound.run (hsound : ledger.Sound) (h : run Ledger.next ledger stages = some after) :
    after.Sound :=
  run_invariant (P := fun _ => True) (fun _ _ _ _ hs => hs.next) (fun _ _ => trivial) hsound h

theorem run_seen (hsound : ledger.Sound) (h : run Ledger.next ledger stages = some after) :
    a ∈ after.seen ↔ a ∈ ledger.seen ∨ ∃ stage ∈ stages, stage.subject = some a := by
  induction stages generalizing ledger with
  | nil =>
    cases h
    simp
  | cons stage stages ih =>
    obtain ⟨next, hnext, hrun⟩ := run_cons h
    rw [ih (hsound.next hnext) hrun, next_seen hsound hnext]
    simp [or_assoc]

theorem run_closed (hseen : a ∈ ledger.seen) (hlive : a ∉ ledger.live)
    (h : run Ledger.next ledger stages = some after) :
    a ∉ after.live ∧ ∀ stage ∈ stages, stage.subject ≠ some a := by
  induction stages generalizing ledger with
  | nil =>
    cases h
    exact ⟨hlive, nofun⟩
  | cons stage stages ih =>
    obtain ⟨next, hnext, hrun⟩ := run_cons h
    have hstep : stage.subject ≠ some a ∧ a ∈ next.seen ∧ a ∉ next.live := by
      obtain ⟨b, rfl, hfresh, rfl⟩ | ⟨b, rfl, hb, rfl⟩ | ⟨b, rfl, hb, rfl⟩ | ⟨rfl, -, rfl⟩ :=
        next_cases hnext
      · have hne : b ≠ a := fun heq => hfresh (heq ▸ hseen)
        exact ⟨fun heq => hne (Option.some.inj heq), List.mem_cons_of_mem b hseen,
          fun hmem => (List.mem_cons.mp hmem).elim (fun heq => hne heq.symm) hlive⟩
      · exact ⟨fun heq => hlive (Option.some.inj heq ▸ hb), hseen, hlive⟩
      · exact ⟨fun heq => hlive (Option.some.inj heq ▸ hb), hseen, fun hmem => hlive (List.mem_of_mem_erase hmem)⟩
      · exact ⟨nofun, hseen, hlive⟩
    obtain ⟨hafter, hrest⟩ := ih hstep.2.1 hstep.2.2 hrun
    exact ⟨hafter, List.forall_mem_cons.mpr ⟨hstep.1, hrest⟩⟩

theorem run_open (hsound : ledger.Sound) (hlive : a ∈ ledger.live)
    (h : run Ledger.next ledger stages = some after) : .began a ∉ stages ∧
      (a ∈ after.live ∧ stages.count (.ended a) = 0 ∨ a ∉ after.live ∧ stages.count (.ended a) = 1) := by
  induction stages generalizing ledger with
  | nil =>
    cases h
    exact ⟨nofun, .inl ⟨hlive, rfl⟩⟩
  | cons stage stages ih =>
    obtain ⟨next, hnext, hrun⟩ := run_cons h
    have hseen := hsound.seen a hlive
    have hbegan : stage ≠ .began a := by
      rintro rfl
      rw [Ledger.next, if_pos hseen] at hnext
      cases hnext
    by_cases hended : stage = .ended a
    · have hnextEq : next = ⟨ledger.seen, ledger.live.erase a⟩ := by
        rw [hended, Ledger.next, if_pos hlive] at hnext
        exact (Option.some.inj hnext).symm
      have hgone : a ∉ next.live := by
        rw [hnextEq]
        exact hsound.nodup.not_mem_erase
      obtain ⟨hafter, hrest⟩ := run_closed (by rw [hnextEq]; exact hseen) hgone hrun
      have hzero : stages.count (.ended a) = 0 := List.count_eq_zero.mpr fun hmem => hrest _ hmem rfl
      refine ⟨?_, .inr ⟨hafter, by rw [hended, List.count_cons_self, hzero]⟩⟩
      rintro (_ | ⟨_, hmem⟩)
      · exact hbegan rfl
      · exact hrest _ hmem rfl
    · have hstays : a ∈ next.live := by
        obtain ⟨b, -, -, rfl⟩ | ⟨b, -, -, rfl⟩ | ⟨b, rfl, -, rfl⟩ | ⟨-, -, rfl⟩ := next_cases hnext
        · exact List.mem_cons_of_mem b hlive
        · exact hlive
        · exact (List.mem_erase_of_ne fun heq => hended (by rw [heq])).mpr hlive
        · exact hlive
      obtain ⟨hrest, hcount⟩ := ih (hsound.next hnext) hstays hrun
      rw [List.count_cons_of_ne hended]
      refine ⟨?_, hcount⟩
      rintro (_ | ⟨_, hmem⟩)
      · exact hbegan rfl
      · exact hrest hmem

/-! ## Logs from the beginning -/

variable {before rest : List (Stage α)}

theorem run_split (h : run Ledger.next .empty (before ++ stage :: rest) = some after) :
    ∃ mid next : Ledger α, run Ledger.next .empty before = some mid ∧ mid.Sound ∧
      mid.next stage = some next ∧ next.Sound ∧ run Ledger.next next rest = some after := by
  rw [run_append] at h
  obtain ⟨mid, hmid, hrest⟩ := Option.bind_eq_some_iff.mp h
  obtain ⟨next, hnext, hrun⟩ := run_cons hrest
  have hsound := sound_empty.run hmid
  exact ⟨mid, next, hmid, hsound, hnext, hsound.next hnext, hrun⟩

theorem mem_seen_iff (h : run Ledger.next .empty before = some after) :
    a ∈ after.seen ↔ ∃ stage ∈ before, stage.subject = some a := by
  rw [run_seen sound_empty h]
  simp [Ledger.empty]

theorem live_began (h : run Ledger.next .empty before = some after) (hlive : a ∈ after.live) :
    .began a ∈ before ∧ .ended a ∉ before := by
  induction before using List.reverseRec generalizing after with
  | nil =>
    cases h
    cases hlive
  | append_singleton before stage ih =>
    obtain ⟨mid, hmid, hlast⟩ := run_snoc h
    have hsound := sound_empty.run hmid
    obtain ⟨b, rfl, hfresh, rfl⟩ | ⟨b, rfl, -, rfl⟩ | ⟨b, rfl, -, rfl⟩ | ⟨rfl, -, rfl⟩ := next_cases hlast
    · rcases List.mem_cons.mp hlive with rfl | hold
      · refine ⟨by simp, fun hmem => ?_⟩
        rcases List.mem_append.mp hmem with hmem | hmem
        · exact hfresh ((mem_seen_iff hmid).mpr ⟨_, hmem, rfl⟩)
        · cases List.mem_singleton.mp hmem
      · obtain ⟨hbegan, hended⟩ := ih hmid hold
        exact ⟨List.mem_append_left _ hbegan, by simpa using hended⟩
    · simpa using ih hmid hlive
    · have hne : a ≠ b := fun heq => hsound.nodup.not_mem_erase (heq ▸ hlive)
      simpa [hne] using ih hmid (List.mem_of_mem_erase hlive)
    · simpa using ih hmid hlive

theorem ended_once (h : run Ledger.next .empty (before ++ .began a :: rest) = some after) :
    rest.count (.ended a) ≤ 1 ∧ (a ∉ after.live → rest.count (.ended a) = 1) := by
  obtain ⟨mid, next, -, -, hnext, hsound, hrun⟩ := run_split h
  have hlive : a ∈ next.live := by
    obtain ⟨b, hb, -, rfl⟩ | ⟨b, hb, -⟩ | ⟨b, hb, -⟩ | ⟨hb, -⟩ := next_cases hnext
    · cases hb
      exact List.mem_cons_self
    all_goals cases hb
  rcases (run_open hsound hlive hrun).2 with ⟨hstill, hzero⟩ | ⟨-, hone⟩
  · exact ⟨by omega, fun hgone => absurd hstill hgone⟩
  · exact ⟨by omega, fun _ => hone⟩

theorem begun_before (h : run Ledger.next .empty (before ++ stage :: rest) = some after)
    (hsubject : stage.subject = some a) (hbegan : stage ≠ .began a) :
    .began a ∈ before ∧ .ended a ∉ before := by
  obtain ⟨mid, next, hmid, -, hnext, -, -⟩ := run_split h
  obtain ⟨b, rfl, -⟩ | ⟨b, rfl, hlive, -⟩ | ⟨b, rfl, hlive, -⟩ | ⟨rfl, -⟩ := next_cases hnext
  · cases hsubject
    exact absurd rfl hbegan
  · cases hsubject
    exact live_began hmid hlive
  · cases hsubject
    exact live_began hmid hlive
  · cases hsubject

theorem silent_after_end (h : run Ledger.next .empty (before ++ .ended a :: rest) = some after) :
    ∀ stage ∈ rest, stage.subject ≠ some a := by
  obtain ⟨mid, next, -, hmid, hnext, -, hrun⟩ := run_split h
  obtain ⟨b, hb, -⟩ | ⟨b, hb, -⟩ | ⟨b, hb, hlive, rfl⟩ | ⟨hb, -⟩ := next_cases hnext
  · cases hb
  · cases hb
  · cases hb
    have hgone : a ∉ mid.live.erase a := hmid.nodup.not_mem_erase
    have hseen : a ∈ mid.seen := hmid.seen a hlive
    exact (run_closed (by exact hseen) (by exact hgone) hrun).2
  · cases hb

theorem began_once (h : run Ledger.next .empty (before ++ .began a :: rest) = some after) :
    .began a ∉ before ∧ .began a ∉ rest := by
  obtain ⟨mid, next, hmid, -, hnext, hsound, hrun⟩ := run_split h
  obtain ⟨b, hb, hfresh, rfl⟩ | ⟨b, hb, -⟩ | ⟨b, hb, -⟩ | ⟨hb, -⟩ := next_cases hnext
  · cases hb
    exact ⟨fun hmem => hfresh ((mem_seen_iff hmid).mpr ⟨_, hmem, rfl⟩), (run_open hsound List.mem_cons_self hrun).1⟩
  all_goals cases hb

theorem ended_before_idle {between : List (Stage α)}
    (h : run Ledger.next .empty (before ++ .began a :: between ++ .idle :: rest) = some after) :
    between.count (.ended a) = 1 := by
  obtain ⟨mid, next, hmid, -, hnext, -, -⟩ := run_split h
  obtain ⟨b, hb, -⟩ | ⟨b, hb, -⟩ | ⟨b, hb, -⟩ | ⟨-, hlive, -⟩ := next_cases hnext
  · cases hb
  · cases hb
  · cases hb
  · exact (ended_once hmid).2 (by rw [hlive]; exact List.not_mem_nil)

end AvenOS.Lifecycle
