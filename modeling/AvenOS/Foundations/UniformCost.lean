import Mathlib.Logic.Relation
import Mathlib.Order.Defs.LinearOrder
import Mathlib.Data.Set.Insert
import Mathlib.Data.List.Perm.Basic

/-! # Uniform-cost search with pruning

A search holds nodes; a node stands for the situations it covers. The library says what a search
that takes the cheapest node, drops a node whose key was met at no greater cost, and leaves out
moves that cover nothing new, may conclude: as long as it only drops what it already covers, every
situation that can be reached is covered by an expanded node or is no cheaper than a queued one. -/
namespace AvenOS.UniformCost

variable {S T K C : Type} [LinearOrder C] [BEq K]

/-- Nodes `S`, situations `T`, keys `K` and costs `C` of a search. -/
structure Problem (S T K C : Type) [LinearOrder C] where
  children : S → List S
  key : S → K
  cost : S → C
  valid : S → Prop
  covers : S → T → Prop
  move : T → T → Prop
  price : T → C
  cost_le : ∀ s t, covers s t → cost s ≤ price t
  move_le : ∀ t t', move t t' → price t ≤ price t'
  valid_children : ∀ s, valid s → ∀ c ∈ children s, valid c
  /-- A move out of what a node covers leads to one of its children, or to nothing new. -/
  follow : ∀ s t t', valid s → covers s t → move t t' → covers s t' ∨ ∃ c ∈ children s, covers c t'
  /-- A node may stand in for a dearer one with its key. -/
  collapse : ∀ e s t, valid e → valid s → key e = key s → cost e ≤ cost s → covers s t → covers e t

variable (P : Problem S T K C)

/-- What holds of a search between two steps; `expanded` are the nodes taken so far. -/
structure Frontier (start : T) (expanded : Set S) (queue : List S) (best : List (K × C)) : Prop where
  valid : ∀ s, s ∈ expanded ∨ s ∈ queue → P.valid s
  start : ∃ s, (s ∈ expanded ∨ s ∈ queue) ∧ P.covers s start
  closed : ∀ e ∈ expanded, ∀ t t', P.covers e t → P.move t t' →
    ∃ s, (s ∈ expanded ∨ s ∈ queue) ∧ P.covers s t'
  recorded : ∀ k c, best.lookup k = some c → ∃ e ∈ expanded, P.key e = k ∧ P.cost e = c

variable {P} {start : T} {expanded : Set S} {queue rest : List S} {best : List (K × C)}

variable {s : S} {t : T}

theorem frontier_init (hs : P.valid s) (hc : P.covers s start) : Frontier P start ∅ [s] [] where
  valid := by
    rintro x (hx | hx)
    · exact absurd hx (Set.notMem_empty x)
    · rw [List.mem_singleton.mp hx]
      exact hs
  start := ⟨s, .inr (List.mem_singleton.mpr rfl), hc⟩
  closed := fun e he => absurd he (Set.notMem_empty e)
  recorded := by
    intro k c h
    cases h

theorem Frontier.prune {c : C} (h : Frontier P start expanded queue best) (hq : queue.Perm (s :: rest))
    (hbest : best.lookup (P.key s) = some c) (hle : c ≤ P.cost s) : Frontier P start expanded rest best := by
  obtain ⟨e, he, hkey, hcost⟩ := h.recorded _ _ hbest
  have hve := h.valid e (.inl he)
  have hvs := h.valid s (.inr (hq.mem_iff.mpr (by simp)))
  -- whatever the dropped node covered, the recorded one covers
  have hkeep : ∀ t, (∃ x, (x ∈ expanded ∨ x ∈ queue) ∧ P.covers x t) →
      ∃ x, (x ∈ expanded ∨ x ∈ rest) ∧ P.covers x t := by
    rintro t ⟨x, hx | hx, hcov⟩
    · exact ⟨x, .inl hx, hcov⟩
    · rcases List.mem_cons.mp (hq.mem_iff.mp hx) with rfl | hx
      · exact ⟨e, .inl he, P.collapse e x t hve hvs hkey (hcost ▸ hle) hcov⟩
      · exact ⟨x, .inr hx, hcov⟩
  refine ⟨?_, hkeep _ h.start, ?_, h.recorded⟩
  · rintro x (hx | hx)
    · exact h.valid x (.inl hx)
    · exact h.valid x (.inr (hq.mem_iff.mpr (List.mem_cons_of_mem s hx)))
  · intro x hx t t' hcov hmove
    exact hkeep t' (h.closed x hx t t' hcov hmove)

theorem Frontier.expand [LawfulBEq K] (h : Frontier P start expanded queue best) (hq : queue.Perm (s :: rest)) :
    Frontier P start (insert s expanded) (rest ++ P.children s) ((P.key s, P.cost s) :: best) := by
  have hvs := h.valid s (.inr (hq.mem_iff.mpr (by simp)))
  have hkeep : ∀ t, (∃ x, (x ∈ expanded ∨ x ∈ queue) ∧ P.covers x t) →
      ∃ x, (x ∈ insert s expanded ∨ x ∈ rest ++ P.children s) ∧ P.covers x t := by
    rintro t ⟨x, hx | hx, hcov⟩
    · exact ⟨x, .inl (Set.mem_insert_of_mem s hx), hcov⟩
    · rcases List.mem_cons.mp (hq.mem_iff.mp hx) with rfl | hx
      · exact ⟨x, .inl (Set.mem_insert x expanded), hcov⟩
      · exact ⟨x, .inr (List.mem_append_left _ hx), hcov⟩
  refine ⟨?_, hkeep _ h.start, ?_, ?_⟩
  · rintro x (hx | hx)
    · rcases Set.mem_insert_iff.mp hx with rfl | hx
      · exact hvs
      · exact h.valid x (.inl hx)
    · rcases List.mem_append.mp hx with hx | hx
      · exact h.valid x (.inr (hq.mem_iff.mpr (List.mem_cons_of_mem s hx)))
      · exact P.valid_children s hvs x hx
  · intro x hx t t' hcov hmove
    rcases Set.mem_insert_iff.mp hx with rfl | hx
    · rcases P.follow x t t' hvs hcov hmove with hself | ⟨c, hc, hcc⟩
      · exact ⟨x, .inl (Set.mem_insert x expanded), hself⟩
      · exact ⟨c, .inr (List.mem_append_right _ hc), hcc⟩
    · exact hkeep t' (h.closed x hx t t' hcov hmove)
  · intro k c hk
    rw [List.lookup_cons] at hk
    split at hk
    · rename_i heq
      cases hk
      exact ⟨s, Set.mem_insert s expanded, (eq_of_beq heq).symm, rfl⟩
    · obtain ⟨e, he, hek⟩ := h.recorded k c hk
      exact ⟨e, Set.mem_insert_of_mem s he, hek⟩

/-- A situation that can be reached is covered by an expanded node, unless a queued node is no
dearer than it. -/
theorem Frontier.reach (h : Frontier P start expanded queue best) (ht : Relation.ReflTransGen P.move start t) :
    (∃ e ∈ expanded, P.covers e t) ∨ ∃ s ∈ queue, P.cost s ≤ P.price t := by
  induction ht with
  | refl =>
    obtain ⟨s, hs | hs, hcov⟩ := h.start
    · exact .inl ⟨s, hs, hcov⟩
    · exact .inr ⟨s, hs, P.cost_le s _ hcov⟩
  | @tail t t' _ hmove ih =>
    rcases ih with ⟨e, he, hcov⟩ | ⟨s, hs, hle⟩
    · obtain ⟨s, hs | hs, hcov'⟩ := h.closed e he t t' hcov hmove
      · exact .inl ⟨s, hs, hcov'⟩
      · exact .inr ⟨s, hs, P.cost_le s _ hcov'⟩
    · exact .inr ⟨s, hs, hle.trans (P.move_le t t' hmove)⟩

theorem Frontier.cheapest (h : Frontier P start expanded queue best) (hmin : ∀ x ∈ queue, P.cost s ≤ P.cost x)
    (ht : Relation.ReflTransGen P.move start t) (hnew : ∀ e ∈ expanded, ¬ P.covers e t) : P.cost s ≤ P.price t := by
  rcases h.reach ht with ⟨e, he, hcov⟩ | ⟨x, hx, hle⟩
  · exact absurd hcov (hnew e he)
  · exact (hmin x hx).trans hle

end AvenOS.UniformCost
