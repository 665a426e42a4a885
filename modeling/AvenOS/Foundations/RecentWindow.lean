import Mathlib.Data.List.Nodup
import Mathlib.Data.List.Induction

/-! # What a bounded queue keeps

A queue of a fixed capacity drops its oldest element for a new one, so it holds the last elements that were
pushed. If none of them was in the queue when it was pushed, a queue has no element twice, and an element
comes back only after so many others. -/
namespace AvenOS.RecentWindow

variable {α : Type}

def push (capacity : ℕ) (queue : List α) (a : α) : List α :=
  (if queue.length = capacity then queue.tail else queue) ++ [a]

/-- The last elements of a list. -/
def recent (capacity : ℕ) (pushed : List α) : List α := pushed.drop (pushed.length - capacity)

/-- No element is pushed while it is in the queue. -/
def Fresh (capacity : ℕ) (pushed : List α) : Prop :=
  ∀ before a after, pushed = before ++ a :: after → a ∉ recent capacity before

variable {capacity : ℕ} {pushed before between after : List α} {a : α}

theorem length_recent : (recent capacity pushed).length = min capacity pushed.length := by
  rw [recent, List.length_drop]
  omega

theorem length_recent_le : (recent capacity pushed).length ≤ capacity := by
  rw [length_recent]
  exact Nat.min_le_left _ _

theorem push_recent (hpositive : 0 < capacity) :
    push capacity (recent capacity pushed) a = recent capacity (pushed ++ [a]) := by
  unfold push
  rw [length_recent]
  unfold recent
  rw [List.length_append, List.length_singleton]
  split
  · rw [List.tail_drop, List.drop_append_of_le_length (by omega)]
    congr 2
    omega
  · rw [Nat.sub_eq_zero_of_le (by omega : pushed.length ≤ capacity),
      Nat.sub_eq_zero_of_le (by omega : pushed.length + 1 ≤ capacity)]
    rfl

theorem mem_of_mem_recent (h : a ∈ recent capacity pushed) : a ∈ pushed := List.mem_of_mem_drop h

theorem mem_recent_of_short (hshort : between.length < capacity) : a ∈ recent capacity (before ++ a :: between) := by
  unfold recent
  rw [List.length_append, List.length_cons, List.drop_append_of_le_length (by omega)]
  exact List.mem_append_right _ List.mem_cons_self

theorem recent_append (hlong : capacity ≤ between.length) :
    recent capacity (before ++ between) = recent capacity between := by
  unfold recent
  rw [List.length_append, List.drop_append, List.drop_eq_nil_of_le (by omega), List.nil_append]
  congr 1
  omega

theorem fresh_nil : Fresh capacity ([] : List α) := by
  intro before a after h
  cases before <;> cases h

theorem Fresh.concat (h : Fresh capacity pushed) (hnew : a ∉ recent capacity pushed) :
    Fresh capacity (pushed ++ [a]) := by
  intro before b after hsplit
  rcases List.eq_nil_or_concat after with rfl | ⟨rest, last, rfl⟩
  · obtain ⟨rfl, hlast⟩ := List.append_inj' hsplit rfl
    cases hlast
    exact hnew
  · rw [List.concat_eq_append, ← List.cons_append, ← List.append_assoc] at hsplit
    exact h before b rest (List.append_inj' hsplit rfl).1

theorem Fresh.nodup (h : Fresh capacity pushed) : (recent capacity pushed).Nodup := by
  induction pushed using List.reverseRecOn with
  | nil =>
    rw [recent, List.drop_nil]
    exact List.nodup_nil
  | append_singleton pushed a ih =>
    have hnew : a ∉ recent capacity pushed := h pushed a [] rfl
    have hold : Fresh capacity pushed := by
      intro before b after hsplit
      exact h before b (after ++ [a]) (by rw [hsplit, List.append_assoc, List.cons_append])
    rcases Nat.eq_zero_or_pos capacity with rfl | hpositive
    · rw [recent, Nat.sub_zero, List.drop_length]
      exact List.nodup_nil
    · rw [← push_recent hpositive, push]
      refine List.Nodup.append ?_ (List.nodup_singleton a) ?_
      · split
        · exact (ih hold).sublist (List.tail_sublist _)
        · exact ih hold
      · rw [List.disjoint_singleton]
        intro hmem
        split at hmem
        · exact hnew (List.mem_of_mem_tail hmem)
        · exact hnew hmem

theorem Fresh.apart (h : Fresh capacity (before ++ a :: between ++ a :: after)) :
    ∃ others, List.Sublist others between ∧ others.Nodup ∧ others.length = capacity ∧ a ∉ others := by
  have hnew : a ∉ recent capacity (before ++ a :: between) := h _ _ _ rfl
  have hlong : capacity ≤ between.length := by
    by_contra hshort
    exact hnew (mem_recent_of_short (Nat.lt_of_not_le hshort))
  have hold : Fresh capacity (before ++ a :: between) := by
    intro first b rest hsplit
    exact h first b (rest ++ a :: after) (by rw [hsplit, List.append_assoc, List.cons_append])
  have hrecent : recent capacity (before ++ a :: between) = recent capacity between := by
    have hdropped : recent capacity ((before ++ [a]) ++ between) = recent capacity between := recent_append hlong
    rwa [List.append_assoc, List.singleton_append] at hdropped
  rw [hrecent] at hnew
  refine ⟨recent capacity between, List.drop_sublist _ _, hrecent ▸ hold.nodup, ?_, hnew⟩
  rw [length_recent]
  omega

end AvenOS.RecentWindow
