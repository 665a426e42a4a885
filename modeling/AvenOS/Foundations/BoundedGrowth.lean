import Mathlib.Data.Fintype.BigOperators
import Mathlib.Data.Finset.Option
import Mathlib.Data.Fintype.Pi
import Mathlib.Order.Iterate

/-! # Growth by levels

Elements on finitely many levels are finitely many as soon as those of one level are bounded by those of the levels below. Lists
of bounded length over few values are few, which is how elements made from lower ones are bounded. -/
namespace AvenOS.BoundedGrowth

variable {α β : Type}

theorem card_lists_le {lists : Finset (List α)} {values : Finset α} {r : ℕ}
    (h : ∀ l ∈ lists, l.length ≤ r ∧ ∀ x ∈ l, x ∈ values) : lists.card ≤ (values.card + 1) ^ r := by
  have hcard : (Fintype.piFinset fun _ : Fin r => values.insertNone).card = (values.card + 1) ^ r := by
    rw [Fintype.card_piFinset_const, Finset.card_insertNone]
  rw [← hcard]
  refine Finset.card_le_card_of_injOn (fun l i => l[(i : ℕ)]?) (fun l hl => ?_) fun l hl l' hl' heq => ?_
  · rw [Finset.mem_coe, Fintype.mem_piFinset]
    intro i
    rw [Finset.mem_insertNone]
    intro x hx
    exact (h l hl).2 x (List.mem_of_getElem? hx)
  · refine List.ext_getElem? fun i => ?_
    by_cases hi : i < r
    · exact congrFun heq ⟨i, hi⟩
    · rw [List.getElem?_eq_none, List.getElem?_eq_none]
      · exact le_trans (h l' hl').1 (Nat.le_of_not_lt hi)
      · exact le_trans (h l hl).1 (Nat.le_of_not_lt hi)

variable {elements : Finset β} {level : β → ℕ} {bound : ℕ → ℕ}

theorem card_level_le (hbound : Monotone bound) (hzero : ∀ x ∈ elements, level x ≠ 0)
    (hstep : ∀ k, (elements.filter (level · ≤ k + 1)).card ≤ bound (elements.filter (level · ≤ k)).card) (k : ℕ) :
    (elements.filter (level · ≤ k)).card ≤ bound^[k] 0 := by
  induction k with
  | zero =>
    rw [Function.iterate_zero, id_eq, Nat.le_zero, Finset.card_eq_zero, Finset.filter_eq_empty_iff]
    intro x hx hle
    exact hzero x hx (Nat.le_zero.mp hle)
  | succ k ih =>
    rw [Function.iterate_succ_apply']
    exact (hstep k).trans (hbound ih)

theorem card_le_of_levels {n : ℕ} (hbound : Monotone bound) (hlevel : ∀ x ∈ elements, level x ≠ 0 ∧ level x ≤ n)
    (hstep : ∀ k, (elements.filter (level · ≤ k + 1)).card ≤ bound (elements.filter (level · ≤ k)).card) :
    elements.card ≤ bound^[n] 0 := by
  rw [← Finset.filter_true_of_mem fun x hx => (hlevel x hx).2]
  exact card_level_le hbound (fun x hx => (hlevel x hx).1) hstep n

end AvenOS.BoundedGrowth
