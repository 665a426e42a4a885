import Mathlib.Data.List.Sort
import Mathlib.Order.Compare
import Std.Data.TreeMap

/-! # Stable sorting by a consistent comparator

`Array.prototype.sort` with a comparator: a stable sort, here the insertion sort, which every
stable sort equals when the comparator is consistent. -/
namespace AvenOS.StableSort

variable {α : Type}

def sortBy (cmp : α → α → Ordering) (l : List α) : List α :=
  l.insertionSort fun a b => (cmp a b).isLE = true

theorem sortBy_perm (cmp : α → α → Ordering) (l : List α) : (sortBy cmp l).Perm l := List.perm_insertionSort _ l

variable {cmp : α → α → Ordering} {l : List α}

theorem mem_sortBy {a : α} : a ∈ sortBy cmp l ↔ a ∈ l := (sortBy_perm cmp l).mem_iff

theorem sortBy_ne_nil (h : l ≠ []) : sortBy cmp l ≠ [] := by
  intro hs
  have hp := sortBy_perm cmp l
  rw [hs] at hp
  exact h hp.nil_eq.symm

theorem sortBy_map {β : Type} (cmp : β → β → Ordering) (f : α → β) (l : List α) :
    sortBy cmp (l.map f) = (sortBy (fun a b => cmp (f a) (f b)) l).map f :=
  (List.map_insertionSort _ _ f l fun _ _ _ _ => Iff.rfl).symm

theorem length_le_one_of_reverse (hnodup : l.Nodup) (h : l.reverse = l) : l.length ≤ 1 := by
  cases l with
  | nil => exact Nat.zero_le 1
  | cons a l =>
    cases hlast : l.reverse with
    | nil =>
      rw [List.reverse_eq_nil_iff.mp hlast]
      exact le_rfl
    | cons b rest =>
      rw [List.reverse_cons, hlast, List.cons_append] at h
      have hmem : b ∈ l := List.mem_reverse.mp (hlast ▸ List.mem_cons_self)
      exact absurd ((List.cons.inj h).1 ▸ hmem) (List.nodup_cons.mp hnodup).1

section Consistent
variable (cmp : α → α → Ordering) [Std.TransCmp cmp]

theorem transCmp_on {β : Type} (key : β → α) : Std.TransCmp fun a b => cmp (key a) (key b) where
  eq_swap := Std.OrientedCmp.eq_swap
  isLE_trans := Std.TransCmp.isLE_trans

instance total_isLE : Std.Total (fun a b : α => (cmp a b).isLE = true) := by
  refine ⟨fun a b => ?_⟩
  have hswap : cmp b a = (cmp a b).swap := Std.OrientedCmp.eq_swap
  rw [hswap]
  cases cmp a b <;> simp

instance trans_isLE : IsTrans α (fun a b => (cmp a b).isLE = true) :=
  ⟨fun _ _ _ => Std.TransCmp.isLE_trans⟩

theorem sortBy_pairwise (l : List α) :
    (sortBy cmp l).Pairwise fun a b => (cmp a b).isLE = true := List.pairwise_insertionSort _ l

theorem sortBy_sortBy (l : List α) : sortBy cmp (sortBy cmp l) = sortBy cmp l :=
  (sortBy_pairwise cmp l).insertionSort_eq

theorem sortBy_head_le {l rest : List α} {a : α} (h : sortBy cmp l = a :: rest) {b : α}
    (hb : b ∈ l) : (cmp a b).isLE = true := by
  have hsorted := sortBy_pairwise cmp l
  rw [h, List.pairwise_cons] at hsorted
  rcases List.mem_cons.mp (h ▸ mem_sortBy.2 hb) with rfl | hm
  · simp [Std.ReflCmp.compare_self]
  · exact hsorted.1 b hm

theorem filter_orderedInsert (p : α → Bool) (a : α) {l : List α} (hl : l.Pairwise fun a b => (cmp a b).isLE = true) :
    (l.orderedInsert (fun a b => (cmp a b).isLE = true) a).filter p =
      if p a then (l.filter p).orderedInsert (fun a b => (cmp a b).isLE = true) a else l.filter p := by
  induction l with
  | nil =>
    cases hp : p a <;> simp [List.orderedInsert, hp]
  | cons b l ih =>
    rw [List.pairwise_cons] at hl
    by_cases hab : (cmp a b).isLE = true
    · rw [List.orderedInsert_cons, if_pos hab]
      cases hp : p a with
      | false => simp [hp]
      | true =>
        -- whatever is left of the list is still above the new element
        have hbelow : ∀ c ∈ (b :: l).filter p, (cmp a c).isLE = true := by
          intro c hc
          rcases List.mem_cons.mp (List.mem_filter.mp hc).1 with rfl | hm
          · exact hab
          · exact Std.TransCmp.isLE_trans hab (hl.1 c hm)
        rw [List.filter_cons_of_pos hp, if_pos rfl]
        cases hf : (b :: l).filter p with
        | nil => rfl
        | cons c cs =>
          rw [List.orderedInsert_cons, if_pos (hbelow c (by rw [hf]; simp))]
    · have hins : (b :: l).orderedInsert (fun a b => (cmp a b).isLE = true) a =
          b :: l.orderedInsert (fun a b => (cmp a b).isLE = true) a := by
        simp [List.orderedInsert, hab]
      rw [hins]
      cases hb : p b with
      | false => rw [List.filter_cons_of_neg (by simp [hb]), ih hl.2, List.filter_cons_of_neg (by simp [hb])]
      | true =>
        rw [List.filter_cons_of_pos hb, ih hl.2, List.filter_cons_of_pos hb]
        cases p a <;> simp [List.orderedInsert, hab]

theorem filter_sortBy (p : α → Bool) (l : List α) : (sortBy cmp l).filter p = sortBy cmp (l.filter p) := by
  induction l with
  | nil => rfl
  | cons a l ih =>
    have hstep := filter_orderedInsert cmp p a (sortBy_pairwise cmp l)
    change ((sortBy cmp l).orderedInsert _ a).filter p = _
    rw [hstep, ih]
    cases hp : p a with
    | false => simp [hp]
    | true =>
      rw [List.filter_cons_of_pos hp, if_pos rfl]
      rfl

theorem sortBy_eq_of_perm {l l' : List α} (hperm : l.Perm l')
    (hapart : ∀ a ∈ l, ∀ b ∈ l, cmp a b = .eq → a = b) : sortBy cmp l = sortBy cmp l' := by
  have hsorted : (sortBy cmp l).Perm (sortBy cmp l') :=
    (sortBy_perm cmp l).trans (hperm.trans (sortBy_perm cmp l').symm)
  refine hsorted.eq_of_pairwise (fun a b ha hb hab hba => ?_) (sortBy_pairwise cmp l) (sortBy_pairwise cmp l')
  have heq : cmp a b = .eq := by
    have hswap : cmp b a = (cmp a b).swap := Std.OrientedCmp.eq_swap
    rw [hswap] at hba
    cases hcmp : cmp a b <;> simp_all
  exact hapart a (mem_sortBy.1 ha) b (hperm.mem_iff.mpr (mem_sortBy.1 hb)) heq

/-- A list that is sorted alike from both ends has no two elements that compare equal. -/
theorem apart_of_reverse {l : List α} (hnodup : l.Nodup)
    (h : sortBy cmp l = sortBy cmp l.reverse) : l.Pairwise fun a b => cmp a b ≠ .eq := by
  rw [List.pairwise_iff_forall_sublist]
  intro a b hsub heq
  have hequal : ∀ l : List α, sortBy cmp (l.filter fun c => decide (cmp a c = .eq)) = l.filter fun c => decide (cmp a c = .eq) := by
    intro l
    refine (List.pairwise_of_forall_mem_list fun c hc d hd => ?_).insertionSort_eq
    have hc := of_decide_eq_true (List.mem_filter.mp hc).2
    have hd := of_decide_eq_true (List.mem_filter.mp hd).2
    have hca : cmp c a = .eq := Std.OrientedCmp.eq_symm hc
    rw [Std.TransCmp.eq_trans hca hd]
    rfl
  have hfilter := congrArg (List.filter fun c => decide (cmp a c = .eq)) h
  rw [filter_sortBy, filter_sortBy, hequal, hequal, List.filter_reverse] at hfilter
  have hshort := length_le_one_of_reverse (hnodup.filter _) hfilter.symm
  have hself : cmp a a = .eq := Std.ReflCmp.compare_self
  have hlong := (hsub.filter fun c => decide (cmp a c = .eq)).length_le
  rw [List.filter_cons_of_pos (by simp [hself]), List.filter_cons_of_pos (by simp [heq])] at hlong
  simp only [List.length_cons, List.filter_nil, List.length_nil] at hlong
  omega

end Consistent
end AvenOS.StableSort
