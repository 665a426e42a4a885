import Mathlib.Data.List.Sort
import Mathlib.Order.Basic

/-! # Maps as ordered entries

A map is the list of its entries in the order of their keys. A key is inserted once; inserting all of
some entries succeeds when their keys are new and distinct, and the order of insertion does not
matter. -/
namespace AvenOS.OrderedEntries

variable {κ α : Type} [LinearOrder κ]

def Ordered (entries : List (κ × α)) : Prop := (entries.map Prod.fst).Pairwise (· < ·)

/-- The entries with one more, unless its key is taken. -/
def insertEntry (entry : κ × α) : List (κ × α) → Option (List (κ × α))
  | [] => some [entry]
  | first :: rest =>
    if entry.1 < first.1 then some (entry :: first :: rest)
    else if entry.1 = first.1 then none
    else (insertEntry entry rest).map (first :: ·)

def insertAll : List (κ × α) → List (κ × α) → Option (List (κ × α))
  | entries, [] => some entries
  | entries, entry :: more => (insertEntry entry entries).bind fun entries => insertAll entries more

variable {entry : κ × α} {entries more : List (κ × α)}

theorem ordered_cons : Ordered (entry :: entries) ↔ (∀ other ∈ entries, entry.1 < other.1) ∧ Ordered entries := by
  simp [Ordered, List.pairwise_cons]

theorem Ordered.nodup (h : Ordered entries) : (entries.map Prod.fst).Nodup := h.imp fun hlt => hlt.ne

theorem Ordered.eq_of_perm {one other : List (κ × α)} (hone : Ordered one) (hother : Ordered other)
    (h : one.Perm other) : one = other := by
  have hless : one.Pairwise fun a b => a.1 < b.1 := List.pairwise_map.mp hone
  have hless' : other.Pairwise fun a b => a.1 < b.1 := List.pairwise_map.mp hother
  exact h.eq_of_pairwise (fun a b _ _ hab hba => absurd hab (lt_asymm hba)) hless hless'

variable {result : List (κ × α)}

theorem insertEntry_some (hordered : Ordered entries) (h : insertEntry entry entries = some result) :
    entry.1 ∉ entries.map Prod.fst ∧ result.Perm (entry :: entries) ∧ Ordered result := by
  induction entries generalizing result with
  | nil =>
    cases h
    simp [Ordered]
  | cons first rest ih =>
    rw [ordered_cons] at hordered
    rw [insertEntry] at h
    split_ifs at h with hlt heq
    · cases h
      refine ⟨fun hmem => ?_, List.Perm.refl _, ?_⟩
      · rcases List.mem_cons.mp hmem with hsame | hrest
        · exact absurd hsame hlt.ne
        · obtain ⟨other, hother, hsame⟩ := List.mem_map.mp hrest
          exact absurd (hsame ▸ hordered.1 other hother) (lt_asymm hlt)
      · rw [ordered_cons]
        refine ⟨fun other hother => ?_, by rw [ordered_cons]; exact hordered⟩
        rcases List.mem_cons.mp hother with rfl | hrest
        · exact hlt
        · exact hlt.trans (hordered.1 other hrest)
    · obtain ⟨inserted, hinserted, rfl⟩ := Option.map_eq_some_iff.mp h
      obtain ⟨hnew, hperm, hsorted⟩ := ih hordered.2 hinserted
      have hgt : first.1 < entry.1 := lt_of_le_of_ne (not_lt.mp hlt) (Ne.symm heq)
      refine ⟨fun hmem => ?_, (hperm.cons first).trans (List.Perm.swap entry first rest), ?_⟩
      · rcases List.mem_cons.mp hmem with hsame | hrest
        · exact heq hsame
        · exact hnew hrest
      · rw [ordered_cons]
        refine ⟨fun other hother => ?_, hsorted⟩
        rcases List.mem_cons.mp (hperm.mem_iff.mp hother) with rfl | hrest
        · exact hgt
        · exact hordered.1 other hrest

theorem insertEntry_isSome
    (h : entry.1 ∉ entries.map Prod.fst) : ∃ result, insertEntry entry entries = some result := by
  induction entries with
  | nil => exact ⟨_, rfl⟩
  | cons first rest ih =>
    rw [List.map_cons, List.mem_cons, not_or] at h
    obtain ⟨result, hresult⟩ := ih h.2
    rw [insertEntry]
    by_cases hlt : entry.1 < first.1
    · exact ⟨_, if_pos hlt⟩
    · rw [if_neg hlt, if_neg h.1, hresult]
      exact ⟨_, rfl⟩

theorem insertAll_iff (hordered : Ordered entries) :
    insertAll entries more = some result ↔ (entries ++ more).Perm result ∧ Ordered result := by
  induction more generalizing entries with
  | nil =>
    rw [insertAll, List.append_nil]
    constructor
    · rintro ⟨⟩
      exact ⟨List.Perm.refl _, hordered⟩
    · rintro ⟨hperm, hresult⟩
      rw [hordered.eq_of_perm hresult hperm]
  | cons entry more ih =>
    rw [insertAll]
    have hmiddle : (entries ++ entry :: more).Perm (entry :: entries ++ more) := List.perm_middle
    cases hinsert : insertEntry entry entries with
    | none =>
      refine ⟨fun h => (by cases h), fun ⟨hperm, hresult⟩ => ?_⟩
      have hnew : entry.1 ∉ entries.map Prod.fst := by
        have hnodup := (hperm.map Prod.fst).nodup_iff.mpr hresult.nodup
        have hcons := (hmiddle.map Prod.fst).nodup_iff.mp hnodup
        rw [List.cons_append, List.map_cons, List.nodup_cons, List.map_append] at hcons
        exact fun hmem => hcons.1 (List.mem_append_left _ hmem)
      obtain ⟨inserted, hsome⟩ := insertEntry_isSome hnew
      rw [hsome] at hinsert
      cases hinsert
    | some inserted =>
      obtain ⟨-, hperm, hsorted⟩ := insertEntry_some hordered hinsert
      rw [Option.bind_some, ih hsorted]
      have hall : (inserted ++ more).Perm (entries ++ entry :: more) := (hperm.append_right more).trans hmiddle.symm
      exact ⟨fun h => ⟨hall.symm.trans h.1, h.2⟩, fun h => ⟨hall.trans h.1, h.2⟩⟩

theorem ordered_nil : Ordered ([] : List (κ × α)) := List.Pairwise.nil

theorem insertAll_self (h : Ordered entries) : insertAll [] entries = some entries :=
  (insertAll_iff ordered_nil).mpr ⟨List.Perm.refl _, h⟩

theorem insertAll_isSome (hordered : Ordered entries)
    (h : ((entries ++ more).map Prod.fst).Nodup) : ∃ result, insertAll entries more = some result := by
  induction more generalizing entries with
  | nil => exact ⟨entries, rfl⟩
  | cons entry more ih =>
    have hmiddle : (entries ++ entry :: more).Perm (entry :: entries ++ more) := List.perm_middle
    have hnodup := (hmiddle.map Prod.fst).nodup_iff.mp h
    have hnew : entry.1 ∉ entries.map Prod.fst := by
      rw [List.cons_append, List.map_cons, List.nodup_cons, List.map_append] at hnodup
      exact fun hmem => hnodup.1 (List.mem_append_left _ hmem)
    obtain ⟨inserted, hinserted⟩ := insertEntry_isSome hnew
    obtain ⟨-, hperm, hsorted⟩ := insertEntry_some hordered hinserted
    rw [insertAll, hinserted]
    exact ih hsorted (((hperm.append_right more).map Prod.fst).nodup_iff.mpr hnodup)

theorem insertAll_perm {more' : List (κ × α)} (h : more.Perm more') : insertAll [] more = insertAll [] more' := by
  refine Option.ext fun result => ?_
  rw [insertAll_iff ordered_nil, insertAll_iff ordered_nil]
  exact and_congr_left fun _ => ⟨fun hperm => h.symm.trans hperm, fun hperm => h.trans hperm⟩

end AvenOS.OrderedEntries
