import Mathlib.Data.List.Forall2
import Mathlib.Data.List.Nodup

/-! # Tables with a key

A table is a list of rows and its key is a function of the row. What is found under a key stays found when
rows are added behind it; a table stays keyed where each row that is added has a new key. -/
namespace AvenOS.KeyedTable

section Keys
variable {α κ : Type} (key : α → κ)

def Keyed (rows : List α) : Prop := (rows.map key).Nodup

variable {key} {row : α} {rows added : List α}

theorem Keyed.eq (h : Keyed key rows) {other : α} (hrow : row ∈ rows) (hother : other ∈ rows)
    (hkey : key row = key other) : row = other :=
  List.inj_on_of_nodup_map h hrow hother hkey

theorem Keyed.nil : Keyed key ([] : List α) := List.nodup_nil

theorem Keyed.concat (h : Keyed key rows) (hfresh : ∀ other ∈ rows, key other ≠ key row) :
    Keyed key (rows ++ [row]) := by
  unfold Keyed at h ⊢
  rw [List.map_append, List.nodup_append]
  refine ⟨h, List.nodup_singleton _, fun k hk k' hk' hsame => ?_⟩
  obtain ⟨other, hother, rfl⟩ := List.mem_map.mp hk
  rw [List.map_cons, List.map_nil, List.mem_singleton] at hk'
  exact hfresh other hother (hsame.trans hk')

theorem Keyed.map (h : Keyed key rows) {f : α → α} (hf : ∀ row, key (f row) = key row) : Keyed key (rows.map f) := by
  unfold Keyed
  rw [List.map_map, show key ∘ f = key from funext hf]
  exact h

theorem Keyed.append (h : Keyed key rows) (hfresh : ∀ before row rest, added = before ++ row :: rest →
      ∀ other ∈ rows ++ before, key other ≠ key row) : Keyed key (rows ++ added) := by
  induction added generalizing rows with
  | nil =>
    rw [List.append_nil]
    exact h
  | cons row added ih =>
    have hfirst : Keyed key (rows ++ [row]) := h.concat fun other hother =>
      hfresh [] row added rfl other (by rw [List.append_nil]; exact hother)
    have hall := ih hfirst fun before next rest hsplit other hother =>
      hfresh (row :: before) next rest (by rw [hsplit, List.cons_append]) other
        (by rw [List.append_assoc] at hother; exact hother)
    rw [List.append_assoc] at hall
    exact hall

end Keys

section Lookup
variable {α κ : Type} [DecidableEq κ] (key : α → κ)

def lookup (k : κ) (rows : List α) : Option α := rows.find? fun row => key row = k

variable {key} {k : κ} {row : α} {rows : List α}

theorem lookup_some (h : lookup key k rows = some row) : row ∈ rows ∧ key row = k := by
  have hkey := List.find?_some h
  exact ⟨List.mem_of_find?_eq_some h, of_decide_eq_true hkey⟩

theorem lookup_none (h : lookup key k rows = none) (hrow : row ∈ rows) : key row ≠ k := fun hkey =>
  List.find?_eq_none.mp h row hrow (decide_eq_true hkey)

theorem lookup_grown (h : lookup key k rows = some row) (added : List α) : lookup key k (rows ++ added) = some row := by
  rw [lookup, List.find?_append, ← lookup, h, Option.some_or]

theorem lookup_concat_new (h : ∀ other ∈ rows, key other ≠ key row) :
    lookup key k (rows ++ [row]) = if key row = k then some row else lookup key k rows := by
  rw [lookup, List.find?_append, List.find?_singleton, ← lookup]
  by_cases hkey : key row = k
  · rw [if_pos hkey]
    cases hfound : lookup key k rows with
    | none => rw [Option.none_or, decide_eq_true hkey]; rfl
    | some other =>
      obtain ⟨hother, hsame⟩ := lookup_some hfound
      exact absurd (hsame.trans hkey.symm) (h other hother)
  · rw [if_neg hkey, decide_eq_false hkey]
    exact Option.or_none

theorem lookup_concat_other (h : key row ≠ k) : lookup key k (rows ++ [row]) = lookup key k rows := by
  rw [lookup, List.find?_append, List.find?_singleton, decide_eq_false h]
  exact Option.or_none

theorem Keyed.lookup (h : Keyed key rows) (hrow : row ∈ rows) : lookup key (key row) rows = some row := by
  cases hfound : KeyedTable.lookup key (key row) rows with
  | none => exact absurd rfl (lookup_none hfound hrow)
  | some other =>
    obtain ⟨hother, hkey⟩ := lookup_some hfound
    rw [h.eq hother hrow hkey]

theorem lookup_related {β : Type} {key' : β → κ} {R : α → β → Prop} {rows' : List β} (h : List.Forall₂ R rows rows')
    (hkey : ∀ a b, R a b → key' b = key a) : Option.Rel R (lookup key k rows) (lookup key' k rows') := by
  induction h with
  | nil => exact .none
  | @cons a b rows rows' hab _ ih =>
    rw [lookup, lookup, List.find?_cons, List.find?_cons, hkey a b hab]
    cases decide (key a = k) with
    | true => exact .some hab
    | false => exact ih

end Lookup

section Modify
variable {α κ : Type} [DecidableEq κ] (key : α → κ)

def modify (k : κ) (f : α → α) (rows : List α) : List α := rows.map fun row => if key row = k then f row else row

variable {key} {k : κ} {f : α → α} {row : α} {rows : List α}

theorem mem_modify (h : row ∈ modify key k f rows) :
    ∃ old ∈ rows, key old = k ∧ row = f old ∨ key row ≠ k ∧ row = old := by
  obtain ⟨old, hold, heq⟩ := List.mem_map.mp h
  refine ⟨old, hold, ?_⟩
  by_cases hkey : key old = k
  · rw [if_pos hkey] at heq
    exact .inl ⟨hkey, heq.symm⟩
  · rw [if_neg hkey] at heq
    exact .inr ⟨heq ▸ hkey, heq.symm⟩

theorem mem_modify_of (hrow : row ∈ rows) :
    (if key row = k then f row else row) ∈ modify key k f rows := List.mem_map_of_mem hrow

theorem mem_modify_other (hrow : row ∈ rows) (hkey : key row ≠ k) : row ∈ modify key k f rows :=
  List.mem_map.mpr ⟨row, hrow, if_neg hkey⟩

theorem map_key_modify (hf : ∀ row, key (f row) = key row) : (modify key k f rows).map key = rows.map key := by
  rw [modify, List.map_map]
  apply List.map_congr_left
  intro row _
  by_cases hkey : key row = k
  · rw [Function.comp, if_pos hkey, hf]
  · rw [Function.comp, if_neg hkey]

theorem Keyed.modify (h : Keyed key rows) (hf : ∀ row, key (f row) = key row) : Keyed key (modify key k f rows) := by
  rw [Keyed, map_key_modify hf]
  exact h

theorem lookup_modify (hf : ∀ row, key (f row) = key row) :
    lookup key k (modify key k f rows) = (lookup key k rows).map f := by
  induction rows with
  | nil => rfl
  | cons first rows ih =>
    rw [KeyedTable.modify, List.map_cons, lookup, List.find?_cons, lookup, List.find?_cons]
    by_cases hkey : key first = k
    · rw [if_pos hkey, hf, decide_eq_true hkey]
      rfl
    · rw [if_neg hkey, decide_eq_false hkey]
      exact ih

theorem lookup_modify_other {other : κ} (hf : ∀ row, key (f row) = key row) (hne : other ≠ k) :
    lookup key other (modify key k f rows) = lookup key other rows := by
  induction rows with
  | nil => rfl
  | cons first rows ih =>
    rw [KeyedTable.modify, List.map_cons, lookup, List.find?_cons, lookup, List.find?_cons]
    by_cases hkey : key first = k
    · have hfirst : key first ≠ other := fun h => hne (h.symm.trans hkey)
      rw [if_pos hkey, hf, decide_eq_false hfirst]
      exact ih
    · rw [if_neg hkey]
      cases decide (key first = other) with
      | true => rfl
      | false => exact ih

theorem Keyed.replace (h : Keyed key rows) : Keyed key (KeyedTable.modify key (key row) (fun _ => row) rows) := by
  have hkeys : (KeyedTable.modify key (key row) (fun _ => row) rows).map key = rows.map key := by
    rw [KeyedTable.modify, List.map_map]
    apply List.map_congr_left
    intro other _
    by_cases hkey : key other = key row
    · rw [Function.comp, if_pos hkey, hkey]
    · rw [Function.comp, if_neg hkey]
  rw [Keyed, hkeys]
  exact h

theorem modify_related {R : α → α → Prop} {rows' : List α} (h : List.Forall₂ R rows rows')
    (hkey : ∀ a b, R a b → key b = key a) (hf : ∀ a b, R a b → R (f a) (f b)) :
    List.Forall₂ R (modify key k f rows) (modify key k f rows') := by
  rw [KeyedTable.modify, KeyedTable.modify, List.forall₂_map_left_iff, List.forall₂_map_right_iff]
  refine h.imp fun a b hab => ?_
  rw [hkey a b hab]
  by_cases hk : key a = k
  · rw [if_pos hk, if_pos hk]
    exact hf a b hab
  · rw [if_neg hk, if_neg hk]
    exact hab

theorem lookup_replace : lookup key (key row) (modify key (key row) (fun _ => row) rows) =
    (lookup key (key row) rows).map fun _ => row := by
  induction rows with
  | nil => rfl
  | cons first rows ih =>
    rw [KeyedTable.modify, List.map_cons, lookup, List.find?_cons, lookup, List.find?_cons]
    by_cases hkey : key first = key row
    · rw [if_pos hkey, decide_eq_true hkey, decide_eq_true rfl]
      rfl
    · rw [if_neg hkey, decide_eq_false hkey]
      exact ih

theorem lookup_replace_other {other : κ} (hne : other ≠ key row) :
    lookup key other (modify key (key row) (fun _ => row) rows) = lookup key other rows := by
  induction rows with
  | nil => rfl
  | cons first rows ih =>
    rw [KeyedTable.modify, List.map_cons, lookup, List.find?_cons, lookup, List.find?_cons]
    by_cases hkey : key first = key row
    · rw [if_pos hkey, decide_eq_false hne.symm, hkey, decide_eq_false hne.symm]
      exact ih
    · rw [if_neg hkey]
      cases decide (key first = other) with
      | true => rfl
      | false => exact ih

end Modify

end AvenOS.KeyedTable
