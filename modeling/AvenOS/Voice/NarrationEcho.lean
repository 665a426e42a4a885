import AvenOS.Foundations.EditDistance
import AvenOS.Voice.State
import Mathlib.Data.List.Range

/-! # Echoes of the narration

How far what was heard is from what is being spoken. The two rows of `levenshtein` are swapped and written in place,
which is done here with indices that may be out of range, and never are. -/
namespace AvenOS.Voice
open EditDistance

def store (row : List ℕ) (index value : ℕ) : Option (List ℕ) :=
  if index < row.length then some (row.set index value) else none

/-- The inner loop, from `right_index` on. -/
def fillRow (leftCharacter : Char) (previous : List ℕ) : ℕ → List Char → List ℕ → Option (List ℕ)
  | _, [], current => some current
  | rightIndex, rightCharacter :: right, current => do
    let beside ← current[rightIndex]?
    let above ← previous[rightIndex + 1]?
    let across ← previous[rightIndex]?
    let current ← store current (rightIndex + 1)
      (min (min (beside + 1) (above + 1)) (across + if leftCharacter ≠ rightCharacter then 1 else 0))
    fillRow leftCharacter previous (rightIndex + 1) right current

/-- The outer loop: it leaves the last row in `previous`. -/
def fillRows (right : List Char) : ℕ → List Char → List ℕ → List ℕ → Option (List ℕ)
  | _, [], previous, _ => some previous
  | leftIndex, leftCharacter :: left, previous, current => do
    let current ← store current 0 (leftIndex + 1)
    let current ← fillRow leftCharacter previous 0 right current
    fillRows right (leftIndex + 1) left current previous

def levenshteinInPlace (left right : List Char) : Option ℕ := do
  let previous ← fillRows right 0 left (List.range (right.length + 1)) (List.replicate (right.length + 1) 0)
  previous[right.length]?

/-! ## Rows -/

/-- The entries of a row up to a place are distances from the part of `left` that is done. -/
structure Filled (done right : List Char) (place : ℕ) (row : List ℕ) : Prop where
  length : row.length = right.length + 1
  entry : ∀ k, k ≤ place → row[k]? = some (distance done (right.take k))

theorem filled_range (right : List Char) : Filled [] right right.length (List.range (right.length + 1)) where
  length := List.length_range
  entry := by
    intro k hk
    have hlength : (right.take k).length = k := List.length_take_of_le hk
    rw [List.getElem?_range (by omega), distance, hlength]

variable {done right : List Char} {row previous : List ℕ}

theorem Filled.store {place : ℕ} (h : Filled done right place row) (hplace : place < right.length) :
    store row (place + 1) (distance done (right.take (place + 1))) =
        some (row.set (place + 1) (distance done (right.take (place + 1)))) ∧
      Filled done right (place + 1) (row.set (place + 1) (distance done (right.take (place + 1)))) := by
  have hlength := h.length
  refine ⟨if_pos (by omega), by rw [List.length_set, hlength], fun k hk => ?_⟩
  by_cases hlast : k = place + 1
  · subst hlast
    exact List.getElem?_set_self (by omega)
  · rw [List.getElem?_set_ne (by omega)]
    exact h.entry k (by omega)

theorem fillRow_filled {leftCharacter : Char} (hprevious : Filled done right right.length previous)
    {before rest : List Char} (hright : before ++ rest = right)
    (hrow : Filled (done ++ [leftCharacter]) right before.length row) :
    ∃ filled, fillRow leftCharacter previous before.length rest row = some filled ∧
      Filled (done ++ [leftCharacter]) right right.length filled := by
  induction rest generalizing before row with
  | nil =>
    rw [List.append_nil] at hright
    subst hright
    exact ⟨row, rfl, hrow⟩
  | cons rightCharacter rest ih =>
    have hlength : right.length = before.length + 1 + rest.length := by
      rw [← hright, List.length_append, List.length_cons]
      omega
    have htake : right.take before.length = before := by rw [← hright, List.take_left]
    have hnext : right.take (before.length + 1) = before ++ [rightCharacter] := by
      rw [← hright, List.take_length_add_append]
      rfl
    have hbeside := hrow.entry before.length le_rfl
    have habove := hprevious.entry (before.length + 1) (by omega)
    have hacross := hprevious.entry before.length (by omega)
    obtain ⟨hstore, hfilled⟩ := hrow.store (by omega)
    -- the cell that is written is the distance of the longer parts
    have hcell : min (min (distance (done ++ [leftCharacter]) (right.take before.length) + 1)
          (distance done (right.take (before.length + 1)) + 1))
        (distance done (right.take before.length) + if leftCharacter ≠ rightCharacter then 1 else 0) =
        distance (done ++ [leftCharacter]) (right.take (before.length + 1)) := by
      rw [htake, hnext, distance_concat, ite_not]
    have hsplit : before ++ [rightCharacter] ++ rest = right := by
      rw [List.append_assoc]
      exact hright
    have hplace : before.length + 1 = (before ++ [rightCharacter]).length := by simp
    rw [hplace] at hfilled
    obtain ⟨filled, hrest, hdone⟩ := ih hsplit hfilled
    refine ⟨filled, ?_, hdone⟩
    rw [fillRow, hbeside, habove, hacross]
    simp only [Option.bind_eq_bind, Option.bind_some]
    rw [hcell, hstore, hplace]
    exact hrest

theorem fillRows_filled {left : List Char} {current : List ℕ} (hprevious : Filled done right right.length previous)
    (hcurrent : current.length = right.length + 1) :
    ∃ row, fillRows right done.length left previous current = some row ∧
      Filled (done ++ left) right right.length row := by
  induction left generalizing done previous current with
  | nil =>
    rw [List.append_nil]
    exact ⟨previous, rfl, hprevious⟩
  | cons leftCharacter left ih =>
    have hfirst : Filled (done ++ [leftCharacter]) right 0 (current.set 0 (done.length + 1)) := by
      refine ⟨by rw [List.length_set, hcurrent], fun k hk => ?_⟩
      rw [Nat.le_zero.mp hk, List.getElem?_set_self (by omega), List.take_zero, distance_nil, List.length_append]
      rfl
    obtain ⟨filled, hfill, hfilled⟩ := fillRow_filled hprevious (List.nil_append right) hfirst
    rw [List.length_nil] at hfill
    obtain ⟨row, hrows, hrow⟩ := ih hfilled hprevious.length
    have hstore : store current 0 (done.length + 1) = some (current.set 0 (done.length + 1)) := if_pos (by omega)
    have hplace : done.length + 1 = (done ++ [leftCharacter]).length := by simp
    refine ⟨row, ?_, ?_⟩
    · rw [fillRows, hstore]
      simp only [Option.bind_eq_bind, Option.bind_some]
      rw [hfill, Option.bind_some, hplace]
      exact hrows
    · rw [← List.append_cons] at hrow
      exact hrow

theorem levenshteinInPlace_eq (left right : List Char) : levenshteinInPlace left right = some (distance left right) := by
  obtain ⟨row, hrows, hrow⟩ : ∃ row, fillRows right 0 left (List.range (right.length + 1))
      (List.replicate (right.length + 1) 0) = some row ∧ Filled left right right.length row :=
    fillRows_filled (filled_range right) List.length_replicate
  have hentry := hrow.entry right.length le_rfl
  rw [List.take_length] at hentry
  rw [levenshteinInPlace, hrows]
  exact hentry

/-! ## Whole rows -/

/-- The rest of a row, behind the entry of `before`. -/
def rowFrom (done : List Char) : List Char → List Char → List ℕ
  | _, [] => []
  | before, c :: rest => distance done (before ++ [c]) :: rowFrom done (before ++ [c]) rest

theorem levenshteinRow_eq (done before rest : List Char) (leftCharacter : Char) :
    levenshteinRow leftCharacter rest (distance (done ++ [leftCharacter]) before) (distance done before)
      (rowFrom done before rest) = rowFrom (done ++ [leftCharacter]) before rest := by
  induction rest generalizing before with
  | nil => rfl
  | cons c rest ih =>
    rw [rowFrom, rowFrom, levenshteinRow, ← distance_concat, ih]

theorem levenshteinRows_eq (done left right : List Char) :
    levenshteinRows right left done.length (done.length :: rowFrom done [] right) =
      (done ++ left).length :: rowFrom (done ++ left) [] right := by
  induction left generalizing done with
  | nil => rw [levenshteinRows, List.append_nil]
  | cons c left ih =>
    have hrow := levenshteinRow_eq done [] right c
    have hnext := ih (done ++ [c])
    rw [distance_nil, distance_nil, List.length_append] at hrow
    rw [List.append_assoc, List.length_append] at hnext
    rw [levenshteinRows, List.headD_cons, List.tail_cons]
    exact (congrArg (fun row => levenshteinRows right left (done.length + 1) ((done.length + 1) :: row)) hrow).trans hnext

theorem rowFrom_nil (before rest : List Char) : rowFrom [] before rest = List.range' (before.length + 1) rest.length := by
  induction rest generalizing before with
  | nil => rfl
  | cons c rest ih =>
    rw [rowFrom, ih, distance, List.length_cons, List.range'_succ, List.length_append, List.length_singleton]

theorem getLastD_row (done before rest : List Char) :
    (distance done before :: rowFrom done before rest).getLastD 0 = distance done (before ++ rest) := by
  induction rest generalizing before with
  | nil => rw [rowFrom, List.append_nil, List.getLastD_cons, List.getLastD_nil]
  | cons c rest ih =>
    have hlast := ih (before ++ [c])
    rw [List.append_assoc, List.getLastD_cons] at hlast
    rw [rowFrom, List.getLastD_cons, List.getLastD_cons]
    exact hlast

theorem levenshtein_eq (left right : List Char) : levenshtein left right = distance left right := by
  have hstart : List.range (right.length + 1) = ([] : List Char).length :: rowFrom [] [] right := by
    rw [rowFrom_nil, List.range_eq_range', List.range'_succ]
    rfl
  have hrows := levenshteinRows_eq [] left right
  rw [List.nil_append, List.length_nil, ← distance_nil left] at hrows
  rw [levenshtein, hstart, List.length_nil, hrows, getLastD_row, List.nil_append]

/-- Two rows are enough for the least number of insertions, deletions and substitutions. -/
theorem levenshtein_least : (∀ left right, levenshteinInPlace left right = some (levenshtein left right) ∧
        IsLeast {n | Edits n left right} (levenshtein left right)) ∧
      (∀ left right, levenshtein left right = levenshtein right left) ∧
      (∀ left right, levenshtein left right = 0 ↔ left = right) ∧
      ∀ left middle right, levenshtein left right ≤ levenshtein left middle + levenshtein middle right := by
  simp only [levenshteinInPlace_eq, levenshtein_eq]
  exact ⟨fun left right => ⟨trivial, distance_isLeast left right⟩, distance_comm, fun left right => distance_eq_zero,
    distance_triangle⟩

example : levenshtein "kitten".toList "sitting".toList = 3 := by decide

end AvenOS.Voice
