import Mathlib.Data.List.Basic
import Mathlib.Order.Bounds.Basic
import Mathlib.Order.MinMax

/-! # Edit distance

The least number of insertions, deletions and substitutions from one sequence to another, and the recursion
over both sequences that computes it. -/
namespace AvenOS.EditDistance

variable {α : Type}

/-- One edit, anywhere in a sequence. -/
inductive Edit : List α → List α → Prop
  | insert (b : α) (l : List α) : Edit l (b :: l)
  | delete (a : α) (l : List α) : Edit (a :: l) l
  | substitute (a b : α) (l : List α) : Edit (a :: l) (b :: l)
  | tail (x : α) {l m : List α} : Edit l m → Edit (x :: l) (x :: m)

inductive Edits : ℕ → List α → List α → Prop
  | refl (l : List α) : Edits 0 l l
  | step {n : ℕ} {l m r : List α} : Edit l m → Edits n m r → Edits (n + 1) l r

variable {l m r : List α} {n : ℕ}

theorem Edit.symm (h : Edit l m) : Edit m l := by
  induction h with
  | insert b l => exact .delete b l
  | delete a l => exact .insert a l
  | substitute a b l => exact .substitute b a l
  | tail x h ih => exact .tail x ih

theorem Edits.trans {k : ℕ} (h : Edits n l m) (h' : Edits k m r) : Edits (n + k) l r := by
  induction h with
  | refl l =>
    rw [Nat.zero_add]
    exact h'
  | step hedit h ih =>
    rw [Nat.succ_add]
    exact .step hedit (ih h')

theorem Edits.symm (h : Edits n l r) : Edits n r l := by
  induction h with
  | refl l => exact .refl l
  | step hedit h ih => exact ih.trans (.step hedit.symm (.refl _))

theorem Edits.tail (x : α) (h : Edits n l r) : Edits n (x :: l) (x :: r) := by
  induction h with
  | refl l => exact .refl _
  | step hedit h ih => exact .step (.tail x hedit) ih

theorem Edits.append_right (h : Edits n l r) (suffix : List α) : Edits n (l ++ suffix) (r ++ suffix) := by
  have hedit : ∀ {l m : List α}, Edit l m → Edit (l ++ suffix) (m ++ suffix) := by
    intro l m h
    induction h with
    | insert b l => exact .insert b _
    | delete a l => exact .delete a _
    | substitute a b l => exact .substitute a b _
    | tail x h ih => exact .tail x ih
  induction h with
  | refl l => exact .refl _
  | step h _ ih => exact .step (hedit h) ih

theorem Edits.append_left (start : List α) (h : Edits n l r) : Edits n (start ++ l) (start ++ r) := by
  induction start with
  | nil => exact h
  | cons x start ih => exact ih.tail x

theorem Edits.reverse (h : Edits n l r) : Edits n l.reverse r.reverse := by
  have hone : ∀ {l m : List α}, Edit l m → Edits 1 l.reverse m.reverse := by
    intro l m h
    induction h with
    | insert b l =>
      have h := Edits.append_left l.reverse (.step (.insert b []) (.refl _))
      simpa using h
    | delete a l =>
      have h := Edits.append_left l.reverse (.step (.delete a []) (.refl _))
      simpa using h
    | substitute a b l =>
      have h := Edits.append_left l.reverse (.step (.substitute a b []) (.refl _))
      simpa using h
    | tail x h ih =>
      simpa using ih.append_right [x]
  induction h with
  | refl l => exact .refl _
  | step hedit h ih =>
    rw [Nat.add_comm]
    exact (hone hedit).trans ih

theorem edits_zero : Edits 0 l r ↔ l = r := by
  constructor
  · intro h
    cases h
    rfl
  · rintro rfl
    exact .refl l

/-! ## The recursion -/

section Distance
variable [DecidableEq α]

def distance : List α → List α → ℕ
  | [], r => r.length
  | l, [] => l.length
  | a :: l, b :: r =>
    min (min (distance (a :: l) r + 1) (distance l (b :: r) + 1)) (distance l r + if a = b then 0 else 1)
termination_by l r => l.length + r.length

theorem distance_nil (l : List α) : distance l [] = l.length := by
  cases l <;> simp [distance]

theorem edits_length (l : List α) : Edits l.length l [] := by
  induction l with
  | nil => exact .refl []
  | cons a l ih => exact .step (.delete a l) ih

theorem edits_distance (l r : List α) : Edits (distance l r) l r := by
  induction l, r using distance.induct with
  | case1 r =>
    rw [distance]
    exact (edits_length r).symm
  | case2 l _ =>
    rw [distance_nil]
    exact edits_length l
  | case3 a l b r insert delete both =>
    rw [distance]
    rcases min_choice (min (distance (a :: l) r + 1) (distance l (b :: r) + 1))
      (distance l r + if a = b then 0 else 1) with h | h
    · rw [h]
      rcases min_choice (distance (a :: l) r + 1) (distance l (b :: r) + 1) with h | h
      · rw [h]
        exact insert.trans (.step (.insert b r) (.refl _))
      · rw [h]
        exact .step (.delete a l) delete
    · rw [h]
      by_cases hsame : a = b
      · rw [if_pos hsame, hsame]
        exact both.tail b
      · rw [if_neg hsame]
        exact .step (.substitute a b l) (both.tail b)

theorem distance_insert (l r : List α) (b : α) : distance l (b :: r) ≤ distance l r + 1 := by
  cases l with
  | nil => simp [distance]
  | cons a l =>
    rw [distance]
    omega

theorem distance_delete (l r : List α) (a : α) : distance (a :: l) r ≤ distance l r + 1 := by
  cases r with
  | nil => simp [distance_nil]
  | cons b r =>
    rw [distance]
    omega

/-- An edit changes the distance to a sequence by one at most; the induction inside each case is on that sequence. -/
theorem distance_edit (hedit : Edit l m) (r : List α) : distance l r ≤ distance m r + 1 := by
  induction hedit generalizing r with
  | insert b l =>
    induction r with
    | nil =>
      rw [distance_nil, distance_nil, List.length_cons]
      omega
    | cons c r ih =>
      have hgrown := distance_insert l r c
      rw [distance]
      omega
  | delete a l => exact distance_delete l r a
  | substitute a b l =>
    induction r with
    | nil => simp [distance_nil]
    | cons c r ih =>
      rw [distance, distance]
      split <;> split <;> omega
  | @tail x l m hedit ih =>
    induction r with
    | nil => simpa [distance_nil] using ih []
    | cons c r ih' =>
      have hwhole := ih (c :: r)
      have hrest := ih r
      rw [distance, distance]
      omega

theorem distance_le (h : Edits n l r) : distance l r ≤ n := by
  induction h with
  | refl l =>
    induction l with
    | nil => simp [distance]
    | cons x l ih =>
      rw [distance, if_pos rfl]
      omega
  | step hedit h ih => exact (distance_edit hedit _).trans (Nat.succ_le_succ ih)

theorem distance_isLeast (l r : List α) : IsLeast {n | Edits n l r} (distance l r) :=
  ⟨edits_distance l r, fun _ hn => distance_le hn⟩

theorem distance_reverse (l r : List α) : distance l.reverse r.reverse = distance l r := by
  refine (distance_isLeast l.reverse r.reverse).unique ?_
  have hreverse : ∀ n, Edits n l.reverse r.reverse ↔ Edits n l r := by
    intro n
    exact ⟨fun h => by simpa using h.reverse, Edits.reverse⟩
  simpa only [hreverse] using distance_isLeast l r

theorem distance_comm (l r : List α) : distance l r = distance r l := by
  refine (distance_isLeast l r).unique ?_
  have hsymm : ∀ n, Edits n l r ↔ Edits n r l := fun n => ⟨Edits.symm, Edits.symm⟩
  simpa only [hsymm] using distance_isLeast r l

theorem distance_eq_zero {l r : List α} : distance l r = 0 ↔ l = r := by
  constructor
  · intro h
    have hedits := edits_distance l r
    rw [h] at hedits
    exact edits_zero.1 hedits
  · rintro rfl
    exact Nat.le_zero.mp (distance_le (.refl l))

theorem distance_triangle (l m r : List α) : distance l r ≤ distance l m + distance m r :=
  distance_le ((edits_distance l m).trans (edits_distance m r))

/-- The recursion at the backs of two sequences. -/
theorem distance_concat (l r : List α) (a b : α) : distance (l ++ [a]) (r ++ [b]) =
    min (min (distance (l ++ [a]) r + 1) (distance l (r ++ [b]) + 1)) (distance l r + if a = b then 0 else 1) := by
  rw [← distance_reverse (l ++ [a]) (r ++ [b]), ← distance_reverse (l ++ [a]) r, ← distance_reverse l (r ++ [b]),
    ← distance_reverse l r, List.reverse_append, List.reverse_append]
  exact distance.eq_3 a l.reverse b r.reverse

end Distance

end AvenOS.EditDistance
