import AvenOS.Foundations.JsonDocument
import Mathlib.Data.List.Induction
import Mathlib.Data.List.TakeWhile

/-! # Decimal numbers

The digits of a number are digits, and the first one of a positive number is not zero. -/
namespace AvenOS.Json

theorem toDigits_isDigit (n : ℕ) : ∀ c ∈ Nat.toDigits 10 n, c.isDigit = true := fun _ hc =>
  Nat.isDigit_of_mem_toDigits (by decide) (by decide) hc

theorem digitChar_ne_zero : ∀ n < 10, 0 < n → Nat.digitChar n ≠ '0' := by decide

theorem toDigits_head {n : ℕ} (hn : 0 < n) : ∃ c rest, Nat.toDigits 10 n = c :: rest ∧ c ≠ '0' := by
  induction n using Nat.strongRecOn with
  | _ n ih =>
    by_cases hsmall : n < 10
    · rw [Nat.toDigits_of_lt_base hsmall]
      exact ⟨_, [], rfl, digitChar_ne_zero n hsmall hn⟩
    · obtain ⟨c, rest, hdigits, hc⟩ := ih (n / 10) (by omega) (by omega)
      rw [Nat.toDigits_of_base_le (by decide) (by omega), hdigits]
      exact ⟨c, _, rfl, hc⟩

theorem toDigits_cons (n : ℕ) : ∃ c rest, Nat.toDigits 10 n = c :: rest ∧ c ≠ '-' := by
  obtain ⟨c, rest, hdigits⟩ := List.exists_cons_of_ne_nil (Nat.toDigits_ne_nil (n := n) (b := 10))
  have hc : c.isDigit = true := toDigits_isDigit n c (by rw [hdigits]; exact List.mem_cons_self)
  exact ⟨c, rest, hdigits, fun h => by rw [h] at hc; cases hc⟩

theorem isUnsigned_toDigits (n : ℕ) : isUnsigned (Nat.toDigits 10 n) = true := by
  rcases Nat.eq_zero_or_pos n with rfl | hn
  · rfl
  · obtain ⟨c, rest, hdigits, hc⟩ := toDigits_head hn
    have hall := toDigits_isDigit n
    rw [hdigits] at hall ⊢
    have hdrop : rest.dropWhile Char.isDigit = [] := List.dropWhile_eq_nil_iff.mpr fun d hd =>
      hall d (List.mem_cons_of_mem _ hd)
    rw [isUnsigned, if_neg hc, hdrop, hall c List.mem_cons_self]
    rfl

theorem isNumber_toDigits (n : ℕ) : isNumber (Nat.toDigits 10 n) = true := by
  obtain ⟨c, rest, hdigits, hc⟩ := toDigits_cons n
  have hunsigned := isUnsigned_toDigits n
  rw [hdigits] at hunsigned ⊢
  rw [isNumber, if_neg hc, hunsigned]

theorem digitChar_toNat {c : Char} (hc : c.isDigit = true) :
    c.toNat - '0'.toNat < 10 ∧ Nat.digitChar (c.toNat - '0'.toNat) = c := by
  have hrange : 48 ≤ c.toNat ∧ c.toNat ≤ 57 := by
    simpa [Char.isDigit, UInt32.le_iff_toNat_le] using hc
  have hall : ∀ n < 10, Nat.digitChar n = Char.ofNat (48 + n) := by decide
  have hzero : '0'.toNat = 48 := rfl
  refine ⟨by omega, ?_⟩
  rw [hall _ (by omega), hzero, Nat.add_sub_cancel' hrange.1, Char.ofNat_toNat]

theorem toDigits_ofDigitChars {c : Char} {rest : Text} (hc : c.isDigit = true) (hzero : c ≠ '0')
    (hrest : ∀ d ∈ rest, d.isDigit = true) :
    0 < Nat.ofDigitChars 10 (c :: rest) 0 ∧ Nat.toDigits 10 (Nat.ofDigitChars 10 (c :: rest) 0) = c :: rest := by
  induction rest using List.reverseRecOn with
  | nil =>
    obtain ⟨hlt, hchar⟩ := digitChar_toNat hc
    have hpos : 0 < c.toNat - '0'.toNat := by
      refine Nat.pos_of_ne_zero fun h => hzero ?_
      rw [← hchar, h]
      rfl
    rw [Nat.ofDigitChars_cons, Nat.ofDigitChars_nil, Nat.mul_zero, Nat.zero_add]
    exact ⟨hpos, by rw [Nat.toDigits_of_lt_base hlt, hchar]⟩
  | append_singleton rest d ih =>
    obtain ⟨hpos, hdigits⟩ := ih fun e he => hrest e (List.mem_append_left _ he)
    obtain ⟨hlt, hchar⟩ := digitChar_toNat (hrest d (List.mem_append_right _ List.mem_cons_self))
    rw [← List.cons_append, Nat.ofDigitChars_append, Nat.ofDigitChars_cons, Nat.ofDigitChars_nil]
    refine ⟨by omega, ?_⟩
    rw [← Nat.toDigits_append_toDigits (by decide) hpos hlt, hdigits, Nat.toDigits_of_lt_base hlt, hchar]

end AvenOS.Json
