import AvenOS.Actors.Text
import AvenOS.Foundations.DecimalText
import Mathlib.Data.Int.Log
import Mathlib.Data.Rat.Floor
import Mathlib.Tactic.Linarith

/-! # Numbers from texts

What `Number(text)` of ECMAScript reads: a decimal with a sign, a fraction and an exponent, or a hexadecimal, octal or
binary integer, with blanks around it, rounded to a double. Nothing is zero. -/
namespace AvenOS.NumberText

/-! ## Doubles -/

/-- The nearest integer, and the even one of two. -/
def roundEven (q : ℚ) : ℤ :=
  let down := ⌊q⌋
  if q - down < 1 / 2 then down
  else if 1 / 2 < q - down then down + 1
  else if down % 2 = 0 then down else down + 1

def lastBit (q : ℚ) : ℤ := max (Int.log 2 |q| - 52) (-1074)

/-- `none` is an infinity. -/
def toDouble (q : ℚ) : Option ℚ :=
  let rounded : ℚ := roundEven (q / (2 : ℚ) ^ lastBit q) * (2 : ℚ) ^ lastBit q
  if (2 : ℚ) ^ 1024 ≤ |rounded| then none else some rounded

theorem roundEven_intCast (n : ℤ) : roundEven n = n := by simp [roundEven]

variable {n : ℕ} {text : Json.Text}

theorem toDouble_natCast (hn : n < 2 ^ 53) : toDouble n = some (n : ℚ) := by
  have hbit : lastBit n ≤ 0 := by
    have hlog : Nat.log 2 n ≤ 52 := Nat.le_of_lt_succ (Nat.log_lt_of_lt_pow' (by decide) hn)
    have habs : |(n : ℚ)| = n := abs_of_nonneg (Nat.cast_nonneg n)
    rw [lastBit, habs, Int.log_natCast]
    omega
  obtain ⟨k, hk⟩ : ∃ k : ℕ, lastBit n = -k := ⟨(-lastBit n).toNat, by omega⟩
  have hscaled : (n : ℚ) / (2 : ℚ) ^ lastBit n = ((n * 2 ^ k : ℕ) : ℤ) := by
    rw [hk, zpow_neg, div_inv_eq_mul, zpow_natCast]
    push_cast
    rfl
  have hround : (roundEven ((n : ℚ) / (2 : ℚ) ^ lastBit n) : ℚ) * 2 ^ lastBit n = n := by
    rw [hscaled, roundEven_intCast, ← hscaled, div_mul_cancel₀ _ (zpow_ne_zero _ two_ne_zero)]
  have hsmall : ¬ (2 : ℚ) ^ 1024 ≤ |(n : ℚ)| := by
    rw [abs_of_nonneg (Nat.cast_nonneg n), not_le]
    exact_mod_cast hn.trans (Nat.pow_lt_pow_right (by decide) (by decide))
  rw [toDouble]
  simp only [hround, if_neg hsmall]

/-! ## The grammar -/

def digitsValue (digits : Json.Text) : ℕ := Nat.ofDigitChars 10 digits 0

def signed (text : Json.Text) : ℤ × Json.Text :=
  match text with
  | '+' :: rest => (1, rest)
  | '-' :: rest => (-1, rest)
  | _ => (1, text)

def exponent (text : Json.Text) : Option ℤ :=
  match text with
  | [] => some 0
  | c :: rest =>
    let (sign, digits) := signed rest
    if (c = 'e' ∨ c = 'E') ∧ digits ≠ [] ∧ digits.all Char.isDigit = true then some (sign * digitsValue digits) else none

def fraction (text : Json.Text) : Json.Text × Json.Text :=
  match text with
  | '.' :: rest => rest.span Char.isDigit
  | _ => ([], text)

def decimal (text : Json.Text) : Option ℚ :=
  let (sign, text) := signed text
  let (whole, text) := text.span Char.isDigit
  let (parts, text) := fraction text
  if whole = [] ∧ parts = [] then none
  else (exponent text).map fun power => sign * digitsValue (whole ++ parts) * (10 : ℚ) ^ (power - (parts.length : ℤ))

def digitOf (c : Char) : ℕ :=
  if c.isDigit then c.toNat - '0'.toNat else if c.isUpper then c.toNat - 'A'.toNat + 10 else c.toNat - 'a'.toNat + 10

/-- An integer of another base, after its mark. -/
def inBase (base : ℕ) (digits : Json.Text) : Option ℚ :=
  if digits ≠ [] ∧ digits.all (fun c => c.isAlphanum && digitOf c < base) = true then
    some (digits.foldl (fun value c => value * base + digitOf c) 0 : ℕ)
  else none

/-- `StringToNumber` before the rounding. -/
def literal (text : Json.Text) : Option ℚ :=
  match text with
  | [] => some 0
  | '0' :: c :: rest =>
    if c = 'x' ∨ c = 'X' then inBase 16 rest
    else if c = 'o' ∨ c = 'O' then inBase 8 rest
    else if c = 'b' ∨ c = 'B' then inBase 2 rest
    else decimal text
  | _ => decimal text

/-- `Number(text)`: `none` where it is not finite. -/
def number (text : Json.Text) : Option ℚ := (literal (Text.trimChars text)).bind toDouble

/-! ## Numerals -/

theorem span_digits (h : ∀ c ∈ text, c.isDigit = true) : text.span Char.isDigit = (text, []) := by
  rw [List.span_eq_takeWhile_dropWhile, List.takeWhile_eq_self_iff.mpr h, List.dropWhile_eq_nil_iff.mpr h]

theorem isSpace_digit {c : Char} (h : c.isDigit = true) : Text.isSpace c = false := by
  have hrange : 48 ≤ c.toNat ∧ c.toNat ≤ 57 := by
    simpa [Char.isDigit, UInt32.le_iff_toNat_le] using h
  simp only [Text.isSpace, Bool.or_eq_false_iff, Bool.and_eq_false_iff, decide_eq_false_iff_not, beq_eq_false_iff_ne]
  omega

theorem trimChars_digits (h : ∀ c ∈ text, c.isDigit = true) : Text.trimChars text = text := by
  have hall : ∀ c ∈ text, ¬ Text.isSpace c = true := fun c hc => by simp [isSpace_digit (h c hc)]
  have hfront : text.dropWhile Text.isSpace = text := by
    cases text with
    | nil => rfl
    | cons c rest => exact List.dropWhile_cons_of_neg (hall c List.mem_cons_self)
  rw [Text.trimChars, hfront, List.rdropWhile_eq_self_iff]
  exact fun hne => hall _ (List.getLast_mem hne)

theorem decimal_digits (hne : text ≠ []) (h : ∀ c ∈ text, c.isDigit = true) :
    decimal text = some (digitsValue text : ℚ) := by
  have hsigned : signed text = (1, text) := by
    obtain ⟨c, rest, rfl⟩ := List.exists_cons_of_ne_nil hne
    have hc := h c List.mem_cons_self
    unfold signed
    split
    · rename_i heq
      cases heq
      cases hc
    · rename_i heq
      cases heq
      cases hc
    · rfl
  simp only [decimal, hsigned, span_digits h]
  simp [fraction, hne, exponent]

theorem number_toDigits (hn : n < 2 ^ 53) : number (Nat.toDigits 10 n) = some (n : ℚ) := by
  have hall := Json.toDigits_isDigit n
  have hvalue : decimal (Nat.toDigits 10 n) = some (n : ℚ) := by
    rw [decimal_digits Nat.toDigits_ne_nil hall, digitsValue, Nat.ofDigitChars_ten_toDigits]
  have hliteral : literal (Nat.toDigits 10 n) = some (n : ℚ) := by
    unfold literal
    split
    · rename_i heq
      exact absurd heq Nat.toDigits_ne_nil
    · rename_i c rest heq
      have hc : c.isDigit = true := hall c (by rw [heq]; exact List.mem_cons_of_mem _ List.mem_cons_self)
      rw [if_neg, if_neg, if_neg, hvalue]
      all_goals
        rintro (rfl | rfl)
        all_goals cases hc
    · exact hvalue
  rw [number, trimChars_digits hall, hliteral, Option.bind_some, toDouble_natCast hn]

end AvenOS.NumberText
