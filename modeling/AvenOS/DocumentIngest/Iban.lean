import AvenOS.Actors.Text
import Mathlib

/-! # The check of an account number

`iban` folds the remainder of a number with up to 70 digits digit by digit. It is the remainder of that number,
and one digit that is mistaken is always noticed. -/
namespace AvenOS.DocumentIngest

/-- `/^[A-Z]{2}\d{2}[A-Z0-9]{11,30}$/` -/
def ibanShape : List Char → Bool
  | first :: second :: third :: fourth :: rest =>
    first.isUpper && second.isUpper && third.isDigit && fourth.isDigit &&
      rest.all (fun c => c.isUpper || c.isDigit) && decide (11 ≤ rest.length) && decide (rest.length ≤ 30)
  | _ => false

/-- What the inner loop goes over: `String(c.charCodeAt(0) - 55)` for a letter. -/
def digitText (c : Char) : List Char := if c.isUpper then Nat.toDigits 10 (c.toNat - 55) else [c]

def digitNumber (digit : Char) : Option ℕ :=
  if digit.isDigit then some (digit.toNat - 48) else if Text.isSpace digit then some 0 else none

def addDigit (remainder : Option ℕ) (digit : Char) : Option ℕ := do
  let remainder ← remainder
  let number ← digitNumber digit
  return (remainder * 10 + number) % 97

def rotated (value : List Char) : List Char := value.drop 4 ++ value.take 4

/-- Both loops; a remainder that is not a number is `none`. -/
def remainder97 (value : List Char) : Option ℕ :=
  (rotated value).foldl (fun remainder c => (digitText c).foldl addDigit remainder) (some 0)

def iban (value : List Char) : Bool := ibanShape value && remainder97 value == some 1

/-! ## The number -/

def digitsFor (c : Char) : List ℕ := if c.isUpper then [(c.toNat - 55) / 10, (c.toNat - 55) % 10] else [c.toNat - 48]

def ibanNumber (value : List Char) : ℕ := Nat.ofDigits 10 ((rotated value).flatMap digitsFor).reverse

/-- The characters of account numbers. -/
def Alphanumeric (value : List Char) : Prop := ∀ c ∈ value, c.isUpper = true ∨ c.isDigit = true

variable {c : Char} {value : List Char}

theorem toNat_upper (h : c.isUpper = true) : 65 ≤ c.toNat ∧ c.toNat ≤ 90 := by
  simpa [Char.isUpper, UInt32.le_iff_toNat_le] using h

theorem toNat_digit (h : c.isDigit = true) : 48 ≤ c.toNat ∧ c.toNat ≤ 57 := by
  simpa [Char.isDigit, UInt32.le_iff_toNat_le] using h

theorem isUpper_digit (h : c.isDigit = true) : c.isUpper = false := by
  have hdigit := toNat_digit h
  by_contra hupper
  have := toNat_upper (Bool.eq_true_of_not_eq_false hupper)
  omega

theorem digitsFor_digit (h : c.isDigit = true) : digitsFor c = [c.toNat - 48] := by
  rw [digitsFor, isUpper_digit h, if_neg Bool.false_ne_true]

theorem digitText_numbers (h : c.isUpper = true ∨ c.isDigit = true) :
    (digitText c).map digitNumber = (digitsFor c).map some := by
  rcases h with hupper | hdigit
  · have hletters : ∀ n < 26, (Nat.toDigits 10 (n + 10)).map digitNumber = [(n + 10) / 10, (n + 10) % 10].map some := by
      decide
    have hrange := toNat_upper hupper
    have hletter := hletters (c.toNat - 65) (by omega)
    have hvalue : c.toNat - 65 + 10 = c.toNat - 55 := by omega
    rw [hvalue] at hletter
    rw [digitText, digitsFor, if_pos hupper, if_pos hupper, hletter]
  · rw [digitsFor_digit hdigit, digitText, isUpper_digit hdigit, if_neg Bool.false_ne_true]
    simp [digitNumber, hdigit]

/-! ## The loop -/

theorem remainder97_flat (value : List Char) :
    remainder97 value = ((rotated value).flatMap digitText).foldl addDigit (some 0) := by
  rw [remainder97, List.foldl_flatMap]

theorem foldl_addDigit {text : List Char} {digits : List ℕ} (h : text.map digitNumber = digits.map some) (n : ℕ) :
    text.foldl addDigit (some (n % 97)) = some (digits.foldl (fun n digit => n * 10 + digit) n % 97) := by
  induction text generalizing digits n with
  | nil =>
    have hdigits : digits = [] := List.map_eq_nil_iff.mp h.symm
    rw [hdigits, List.foldl_nil, List.foldl_nil]
  | cons c text ih =>
    cases digits with
    | nil => cases h
    | cons digit digits =>
      obtain ⟨hdigit, hrest⟩ := List.cons.inj h
      have hstep : addDigit (some (n % 97)) c = some ((n * 10 + digit) % 97) := by
        have hmod : (n % 97 * 10 + digit) % 97 = (n * 10 + digit) % 97 := by omega
        simp [addDigit, hdigit, hmod]
      rw [List.foldl_cons, hstep, ih hrest, List.foldl_cons]

theorem foldl_digits (digits : List ℕ) :
    digits.foldl (fun n digit => n * 10 + digit) 0 = Nat.ofDigits 10 digits.reverse := by
  rw [Nat.ofDigits_eq_foldr, List.foldr_reverse]
  congr 1
  funext n digit
  simp only [Nat.cast_id]
  omega

theorem rotated_alphanumeric (h : Alphanumeric value) : Alphanumeric (rotated value) := by
  intro c hc
  rcases List.mem_append.mp hc with hc | hc
  · exact h c (List.mem_of_mem_drop hc)
  · exact h c (List.mem_of_mem_take hc)

theorem flatMap_numbers (h : Alphanumeric value) :
    (value.flatMap digitText).map digitNumber = (value.flatMap digitsFor).map some := by
  induction value with
  | nil => rfl
  | cons c value ih =>
    have hrest := ih fun d hd => h d (List.mem_cons_of_mem _ hd)
    rw [List.flatMap_cons, List.flatMap_cons, List.map_append, List.map_append, hrest,
      digitText_numbers (h c List.mem_cons_self)]

theorem remainder97_eq (h : Alphanumeric value) : remainder97 value = some (ibanNumber value % 97) := by
  rw [remainder97_flat, ibanNumber, ← foldl_digits]
  exact foldl_addDigit (flatMap_numbers (rotated_alphanumeric h)) 0

theorem foldl_addDigit_lt {text : List Char} {start n : ℕ} (hstart : start < 97)
    (h : text.foldl addDigit (some start) = some n) : n < 97 := by
  induction text generalizing start with
  | nil =>
    cases h
    exact hstart
  | cons c text ih =>
    cases hdigit : digitNumber c with
    | none =>
      have hnone : ∀ rest : List Char, rest.foldl addDigit none = none := by
        intro rest
        induction rest with
        | nil => rfl
        | cons d rest ih => exact ih
      rw [List.foldl_cons, show addDigit (some start) c = none by simp [addDigit, hdigit], hnone] at h
      cases h
    | some digit =>
      rw [List.foldl_cons, show addDigit (some start) c = some ((start * 10 + digit) % 97) by simp [addDigit, hdigit]] at h
      exact ih (Nat.mod_lt _ (by omega)) h

theorem digitNumber_le {n : ℕ} (h : digitNumber c = some n) : n ≤ 9 := by
  unfold digitNumber at h
  split at h
  · rename_i hdigit
    have hrange := toNat_digit hdigit
    cases h
    omega
  · split at h
    · cases h
      omega
    · cases h

/-! ## One digit -/

/-- Two texts that differ in one place, where both have a digit. -/
def OneDigitApart (value other : List Char) : Prop :=
  ∃ before d e after, d.isDigit = true ∧ e.isDigit = true ∧ d ≠ e ∧ value = before ++ d :: after ∧
    other = before ++ e :: after

theorem rotated_place (before after : List Char) :
    ∃ start rest, ∀ c, rotated (before ++ c :: after) = start ++ c :: rest := by
  rcases Nat.lt_or_ge before.length 4 with hshort | hlong
  · refine ⟨after.drop (3 - before.length) ++ before, after.take (3 - before.length), fun c => ?_⟩
    have hplace : 4 - before.length = (3 - before.length) + 1 := by omega
    rw [rotated, List.drop_append, List.drop_of_length_le (by omega), List.take_append, List.take_of_length_le (by omega),
      hplace, List.drop_succ_cons, List.take_succ_cons, List.nil_append, List.append_assoc]
  · refine ⟨before.drop 4, after ++ before.take 4, fun c => ?_⟩
    rw [rotated, List.drop_append_of_le_length hlong, List.take_append_of_le_length hlong, List.append_assoc, List.cons_append]

theorem ibanNumber_place (before after : List Char) : ∃ places low high, ∀ c : Char, c.isDigit = true →
      ibanNumber (before ++ c :: after) = low + 10 ^ places * (c.toNat - 48 + 10 * high) := by
  obtain ⟨start, rest, hrotated⟩ := rotated_place before after
  refine ⟨(rest.flatMap digitsFor).reverse.length, Nat.ofDigits 10 (rest.flatMap digitsFor).reverse,
    Nat.ofDigits 10 (start.flatMap digitsFor).reverse, fun c hc => ?_⟩
  rw [ibanNumber, hrotated, List.flatMap_append, List.flatMap_cons, digitsFor_digit hc, List.reverse_append,
    List.reverse_append, List.append_assoc, Nat.ofDigits_append]
  rfl

theorem ibanNumber_apart {other : List Char} (h : OneDigitApart value other) :
    ibanNumber value % 97 ≠ ibanNumber other % 97 := by
  obtain ⟨before, d, e, after, hd, he, hne, rfl, rfl⟩ := h
  obtain ⟨places, low, high, hnumber⟩ := ibanNumber_place before after
  intro heq
  rw [hnumber d hd, hnumber e he] at heq
  have hcoprime : Nat.gcd 97 (10 ^ places) = 1 := Nat.Coprime.pow_right places (by decide)
  have hplaces := Nat.ModEq.cancel_left_of_coprime hcoprime (Nat.ModEq.add_left_cancel' low heq)
  have hdigits : d.toNat - 48 ≡ e.toNat - 48 [MOD 97] := Nat.ModEq.add_right_cancel' (10 * high) hplaces
  have hd := toNat_digit hd
  have he := toNat_digit he
  have hsame := hdigits.eq_of_lt_of_lt (by omega) (by omega)
  exact hne (Char.toNat_inj.mp (by omega))

theorem alphanumeric_of_shape (h : ibanShape value = true) : Alphanumeric value := by
  unfold ibanShape at h
  split at h
  · rename_i first second third fourth rest
    simp only [Bool.and_eq_true, List.all_eq_true, Bool.or_eq_true] at h
    obtain ⟨⟨⟨⟨⟨⟨hfirst, hsecond⟩, hthird⟩, hfourth⟩, hrest⟩, -⟩, -⟩ := h
    intro c hc
    simp only [List.mem_cons] at hc
    rcases hc with rfl | rfl | rfl | rfl | hc
    · exact .inl hfirst
    · exact .inl hsecond
    · exact .inr hthird
    · exact .inr hfourth
    · exact hrest c hc
  · cases h

theorem iban_iff (h : ibanShape value = true) : iban value = true ↔ ibanNumber value % 97 = 1 := by
  rw [iban, h, remainder97_eq (alphanumeric_of_shape h)]
  simp

/-- The loop computes the remainder of the number, without a value over 969, and no mistaken digit passes. -/
theorem iban_remainder : (∀ value, Alphanumeric value → remainder97 value = some (ibanNumber value % 97)) ∧
      (∀ value, ibanShape value = true → (iban value = true ↔ ibanNumber value % 97 = 1)) ∧
      (∀ value before digit after n number, (rotated value).flatMap digitText = before ++ digit :: after →
        before.foldl addDigit (some 0) = some n → digitNumber digit = some number → n * 10 + number ≤ 969) ∧
      ∀ value other, ibanShape value = true → ibanShape other = true → OneDigitApart value other →
        ¬ (iban value = true ∧ iban other = true) := by
  refine ⟨fun value h => remainder97_eq h, fun value h => iban_iff h, ?_, ?_⟩
  · intro value before digit after n number hsplit hbefore hdigit
    have hn := foldl_addDigit_lt (by omega) hbefore
    have hnumber := digitNumber_le hdigit
    omega
  · rintro value other hvalue hother hapart ⟨hone, htwo⟩
    rw [iban_iff hvalue] at hone
    rw [iban_iff hother] at htwo
    exact ibanNumber_apart hapart (hone.trans htwo.symm)

end AvenOS.DocumentIngest
