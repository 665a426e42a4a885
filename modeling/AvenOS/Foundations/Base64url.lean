import Mathlib.Data.List.GetD
import Mathlib.Data.Nat.Bitwise

/-! # Base64url

Digits of one width are regrouped into digits of another, bit by bit from the highest on. Bytes regrouped into sextets
and back are the same bytes, so a text that is the encoding of its decoding is the only one of its kind. -/
namespace AvenOS.Base64url

/-! ## Regrouping -/

/-- The bit at a place of a sequence of digits; behind the last digit all bits are zero. -/
def bitAt (width : ℕ) (digits : List ℕ) (i : ℕ) : Bool := (digits.getD (i / width) 0).testBit (width - 1 - i % width)

/-- The first digits of another width over the same bits. -/
def regroup (width wide count : ℕ) (digits : List ℕ) : List ℕ :=
  (List.range count).map fun i => Nat.ofBits fun k : Fin wide => bitAt width digits (wide * i + (wide - 1 - k))

theorem regroup_length (width wide count : ℕ) (digits : List ℕ) : (regroup width wide count digits).length = count := by
  rw [regroup, List.length_map, List.length_range]

variable {width wide count : ℕ} {digits : List ℕ}

theorem regroup_lt {digit : ℕ} (h : digit ∈ regroup width wide count digits) : digit < 2 ^ wide := by
  obtain ⟨i, _, rfl⟩ := List.mem_map.mp h
  exact Nat.ofBits_lt_two_pow _

variable {i n : ℕ}

theorem bitAt_regroup (hwide : 0 < wide) (hi : i < wide * count) :
    bitAt wide (regroup width wide count digits) i = bitAt width digits i := by
  have hdigit : i / wide < count := Nat.div_lt_of_lt_mul hi
  have hmod := Nat.mod_lt i hwide
  have hlookup : (regroup width wide count digits).getD (i / wide) 0 =
      Nat.ofBits fun k : Fin wide => bitAt width digits (wide * (i / wide) + (wide - 1 - k)) := by
    rw [List.getD_eq_getElem _ _ (by rw [regroup_length]; exact hdigit)]
    simp [regroup]
  rw [bitAt, hlookup, Nat.testBit_ofBits_lt _ _ (by omega)]
  have hplace : wide * (i / wide) + (wide - 1 - (wide - 1 - i % wide)) = i := by
    have hdiv := Nat.div_add_mod i wide
    omega
  exact congrArg (bitAt width digits) hplace

theorem digit_eq (h : ∀ digit ∈ digits, digit < 2 ^ width) (hi : i < digits.length) :
    (Nat.ofBits fun k : Fin width => bitAt width digits (width * i + (width - 1 - k))) = digits[i] := by
  apply Nat.eq_of_testBit_eq
  intro j
  by_cases hj : j < width
  · rw [Nat.testBit_ofBits_lt _ _ hj]
    have hdiv : (width * i + (width - 1 - j)) / width = i := by
      rw [Nat.mul_add_div (by omega), Nat.div_eq_of_lt (by omega), Nat.add_zero]
    have hmod : (width * i + (width - 1 - j)) % width = width - 1 - j := by
      rw [Nat.mul_add_mod, Nat.mod_eq_of_lt (by omega)]
    rw [bitAt, hdiv, hmod, List.getD_eq_getElem _ _ hi]
    congr 1
    omega
  · rw [Nat.testBit_ofBits_ge _ _ (by omega)]
    have hlt : digits[i] < 2 ^ j := (h _ (List.getElem_mem hi)).trans_le (Nat.pow_le_pow_right (by omega) (by omega))
    exact (Nat.testBit_lt_two_pow hlt).symm

theorem regroup_regroup (hwide : 0 < wide)
    (h : ∀ digit ∈ digits, digit < 2 ^ width) (hcount : width * digits.length ≤ wide * count) :
    regroup wide width digits.length (regroup width wide count digits) = digits := by
  apply List.ext_getElem
  · exact regroup_length _ _ _ _
  · intro i hi hi'
    rw [← digit_eq h hi']
    simp only [regroup, List.getElem_map, List.getElem_range]
    refine congrArg Nat.ofBits (funext fun k => ?_)
    have hk := k.isLt
    have hplace : width * i + (width - 1 - k) < wide * count := by
      have hstep : width * i + width ≤ width * digits.length := by
        rw [← Nat.mul_succ]
        exact Nat.mul_le_mul_left width hi'
      omega
    exact bitAt_regroup hwide hplace

/-! ## Characters -/

def alphabet : List Char :=
  "ABCDEFGHIJKLMNOPQRSTUVWXYZabcdefghijklmnopqrstuvwxyz0123456789-_".toList

def isLetter (c : Char) : Bool := alphabet.contains c

def letter (sextet : ℕ) : Char := alphabet.getD sextet 'A'

def sextet (c : Char) : ℕ := alphabet.idxOf c

theorem sextet_letter (h : n < 64) : sextet (letter n) = n := by
  have hall : ∀ m < 64, sextet (letter m) = m := by decide +kernel
  exact hall n h

theorem isLetter_letter (h : n < 64) : isLetter (letter n) = true := by
  have hall : ∀ m < 64, isLetter (letter m) = true := by decide +kernel
  exact hall n h

/-! ## Texts -/

def encode (bytes : List UInt8) : List Char :=
  (regroup 8 6 ((8 * bytes.length + 5) / 6) (bytes.map UInt8.toNat)).map letter

/-- Six bits of each character, and as many bytes as they fill. -/
def decode (text : List Char) : List UInt8 :=
  (regroup 6 8 (6 * text.length / 8) (text.map sextet)).map UInt8.ofNat

theorem encode_length (bytes : List UInt8) : (encode bytes).length = (8 * bytes.length + 5) / 6 := by
  rw [encode, List.length_map, regroup_length]

theorem encode_letters {bytes : List UInt8} {c : Char} (h : c ∈ encode bytes) : isLetter c = true := by
  obtain ⟨n, hn, rfl⟩ := List.mem_map.mp h
  exact isLetter_letter (regroup_lt hn)

theorem decode_encode (bytes : List UInt8) : decode (encode bytes) = bytes := by
  have hsextets : (encode bytes).map sextet = regroup 8 6 ((8 * bytes.length + 5) / 6) (bytes.map UInt8.toNat) := by
    rw [encode, List.map_map]
    exact (List.map_congr_left fun n hn => sextet_letter (regroup_lt hn)).trans (List.map_id _)
  have hcount : 6 * ((8 * bytes.length + 5) / 6) / 8 = (bytes.map UInt8.toNat).length := by
    rw [List.length_map]
    omega
  have hbytes : ∀ digit ∈ bytes.map UInt8.toNat, digit < 2 ^ 8 := by
    intro digit hdigit
    obtain ⟨byte, _, rfl⟩ := List.mem_map.mp hdigit
    exact byte.toNat_lt
  rw [decode, encode_length, hsextets, hcount, regroup_regroup (by omega) hbytes (by rw [List.length_map]; omega),
    List.map_map]
  exact (List.map_congr_left fun byte _ => UInt8.ofNat_toNat).trans (List.map_id _)

end AvenOS.Base64url
