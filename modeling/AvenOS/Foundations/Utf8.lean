import Mathlib.Data.Fin.Basic
import Mathlib.Data.Nat.Notation
import Mathlib.Tactic.IntervalCases

/-! # Texts as bytes

`TextEncoder` and `TextDecoder` of the Encoding standard for UTF-8, over code points. A surrogate without its partner is a
code point of its own, which no bytes stand for. -/
namespace AvenOS.Utf8

instance points_neZero : NeZero 0x110000 := ⟨by decide⟩

abbrev Point := Fin 0x110000

abbrev Text := List Point

/-! ## Encoding -/

def isSurrogate (c : Point) : Bool := 0xD800 ≤ c.val && c.val < 0xE000

def replacement : Point := 0xFFFD

def byteOrderMark : Point := 0xFEFF

/-- What is encoded in place of a code point. -/
def scalar (c : Point) : Point := if isSurrogate c then replacement else c

def encodeScalar (n : ℕ) : List ℕ :=
  if n < 0x80 then [n]
  else if n < 0x800 then [0xC0 + n / 64, 0x80 + n % 64]
  else if n < 0x10000 then [0xE0 + n / 4096, 0x80 + n / 64 % 64, 0x80 + n % 64]
  else [0xF0 + n / 262144, 0x80 + n / 4096 % 64, 0x80 + n / 64 % 64, 0x80 + n % 64]

def encodePoint (c : Point) : List ℕ := encodeScalar (scalar c).val

def encode (text : Text) : List ℕ := text.flatMap encodePoint

def size (text : Text) : ℕ := (encode text).length

/-! ## Decoding -/

/-- A character of which bytes are missing: how many, its bits, and what the next byte may be. -/
structure Pending where
  left : ℕ
  bits : ℕ
  lower : ℕ
  upper : ℕ
deriving DecidableEq, Repr

/-- A byte between two characters. -/
def begin (byte : ℕ) : Text × Option Pending :=
  if byte < 0x80 then ([Fin.ofNat _ byte], none)
  else if 0xC2 ≤ byte ∧ byte ≤ 0xDF then ([], some ⟨1, byte % 32, 0x80, 0xBF⟩)
  else if 0xE0 ≤ byte ∧ byte ≤ 0xEF then
    ([], some ⟨2, byte % 16, if byte = 0xE0 then 0xA0 else 0x80, if byte = 0xED then 0x9F else 0xBF⟩)
  else if 0xF0 ≤ byte ∧ byte ≤ 0xF4 then
    ([], some ⟨3, byte % 8, if byte = 0xF0 then 0x90 else 0x80, if byte = 0xF4 then 0x8F else 0xBF⟩)
  else ([replacement], none)

def decodeFrom : Option Pending → List ℕ → Text
  | none, [] => []
  | some _, [] => [replacement]
  | none, byte :: bytes => (begin byte).1 ++ decodeFrom (begin byte).2 bytes
  | some pending, byte :: bytes =>
    if pending.lower ≤ byte ∧ byte ≤ pending.upper then
      let bits := pending.bits * 64 + byte % 64
      if pending.left = 1 then Fin.ofNat _ bits :: decodeFrom none bytes
      else decodeFrom (some ⟨pending.left - 1, bits, 0x80, 0xBF⟩) bytes
    else replacement :: ((begin byte).1 ++ decodeFrom (begin byte).2 bytes)

def withoutMark : Text → Text
  | [] => []
  | c :: text => if c = byteOrderMark then text else c :: text

def decode (bytes : List ℕ) : Text := withoutMark (decodeFrom none bytes)

/-! ## Whole characters -/

theorem scalar_not_surrogate (c : Point) : ¬ (0xD800 ≤ (scalar c).val ∧ (scalar c).val < 0xE000) := by
  unfold scalar
  split
  · decide
  · rename_i h
    simpa [isSurrogate] using h

inductive Completes : Pending → List ℕ → ℕ → Prop
  | last {bits lower upper byte : ℕ} (hlower : lower ≤ byte) (hupper : byte ≤ upper) :
      Completes ⟨1, bits, lower, upper⟩ [byte] (bits * 64 + byte % 64)
  | more {left bits lower upper byte n : ℕ} {bytes : List ℕ} (hlower : lower ≤ byte) (hupper : byte ≤ upper)
      (h : Completes ⟨left + 1, bits * 64 + byte % 64, 0x80, 0xBF⟩ bytes n) :
      Completes ⟨left + 2, bits, lower, upper⟩ (byte :: bytes) n

variable {pending : Pending} {bytes : List ℕ} {n k : ℕ}

theorem Completes.decode (h : Completes pending bytes n) (rest : List ℕ) :
    decodeFrom (some pending) (bytes ++ rest) = Fin.ofNat _ n :: decodeFrom none rest := by
  induction h with
  | last hlower hupper =>
    rw [List.singleton_append, decodeFrom, if_pos ⟨hlower, hupper⟩]
    rfl
  | more hlower hupper h ih =>
    rw [List.cons_append, decodeFrom, if_pos ⟨hlower, hupper⟩]
    exact ih

theorem Completes.cut (h : Completes pending bytes n) (hk : k < bytes.length) :
    decodeFrom (some pending) (bytes.take k) = [replacement] := by
  induction h generalizing k with
  | last hlower hupper =>
    cases Nat.lt_one_iff.mp hk
    rfl
  | more hlower hupper h ih =>
    cases k with
    | zero => rfl
    | succ k =>
      rw [List.take_succ_cons, decodeFrom, if_pos ⟨hlower, hupper⟩]
      exact ih (Nat.lt_of_succ_lt_succ hk)

theorem begin_two (hlow : 0x80 ≤ n) (hhigh : n < 0x800) :
    begin (0xC0 + n / 64) = ([], some ⟨1, n / 64, 0x80, 0xBF⟩) := by
  have hbits : (0xC0 + n / 64) % 32 = n / 64 := by omega
  rw [begin, if_neg (by omega), if_pos (by omega), hbits]

theorem begin_three (hlow : 0x800 ≤ n) (hhigh : n < 0x10000) (hplain : ¬ (0xD800 ≤ n ∧ n < 0xE000)) :
    ∃ lower upper, begin (0xE0 + n / 4096) = ([], some ⟨2, n / 4096, lower, upper⟩) ∧
      lower ≤ 0x80 + n / 64 % 64 ∧ 0x80 + n / 64 % 64 ≤ upper := by
  have hbits : (0xE0 + n / 4096) % 16 = n / 4096 := by omega
  refine ⟨if 0xE0 + n / 4096 = 0xE0 then 0xA0 else 0x80, if 0xE0 + n / 4096 = 0xED then 0x9F else 0xBF, ?_, ?_, ?_⟩
  · rw [begin, if_neg (by omega), if_neg (by omega), if_pos (by omega), hbits]
  · split <;> omega
  · split <;> omega

theorem begin_four (hlow : 0x10000 ≤ n) (hhigh : n < 0x110000) :
    ∃ lower upper, begin (0xF0 + n / 262144) = ([], some ⟨3, n / 262144, lower, upper⟩) ∧
      lower ≤ 0x80 + n / 4096 % 64 ∧ 0x80 + n / 4096 % 64 ≤ upper := by
  have hbits : (0xF0 + n / 262144) % 8 = n / 262144 := by omega
  refine ⟨if 0xF0 + n / 262144 = 0xF0 then 0x90 else 0x80, if 0xF0 + n / 262144 = 0xF4 then 0x8F else 0xBF, ?_, ?_, ?_⟩
  · rw [begin, if_neg (by omega), if_neg (by omega), if_neg (by omega), if_pos (by omega), hbits]
  · split <;> omega
  · split <;> omega

theorem encodeScalar_completes (hlow : 0x80 ≤ n) (hhigh : n < 0x110000) (hplain : ¬ (0xD800 ≤ n ∧ n < 0xE000)) :
    ∃ byte bytes pending, encodeScalar n = byte :: bytes ∧ begin byte = ([], some pending) ∧ Completes pending bytes n := by
  by_cases htwo : n < 0x800
  · refine ⟨_, _, _, by rw [encodeScalar, if_neg (by omega), if_pos htwo], begin_two hlow htwo, ?_⟩
    have hn : n / 64 * 64 + (0x80 + n % 64) % 64 = n := by omega
    have hlast := @Completes.last (n / 64) 0x80 0xBF (0x80 + n % 64) (by omega) (by omega)
    rwa [hn] at hlast
  · by_cases hthree : n < 0x10000
    · obtain ⟨lower, upper, hbegin, hlower, hupper⟩ := begin_three (by omega) hthree hplain
      refine ⟨_, _, _, by rw [encodeScalar, if_neg (by omega), if_neg htwo, if_pos hthree], hbegin, .more hlower hupper ?_⟩
      have hn : (n / 4096 * 64 + (0x80 + n / 64 % 64) % 64) * 64 + (0x80 + n % 64) % 64 = n := by omega
      have hlast := @Completes.last (n / 4096 * 64 + (0x80 + n / 64 % 64) % 64) 0x80 0xBF (0x80 + n % 64) (by omega) (by omega)
      rwa [hn] at hlast
    · obtain ⟨lower, upper, hbegin, hlower, hupper⟩ := begin_four (by omega) hhigh
      refine ⟨_, _, _, by rw [encodeScalar, if_neg (by omega), if_neg htwo, if_neg hthree], hbegin,
        .more hlower hupper (.more (by omega) (by omega) ?_)⟩
      have hn : ((n / 262144 * 64 + (0x80 + n / 4096 % 64) % 64) * 64 + (0x80 + n / 64 % 64) % 64) * 64 +
          (0x80 + n % 64) % 64 = n := by omega
      have hlast := @Completes.last ((n / 262144 * 64 + (0x80 + n / 4096 % 64) % 64) * 64 + (0x80 + n / 64 % 64) % 64) 0x80 0xBF
        (0x80 + n % 64) (by omega) (by omega)
      rwa [hn] at hlast

theorem ofNat_val (c : Point) : Fin.ofNat 0x110000 c.val = c := Fin.ext (Nat.mod_eq_of_lt c.isLt)

theorem decode_point (c : Point) (rest : List ℕ) : decodeFrom none (encodePoint c ++ rest) = scalar c :: decodeFrom none rest := by
  rw [encodePoint]
  by_cases hone : (scalar c).val < 0x80
  · rw [encodeScalar, if_pos hone, List.singleton_append, decodeFrom, begin, if_pos hone, ofNat_val]
    rfl
  · obtain ⟨byte, bytes, pending, hbytes, hbegin, hcompletes⟩ :=
      encodeScalar_completes (by omega) (scalar c).isLt (scalar_not_surrogate c)
    rw [hbytes, List.cons_append, decodeFrom, hbegin, List.nil_append, hcompletes.decode, ofNat_val]

theorem decode_cut (c : Point) (hpos : 0 < k) (hk : k < (encodePoint c).length) :
    decodeFrom none ((encodePoint c).take k) = [replacement] := by
  rw [encodePoint] at hk ⊢
  by_cases hone : (scalar c).val < 0x80
  · rw [encodeScalar, if_pos hone, List.length_singleton] at hk
    omega
  · obtain ⟨byte, bytes, pending, hbytes, hbegin, hcompletes⟩ :=
      encodeScalar_completes (by omega) (scalar c).isLt (scalar_not_surrogate c)
    rw [hbytes] at hk ⊢
    obtain ⟨k, rfl⟩ := Nat.exists_eq_succ_of_ne_zero hpos.ne'
    rw [List.take_succ_cons, decodeFrom, hbegin, List.nil_append, hcompletes.cut (Nat.lt_of_succ_lt_succ hk)]

theorem decode_text (text : Text) (rest : List ℕ) :
    decodeFrom none (encode text ++ rest) = text.map scalar ++ decodeFrom none rest := by
  induction text with
  | nil => rfl
  | cons c text ih =>
    rw [encode, List.flatMap_cons, List.append_assoc, decode_point, ← encode, ih]
    rfl

/-! ## Sizes -/

theorem encode_cons (c : Point) (text : Text) : encode (c :: text) = encodePoint c ++ encode text := by
  rw [encode, List.flatMap_cons, ← encode]

theorem size_cons (c : Point) (text : Text) : size (c :: text) = (encodePoint c).length + size text := by
  rw [size, encode_cons, List.length_append, ← size]

theorem size_append (one other : Text) : size (one ++ other) = size one + size other := by
  rw [size, encode, List.flatMap_append, List.length_append, ← encode, ← encode, ← size, ← size]

theorem encodePoint_length (c : Point) : 1 ≤ (encodePoint c).length ∧ (encodePoint c).length ≤ 4 := by
  unfold encodePoint encodeScalar
  split_ifs <;> simp

theorem scalar_scalar (c : Point) : scalar (scalar c) = scalar c := by
  have hplain := scalar_not_surrogate c
  rw [scalar, if_neg]
  simpa [isSurrogate] using hplain

theorem encodePoint_scalar (c : Point) : encodePoint (scalar c) = encodePoint c := by
  rw [encodePoint, encodePoint, scalar_scalar]

theorem size_scalar (text : Text) : size (text.map scalar) = size text := by
  induction text with
  | nil => rfl
  | cons c text ih => rw [List.map_cons, size_cons, size_cons, ih, encodePoint_scalar]

/-! ## The characters that fit -/

/-- The characters at the front of which all bytes fit. -/
def fitting (room : ℕ) : Text → Text
  | [] => []
  | c :: text => if (encodePoint c).length ≤ room then c :: fitting (room - (encodePoint c).length) text else []

/-- The bytes that are left over, of the next character or of none. -/
def leftover (room : ℕ) (text : Text) : ℕ := room - size (fitting room text)

theorem fitting_prefix (room : ℕ) (text : Text) : fitting room text <+: text := by
  induction text generalizing room with
  | nil => exact List.prefix_refl _
  | cons c text ih =>
    rw [fitting]
    split
    · exact List.cons_prefix_cons.mpr ⟨rfl, ih _⟩
    · exact List.nil_prefix

theorem size_fitting (room : ℕ) (text : Text) : size (fitting room text) ≤ room := by
  induction text generalizing room with
  | nil => exact Nat.zero_le _
  | cons c text ih =>
    rw [fitting]
    split
    · rename_i hfits
      rw [size_cons]
      have hrest := ih (room - (encodePoint c).length)
      omega
    · exact Nat.zero_le _

theorem decode_take {room : ℕ} {text : Text} (hlong : room < size text) :
    ∃ c rest, text = fitting room text ++ c :: rest ∧ leftover room text < (encodePoint c).length ∧
      (encode text).take room = encode (fitting room text) ++ (encodePoint c).take (leftover room text) := by
  induction text generalizing room with
  | nil => exact absurd hlong (Nat.not_lt_zero _)
  | cons c text ih =>
    rw [size_cons] at hlong
    rw [leftover, fitting]
    by_cases hfits : (encodePoint c).length ≤ room
    · obtain ⟨d, rest, htext, hleft, htake⟩ := @ih (room - (encodePoint c).length) (by omega)
      rw [leftover] at hleft htake
      rw [if_pos hfits, size_cons, ← Nat.sub_sub]
      refine ⟨d, rest, by rw [List.cons_append, ← htext], hleft, ?_⟩
      have hroom : room = (encodePoint c).length + (room - (encodePoint c).length) := by omega
      rw [encode_cons, encode_cons, List.append_assoc, ← htake]
      conv_lhs => rw [hroom]
      rw [List.take_length_add_append]
    · rw [if_neg hfits]
      refine ⟨c, text, rfl, by rw [size, encode, List.flatMap_nil]; simpa using hfits, ?_⟩
      rw [encode_cons, List.take_append_of_le_length (by omega)]
      rfl

end AvenOS.Utf8
