import Mathlib.Data.List.Basic
import Mathlib.Data.Nat.Notation
import Mathlib.Order.Basic

/-! # Byte ranges of an artifact's content

`parse_byte_range` reads the header of a request for a part of the content. `RangeSpec` is the grammar of one range, with
the plus signs that the integer parser of the standard library admits besides. -/
namespace AvenOS.ArtifactStore

/-! ## The parser of the server -/

def usizeBound : ℕ := 0x10000000000000000

abbrev Usize := Fin usizeBound

def decimalValue (digits : List Char) : ℕ := Nat.ofDigitChars 10 digits 0

def parseUsize (text : List Char) : Option ℕ :=
  let digits := if text.head? = some '+' then text.tail else text
  if digits ≠ [] ∧ digits.all Char.isDigit = true ∧ decimalValue digits < usizeBound then some (decimalValue digits) else none

def usizeCheckedAdd (a b : ℕ) : Option ℕ := if a + b < usizeBound then some (a + b) else none

def splitOnce (separator : Char) : List Char → Option (List Char × List Char)
  | [] => none
  | c :: rest => if c = separator then some ([], rest) else (splitOnce separator rest).map fun parts => (c :: parts.1, parts.2)

def bytesUnit : List Char := "bytes=".toList

def suffixBounds (count : List Char) (length : ℕ) : Option (ℕ × ℕ) :=
  (parseUsize count).bind fun suffix => if suffix = 0 ∨ length = 0 then none else some (length - suffix, length)

def endExclusive (last : List Char) (length : ℕ) : Option ℕ :=
  if last = [] then some length else (parseUsize last).bind fun last => usizeCheckedAdd last 1

def parseByteRange (value : List Char) (length : Usize) : Option (ℕ × ℕ) :=
  (value.dropPrefix? bytesUnit).bind fun range =>
    if range.contains ',' then none
    else
      (splitOnce '-' range).bind fun parts =>
        (if parts.1 = [] then suffixBounds parts.2 length
          else (parseUsize parts.1).bind fun start =>
            (endExclusive parts.2 length).map fun stop => (start, min stop length)).bind fun bounds =>
          if bounds.2 ≤ bounds.1 ∨ length ≤ bounds.1 then none else some bounds

/-! ## The grammar of a range -/

structure RangeNumber where
  plus : Bool
  digits : List Char
  digits_ne : digits ≠ []
  digits_all : digits.all Char.isDigit = true

def RangeNumber.text (n : RangeNumber) : List Char := if n.plus then '+' :: n.digits else n.digits

def RangeNumber.value (n : RangeNumber) : ℕ := decimalValue n.digits

inductive RangeSpec where
  | span (first last : RangeNumber)
  | onward (first : RangeNumber)
  | suffix (count : RangeNumber)

namespace RangeSpec

def text : RangeSpec → List Char
  | .span first last => first.text ++ '-' :: last.text
  | .onward first => first.text ++ ['-']
  | .suffix count => '-' :: count.text

/-- What a range denotes of a content, where it is satisfiable. -/
def slice (length : ℕ) : RangeSpec → Option (ℕ × ℕ)
  | .span first last =>
    if first.value ≤ last.value ∧ first.value < length then some (first.value, min (last.value + 1) length) else none
  | .onward first => if first.value < length then some (first.value, length) else none
  | .suffix count => if count.value = 0 ∨ length = 0 then none else some (length - count.value, length)

def signed : RangeSpec → Bool
  | .span first last => first.plus || last.plus
  | .onward first => first.plus
  | .suffix count => count.plus

/-- The suffix, or what follows the last position, is a machine integer. -/
def fits : RangeSpec → Bool
  | .span _ last => decide (last.value + 1 < usizeBound)
  | .onward _ => true
  | .suffix count => decide (count.value < usizeBound)

end RangeSpec

/-- `value` is a range of the grammar. -/
def IsRange (value : List Char) (spec : RangeSpec) : Prop := value = bytesUnit ++ spec.text

/-! ## Numbers -/

theorem digit_ne {c : Char} {digits : List Char} (hall : digits.all Char.isDigit = true) (hc : c.isDigit = false) : c ∉ digits := by
  intro hmem
  rw [List.all_eq_true.mp hall c hmem] at hc
  cases hc

theorem RangeNumber.text_ne (n : RangeNumber) : n.text ≠ [] := by
  unfold text
  split
  · exact List.cons_ne_nil _ _
  · exact n.digits_ne

theorem RangeNumber.notMem_text (n : RangeNumber) {c : Char} (hc : c.isDigit = false) (hplus : c ≠ '+') : c ∉ n.text := by
  have hdigits := digit_ne n.digits_all hc
  unfold text
  split
  · simp [hplus, hdigits]
  · exact hdigits

theorem RangeNumber.read (n : RangeNumber) : (if n.text.head? = some '+' then n.text.tail else n.text) = n.digits := by
  have hplus := digit_ne n.digits_all (c := '+') (by decide)
  unfold text
  cases n.plus with
  | true => rfl
  | false =>
    rw [if_neg Bool.false_ne_true, if_neg]
    exact fun hhead => hplus (List.mem_of_mem_head? (hhead ▸ rfl))

theorem RangeNumber.text_inj {n m : RangeNumber} (h : n.text = m.text) : n = m := by
  have hdigits : n.digits = m.digits := by
    rw [← n.read, ← m.read, h]
  have hplus : n.plus = m.plus := by
    have hlength := congrArg List.length h
    unfold text at hlength
    rw [hdigits] at hlength
    cases hn : n.plus <;> cases hm : m.plus <;> simp [hn, hm] at hlength <;> rfl
  cases n
  cases m
  cases hdigits
  cases hplus
  rfl

theorem parseUsize_text (n : RangeNumber) : parseUsize n.text = if n.value < usizeBound then some n.value else none := by
  unfold parseUsize
  rw [n.read]
  simp only [n.digits_ne, n.digits_all, ne_eq, not_false_eq_true, true_and]
  rfl

theorem parseUsize_some {text : List Char} {value : ℕ} (h : parseUsize text = some value) :
    ∃ n : RangeNumber, text = n.text ∧ n.value = value := by
  unfold parseUsize at h
  obtain ⟨⟨hne, hall, -⟩, hvalue⟩ := Option.ite_none_right_eq_some.mp h
  by_cases hplus : text.head? = some '+'
  · rw [if_pos hplus] at hne hall hvalue
    refine ⟨⟨true, text.tail, hne, hall⟩, ?_, Option.some.inj hvalue⟩
    cases text with
    | nil => cases hplus
    | cons c rest => rw [Option.some.inj hplus]; rfl
  · rw [if_neg hplus] at hne hall hvalue
    exact ⟨⟨false, text, hne, hall⟩, rfl, Option.some.inj hvalue⟩

/-! ## The two parts of a range -/

theorem splitOnce_append {separator : Char} {before after : List Char} (h : separator ∉ before) :
    splitOnce separator (before ++ separator :: after) = some (before, after) := by
  induction before with
  | nil => simp [splitOnce]
  | cons c before ih =>
    rw [List.mem_cons, not_or] at h
    rw [List.cons_append, splitOnce, if_neg (Ne.symm h.1), ih h.2]
    rfl

theorem splitOnce_some {separator : Char} {l : List Char} {parts : List Char × List Char}
    (h : splitOnce separator l = some parts) : l = parts.1 ++ separator :: parts.2 := by
  induction l generalizing parts with
  | nil => cases h
  | cons c l ih =>
    rw [splitOnce] at h
    split at h
    · rename_i hc
      cases h
      rw [hc]
      rfl
    · obtain ⟨rest, hrest, rfl⟩ := Option.map_eq_some_iff.mp h
      rw [ih hrest]
      rfl

theorem dropPrefix_append (unit rest : List Char) : (unit ++ rest).dropPrefix? unit = some rest :=
  List.dropPrefix?_eq_some_iff.mpr ⟨unit, rfl, beq_iff_eq.mpr rfl⟩

def boundsOf (length : ℕ) (parts : List Char × List Char) : Option (ℕ × ℕ) :=
  if parts.1 = [] then suffixBounds parts.2 length
  else (parseUsize parts.1).bind fun start => (endExclusive parts.2 length).map fun stop => (start, min stop length)

namespace RangeSpec

def parts : RangeSpec → List Char × List Char
  | .span first last => (first.text, last.text)
  | .onward first => (first.text, [])
  | .suffix count => ([], count.text)

theorem text_parts (spec : RangeSpec) : spec.text = spec.parts.1 ++ '-' :: spec.parts.2 := by
  cases spec <;> rfl

theorem notMem_parts (spec : RangeSpec) {c : Char} (hc : c.isDigit = false) (hplus : c ≠ '+') :
    c ∉ spec.parts.1 ∧ c ∉ spec.parts.2 := by
  cases spec with
  | span first last => exact ⟨first.notMem_text hc hplus, last.notMem_text hc hplus⟩
  | onward first => exact ⟨first.notMem_text hc hplus, List.not_mem_nil⟩
  | suffix count => exact ⟨List.not_mem_nil, count.notMem_text hc hplus⟩

theorem parts_inj {spec other : RangeSpec} (h : spec.parts = other.parts) : spec = other := by
  have hfirst := congrArg Prod.fst h
  have hlast := congrArg Prod.snd h
  cases spec with
  | span first last =>
    cases other with
    | span first' last' => rw [RangeNumber.text_inj hfirst, RangeNumber.text_inj hlast]
    | onward first' => exact absurd hlast last.text_ne
    | suffix count => exact absurd hfirst first.text_ne
  | onward first =>
    cases other with
    | span first' last' => exact absurd hlast.symm last'.text_ne
    | onward first' => rw [RangeNumber.text_inj hfirst]
    | suffix count => exact absurd hfirst first.text_ne
  | suffix count =>
    cases other with
    | span first' last' => exact absurd hfirst.symm first'.text_ne
    | onward first' => exact absurd hfirst.symm first'.text_ne
    | suffix count' => rw [RangeNumber.text_inj hlast]

end RangeSpec

variable {value : List Char} {length : Usize} {spec : RangeSpec} {bounds : ℕ × ℕ}

theorem parseByteRange_parts (h : IsRange value spec) : parseByteRange value length =
      (boundsOf length spec.parts).bind fun bounds => if bounds.2 ≤ bounds.1 ∨ length ≤ bounds.1 then none else some bounds := by
  have hcomma := spec.notMem_parts (c := ',') (by decide) (by decide)
  have hdash := spec.notMem_parts (c := '-') (by decide) (by decide)
  have hno : spec.text.contains ',' = false := by
    rw [← Bool.not_eq_true, List.contains_iff_mem, spec.text_parts, List.mem_append, List.mem_cons]
    rintro (hmem | hmem | hmem)
    · exact hcomma.1 hmem
    · exact absurd hmem (by decide)
    · exact hcomma.2 hmem
  rw [parseByteRange, h, dropPrefix_append, Option.bind_some, hno, if_neg Bool.false_ne_true, spec.text_parts,
    splitOnce_append hdash.1, Option.bind_some, boundsOf]

theorem isRange_unique {other : RangeSpec} (h : IsRange value spec) (h' : IsRange value other) : spec = other := by
  have htext : spec.text = other.text := List.append_cancel_left (h.symm.trans h')
  have hsplit := congrArg (splitOnce '-') htext
  rw [spec.text_parts, other.text_parts, splitOnce_append (spec.notMem_parts (by decide) (by decide)).1,
    splitOnce_append (other.notMem_parts (by decide) (by decide)).1] at hsplit
  exact RangeSpec.parts_inj (Option.some.inj hsplit)

theorem suffixBounds_some {count : List Char} {length : ℕ} (h : suffixBounds count length = some bounds) :
    ∃ n : RangeNumber, count = n.text := by
  obtain ⟨suffix, hsuffix, -⟩ := Option.bind_eq_some_iff.mp h
  obtain ⟨n, hn, -⟩ := parseUsize_some hsuffix
  exact ⟨n, hn⟩

theorem boundsOf_some {length : ℕ} {parts : List Char × List Char} (h : boundsOf length parts = some bounds) :
    ∃ spec : RangeSpec, spec.parts = parts := by
  obtain ⟨start, last⟩ := parts
  rw [boundsOf] at h
  split at h
  · rename_i hstart
    obtain ⟨n, hn⟩ := suffixBounds_some h
    exact ⟨.suffix n, Prod.ext hstart.symm hn.symm⟩
  · obtain ⟨first, hfirst, hrest⟩ := Option.bind_eq_some_iff.mp h
    obtain ⟨stop, hstop, -⟩ := Option.map_eq_some_iff.mp hrest
    obtain ⟨n, hn, -⟩ := parseUsize_some hfirst
    rw [endExclusive] at hstop
    split at hstop
    · rename_i hlast
      exact ⟨.onward n, Prod.ext hn.symm hlast.symm⟩
    · obtain ⟨end', hend, -⟩ := Option.bind_eq_some_iff.mp hstop
      obtain ⟨m, hm, -⟩ := parseUsize_some hend
      exact ⟨.span n m, Prod.ext hn.symm hm.symm⟩

theorem parseByteRange_isRange (h : parseByteRange value length = some bounds) : ∃ spec, IsRange value spec := by
  obtain ⟨range, hrange, hrest⟩ := Option.bind_eq_some_iff.mp h
  obtain ⟨unit, rfl, hunit⟩ := List.dropPrefix?_eq_some_iff.mp hrange
  split at hrest
  · cases hrest
  · obtain ⟨parts, hparts, hbounds⟩ := Option.bind_eq_some_iff.mp hrest
    obtain ⟨found, hfound, -⟩ := Option.bind_eq_some_iff.mp hbounds
    obtain ⟨spec, rfl⟩ := boundsOf_some hfound
    exact ⟨spec, by rw [IsRange, beq_iff_eq.mp hunit, spec.text_parts, ← splitOnce_some hparts]⟩

theorem parseByteRange_slice (h : IsRange value spec) :
    parseByteRange value length = if spec.fits = true then spec.slice length else none := by
  have hlength : (length : ℕ) < usizeBound := length.isLt
  rw [parseByteRange_parts h]
  cases spec with
  | suffix count =>
    rw [boundsOf, RangeSpec.parts, if_pos rfl, suffixBounds, parseUsize_text, RangeSpec.slice]
    simp only [RangeSpec.fits, decide_eq_true_iff]
    split
    · rw [Option.bind_some]
      split
      · rfl
      · rename_i hzero
        rw [not_or] at hzero
        rw [Option.bind_some, if_neg (by omega)]
    · rfl
  | onward first =>
    rw [boundsOf, RangeSpec.parts, if_neg first.text_ne, parseUsize_text, RangeSpec.fits, RangeSpec.slice, if_pos rfl]
    by_cases hfirst : first.value < length
    · rw [if_pos (by omega), if_pos hfirst, Option.bind_some, endExclusive, if_pos rfl, Option.map_some, Option.bind_some,
        Nat.min_self, if_neg (by omega)]
    · rw [if_neg hfirst]
      split
      · rw [Option.bind_some, endExclusive, if_pos rfl, Option.map_some, Option.bind_some, if_pos (.inr (Nat.le_of_not_lt hfirst))]
      · rfl
  | span first last =>
    rw [boundsOf, RangeSpec.parts, if_neg first.text_ne, parseUsize_text, RangeSpec.slice]
    simp only [RangeSpec.fits, decide_eq_true_iff]
    by_cases hlast : last.value + 1 < usizeBound
    · have hstop : endExclusive last.text length = some (last.value + 1) := by
        rw [endExclusive, if_neg last.text_ne, parseUsize_text, if_pos (Nat.lt_of_succ_lt hlast), Option.bind_some, usizeCheckedAdd,
          if_pos hlast]
      rw [if_pos hlast, hstop]
      by_cases hok : first.value ≤ last.value ∧ first.value < length
      · rw [if_pos (by omega), if_pos hok, Option.bind_some, Option.map_some, Option.bind_some, if_neg (by omega)]
      · rw [if_neg hok]
        split
        · rw [Option.bind_some, Option.map_some, Option.bind_some, if_pos (by omega)]
        · rfl
    · have hstop : endExclusive last.text length = none := by
        rw [endExclusive, if_neg last.text_ne, parseUsize_text]
        split
        · rw [Option.bind_some, usizeCheckedAdd, if_neg hlast]
        · rfl
      rw [if_neg hlast, hstop]
      split <;> rfl

theorem slice_bounds {length : ℕ} (h : spec.slice length = some bounds) : bounds.1 < bounds.2 ∧ bounds.2 ≤ length := by
  cases spec with
  | span first last =>
    obtain ⟨hok, hbounds⟩ := Option.ite_none_right_eq_some.mp h
    cases hbounds
    dsimp only
    omega
  | onward first =>
    obtain ⟨hok, hbounds⟩ := Option.ite_none_right_eq_some.mp h
    cases hbounds
    exact ⟨hok, Nat.le_refl _⟩
  | suffix count =>
    obtain ⟨hok, hbounds⟩ := Option.ite_none_left_eq_some.mp h
    cases hbounds
    dsimp only
    omega

/-! ## The grammar and the parser -/

/-- The satisfiable ranges of RFC 9110 and no other text are accepted, with the slices that they denote. -/
def RangeExact (value : List Char) (length : Usize) : Prop :=
  (∀ bounds, parseByteRange value length = some bounds ↔
    ∃ spec, IsRange value spec ∧ spec.signed = false ∧ spec.slice length = some bounds) ∧
  ∀ bounds, parseByteRange value length = some bounds → bounds.1 < bounds.2 ∧ bounds.2 ≤ length

theorem parseByteRange_some : parseByteRange value length = some bounds ↔
      ∃ spec, IsRange value spec ∧ spec.fits = true ∧ spec.slice length = some bounds := by
  constructor
  · intro h
    obtain ⟨spec, hspec⟩ := parseByteRange_isRange h
    rw [parseByteRange_slice hspec] at h
    exact ⟨spec, hspec, Option.ite_none_right_eq_some.mp h⟩
  · rintro ⟨spec, hspec, hfits, hslice⟩
    rw [parseByteRange_slice hspec, if_pos hfits, hslice]

/-- It reads as RFC 9110 does exactly where a satisfiable range has a plus sign only if a number of it is no machine integer. -/
theorem rangeExact_iff (value : List Char) (length : Usize) : RangeExact value length ↔
      ∀ spec, IsRange value spec → (spec.slice length).isSome = true → spec.signed = !spec.fits := by
  constructor
  · rintro ⟨hexact, -⟩ spec hspec hsome
    obtain ⟨bounds, hbounds⟩ := Option.isSome_iff_exists.mp hsome
    cases hfits : spec.fits with
    | true =>
      have hparse := parseByteRange_some.2 ⟨spec, hspec, hfits, hbounds⟩
      obtain ⟨other, hother, hsigned, -⟩ := (hexact bounds).mp hparse
      rw [isRange_unique hspec hother]
      exact hsigned
    | false =>
      cases hsigned : spec.signed with
      | true => rfl
      | false =>
        have hparse := (hexact bounds).mpr ⟨spec, hspec, hsigned, hbounds⟩
        rw [parseByteRange_slice hspec, hfits] at hparse
        cases hparse
  · intro h
    refine ⟨fun bounds => ?_, fun bounds hparse => ?_⟩
    · rw [parseByteRange_some]
      constructor
      · rintro ⟨spec, hspec, hfits, hslice⟩
        have hsigned := h spec hspec (hslice ▸ rfl)
        rw [hfits] at hsigned
        exact ⟨spec, hspec, hsigned, hslice⟩
      · rintro ⟨spec, hspec, hsigned, hslice⟩
        have hfits := h spec hspec (hslice ▸ rfl)
        rw [hsigned] at hfits
        exact ⟨spec, hspec, by simpa using hfits.symm, hslice⟩
    · obtain ⟨spec, -, -, hslice⟩ := parseByteRange_some.1 hparse
      exact slice_bounds hslice

/-- `bytes=+0-5` is no range of RFC 9110, and answered with six bytes. -/
theorem plus_sign_accepted : ¬ ∀ value length, RangeExact value length := by
  intro h
  have hparse : parseByteRange "bytes=+0-5".toList ⟨10, by decide⟩ = some (0, 6) := by decide
  obtain ⟨spec, hspec, hsigned, -⟩ := ((h _ _).1 _).mp hparse
  have hsame := isRange_unique hspec
    (show IsRange "bytes=+0-5".toList (.span ⟨true, ['0'], by decide, by decide⟩ ⟨false, ['5'], by decide, by decide⟩) by
      unfold IsRange
      decide)
  rw [hsame] at hsigned
  cases hsigned

end AvenOS.ArtifactStore
