import AvenOS.Foundations.CompactJson
import AvenOS.Foundations.DecimalText

/-! # JSON pointers

The pointers of RFC 6901: their escapes, the numerals of array items, and what a pointer reaches in a value. A pointer is
made for every place of a value, and reaches what is there. -/
namespace AvenOS.Json.Pointer

/-! ## Escapes -/

def escape : Text → Text
  | [] => []
  | c :: rest =>
    if c = '~' then '~' :: '0' :: escape rest
    else if c = '/' then '~' :: '1' :: escape rest
    else c :: escape rest

/-- A tilde that is not escaped has no meaning. -/
def unescape : Text → Option Text
  | [] => some []
  | '~' :: '0' :: rest => (unescape rest).map ('~' :: ·)
  | '~' :: '1' :: rest => (unescape rest).map ('/' :: ·)
  | c :: rest => if c = '~' then none else (unescape rest).map (c :: ·)

theorem unescape_plain {c : Char} (hc : c ≠ '~') (rest : Text) : unescape (c :: rest) = (unescape rest).map (c :: ·) := by
  rw [unescape, if_neg hc]
  · exact fun _ h _ => hc h
  · exact fun _ h _ => hc h

theorem unescape_escape (key : Text) : unescape (escape key) = some key := by
  induction key with
  | nil => rfl
  | cons c rest ih =>
    rw [escape]
    split
    · rename_i hc
      rw [unescape, ih, hc]
      rfl
    · rename_i htilde
      split
      · rename_i hc
        rw [unescape, ih, hc]
        rfl
      · rw [unescape_plain htilde, ih]
        rfl

variable {token : Text} {value reached : Tree} {places : List Place}

theorem escape_unescape {key : Text} (h : unescape token = some key) (hslash : '/' ∉ token) : escape key = token := by
  induction token using unescape.induct generalizing key with
  | case1 =>
    cases h
    rfl
  | case2 rest ih =>
    rw [unescape] at h
    obtain ⟨inner, hinner, rfl⟩ := Option.map_eq_some_iff.mp h
    rw [escape, if_pos rfl, ih hinner fun hmem => hslash (by simp [hmem])]
  | case3 rest ih =>
    rw [unescape] at h
    obtain ⟨inner, hinner, rfl⟩ := Option.map_eq_some_iff.mp h
    rw [escape, if_neg (by decide), if_pos rfl, ih hinner fun hmem => hslash (by simp [hmem])]
  | case4 rest hzero hone =>
    rw [unescape, if_pos rfl] at h
    · cases h
    · exact hzero
    · exact hone
  | case5 c rest hzero hone hc ih =>
    rw [unescape_plain hc] at h
    obtain ⟨inner, hinner, rfl⟩ := Option.map_eq_some_iff.mp h
    have hplain : c ≠ '/' := fun heq => hslash (heq ▸ List.mem_cons_self)
    rw [escape, if_neg hc, if_neg hplain, ih hinner fun hmem => hslash (List.mem_cons_of_mem _ hmem)]

theorem slash_escape (key : Text) : '/' ∉ escape key := by
  induction key with
  | nil => exact List.not_mem_nil
  | cons c rest ih =>
    rw [escape]
    split
    · simp [ih]
    · split
      · simp [ih]
      · rename_i hslash
        simp [ih, Ne.symm hslash]

/-! ## Numerals of items -/

/-- Zero, or digits without a leading zero. -/
def isIndex : Text → Bool
  | [] => false
  | c :: rest => if c = '0' then rest = [] else (c :: rest).all Char.isDigit

def arrayIndex (token : Text) : Option ℕ := if isIndex token then some (Nat.ofDigitChars 10 token 0) else none

theorem arrayIndex_iff {n : ℕ} : arrayIndex token = some n ↔ token = Nat.toDigits 10 n := by
  constructor
  · intro h
    obtain ⟨hindex, hvalue⟩ := Option.ite_none_right_eq_some.mp h
    cases hvalue
    cases token with
    | nil => cases hindex
    | cons c rest =>
      rw [isIndex] at hindex
      split at hindex
      · rename_i hzero
        have hrest : rest = [] := by simpa using hindex
        rw [hzero, hrest]
        rfl
      · rename_i hzero
        have hall : c.isDigit = true ∧ ∀ d ∈ rest, d.isDigit = true := by simpa using hindex
        exact (toDigits_ofDigitChars hall.1 hzero hall.2).2.symm
  · rintro rfl
    have hindex : isIndex (Nat.toDigits 10 n) = true := by
      rcases Nat.eq_zero_or_pos n with rfl | hn
      · rfl
      · obtain ⟨c, rest, hdigits, hc⟩ := toDigits_head hn
        have hall := toDigits_isDigit n
        rw [hdigits] at hall ⊢
        rw [isIndex, if_neg hc]
        exact List.all_eq_true.mpr hall
    rw [arrayIndex, if_pos hindex, Nat.ofDigitChars_ten_toDigits]

/-! ## What a pointer reaches -/

def step : Tree → Text → Option Tree
  | .array items, key => (arrayIndex key).bind fun index => items[index]?
  | .object members, key => members.lookup (String.ofList key)
  | _, _ => none

def follow (value : Tree) : List Text → Option Tree
  | [] => some value
  | token :: tokens => ((unescape token).bind (step value)).bind fun next => follow next tokens

def evaluate (value : Tree) (pointer : Text) : Option Tree :=
  match pointer with
  | [] => some value
  | c :: rest => if c = '/' then follow value (rest.splitOn '/') else none

/-! ## Places -/

inductive Place
  | item (index : ℕ)
  | field (key : String)
deriving DecidableEq, Repr

def Place.key : Place → Text
  | .item index => Nat.toDigits 10 index
  | .field key => key.toList

def Place.get : Place → Tree → Option Tree
  | .item index, .array items => items[index]?
  | .field key, .object members => members.lookup key
  | _, _ => none

def at? (value : Tree) : List Place → Option Tree
  | [] => some value
  | place :: places => (place.get value).bind fun next => at? next places

def pointerTo (places : List Place) : Text := places.flatMap fun place => '/' :: escape place.key

theorem step_key {place : Place} {next : Tree} (h : place.get value = some next) :
    step value place.key = some next := by
  cases place with
  | item index =>
    cases value with
    | array items =>
      rw [step, Place.key, arrayIndex_iff.mpr rfl]
      exact h
    | null | bool | number | string | object => cases h
  | field key =>
    cases value with
    | object members =>
      rw [step, Place.key, String.ofList_toList]
      exact h
    | null | bool | number | string | array => cases h

theorem follow_places (h : at? value places = some reached) :
    follow value (places.map fun place => escape place.key) = some reached := by
  induction places generalizing value with
  | nil => exact h
  | cons place places ih =>
    obtain ⟨next, hnext, hrest⟩ := Option.bind_eq_some_iff.mp h
    rw [List.map_cons, follow, unescape_escape, Option.bind_some, step_key hnext]
    exact ih hrest

theorem pointerTo_cons (place : Place) (places : List Place) :
    pointerTo (place :: places) = '/' :: ['/'].intercalate ((place :: places).map fun place => escape place.key) := by
  induction places generalizing place with
  | nil => simp [pointerTo]
  | cons next places ih =>
    have hrest := ih next
    rw [pointerTo] at hrest ⊢
    rw [List.flatMap_cons, hrest]
    simp [List.intercalate]

theorem evaluate_pointerTo (h : at? value places = some reached) :
    evaluate value (pointerTo places) = some reached := by
  cases places with
  | nil => exact h
  | cons place places =>
    have hplain : ∀ token ∈ (place :: places).map fun place => escape place.key, '/' ∉ token := by
      intro token htoken
      obtain ⟨other, -, rfl⟩ := List.mem_map.mp htoken
      exact slash_escape other.key
    rw [pointerTo_cons, evaluate, if_pos rfl, List.splitOn_intercalate _ hplain (List.cons_ne_nil _ _), follow_places h]

end AvenOS.Json.Pointer
