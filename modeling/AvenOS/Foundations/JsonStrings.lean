import AvenOS.Foundations.JsonReader

/-! # What JSON strings denote

A string denotes UTF-16 code units; whether they are the units of characters is another matter. The
canonical spelling of a character escapes what must be escaped, in lower case. -/
namespace AvenOS.Json

/-! ## Code units -/

def utf16 (c : Char) : List ℕ :=
  if c.toNat < 0x10000 then [c.toNat]
  else [0xD800 + (c.toNat - 0x10000) / 0x400, 0xDC00 + (c.toNat - 0x10000) % 0x400]

def unitsOf (text : Text) : List ℕ := text.flatMap utf16

def isHigh (u : ℕ) : Bool := 0xD800 ≤ u && u < 0xDC00

def isLow (u : ℕ) : Bool := 0xDC00 ≤ u && u < 0xE000

/-- The characters that some units encode, if none is alone. -/
def decodeUtf16 : List ℕ → Option Text
  | [] => some []
  | u :: rest =>
    if isHigh u then
      match rest with
      | [] => none
      | v :: rest =>
        if isLow v then
          (decodeUtf16 rest).map (Char.ofNat (0x10000 + (u - 0xD800) * 0x400 + (v - 0xDC00)) :: ·)
        else none
    else if isLow u then none
    else (decodeUtf16 rest).map (Char.ofNat u :: ·)

theorem toNat_valid (c : Char) : c.toNat < 0xD800 ∨ 0xDFFF < c.toNat ∧ c.toNat < 0x110000 := c.valid

theorem toNat_ofNat {n : ℕ} (h : n < 0xD800 ∨ 0xDFFF < n ∧ n < 0x110000) : (Char.ofNat n).toNat = n := by
  have hvalid : n.isValidChar := h
  rw [Char.ofNat, dif_pos hvalid]
  rfl

theorem decodeUtf16_utf16 (c : Char) (rest : List ℕ) :
    decodeUtf16 (utf16 c ++ rest) = (decodeUtf16 rest).map (c :: ·) := by
  have hvalid := toNat_valid c
  unfold utf16
  by_cases hsmall : c.toNat < 0x10000
  · rw [if_pos hsmall, List.singleton_append, decodeUtf16.eq_def]
    have hhigh : isHigh c.toNat = false := by simp [isHigh]; omega
    have hlow : isLow c.toNat = false := by simp [isLow]; omega
    simp [hhigh, hlow]
  · rw [if_neg hsmall, List.cons_append, List.singleton_append, decodeUtf16.eq_def]
    have hhigh : isHigh (0xD800 + (c.toNat - 0x10000) / 0x400) = true := by simp [isHigh]; omega
    have hlow : isLow (0xDC00 + (c.toNat - 0x10000) % 0x400) = true := by simp [isLow]; omega
    have hvalue : 0x10000 + (0xD800 + (c.toNat - 0x10000) / 0x400 - 0xD800) * 0x400 +
        (0xDC00 + (c.toNat - 0x10000) % 0x400 - 0xDC00) = c.toNat := by omega
    dsimp only
    rw [if_pos hhigh, if_pos hlow, hvalue, Char.ofNat_toNat]

theorem decodeUtf16_unitsOf (text : Text) : decodeUtf16 (unitsOf text) = some text := by
  induction text with
  | nil => rfl
  | cons c text ih =>
    have hcons : unitsOf (c :: text) = utf16 c ++ unitsOf text := by simp [unitsOf]
    rw [hcons, decodeUtf16_utf16, ih]
    rfl

theorem unitsOf_injective : Function.Injective unitsOf := by
  intro s t h
  have hdecode := congrArg decodeUtf16 h
  rw [decodeUtf16_unitsOf, decodeUtf16_unitsOf] at hdecode
  exact Option.some.inj hdecode

theorem utf16_pair {u v : ℕ} (hu : isHigh u = true) (hv : isLow v = true) :
    utf16 (Char.ofNat (0x10000 + (u - 0xD800) * 0x400 + (v - 0xDC00))) = [u, v] := by
  simp only [isHigh, isLow, Bool.and_eq_true, decide_eq_true_eq] at hu hv
  unfold utf16
  rw [toNat_ofNat (by omega), if_neg (by omega)]
  have hfirst : 0xD800 + (0x10000 + (u - 0xD800) * 0x400 + (v - 0xDC00) - 0x10000) / 0x400 = u := by
    omega
  have hsecond : 0xDC00 + (0x10000 + (u - 0xD800) * 0x400 + (v - 0xDC00) - 0x10000) % 0x400 = v := by
    omega
  rw [hfirst, hsecond]

theorem unitsOf_decodeUtf16 {units : List ℕ} {text : Text} (hunits : ∀ u ∈ units, u < 0x10000)
    (h : decodeUtf16 units = some text) : unitsOf text = units := by
  fun_induction decodeUtf16 units generalizing text with
  | case1 => cases h; rfl
  | case2 => cases h
  | case3 u hu v rest hv ih =>
    obtain ⟨more, hmore, rfl⟩ := Option.map_eq_some_iff.mp h
    have hrest := ih (fun w hw => hunits w (by simp [hw])) hmore
    have hcons : ∀ c, unitsOf (c :: more) = utf16 c ++ unitsOf more := fun c => by simp [unitsOf]
    rw [hcons, utf16_pair hu hv, hrest]
    rfl
  | case4 => cases h
  | case5 => cases h
  | case6 u rest hu hv ih =>
    obtain ⟨more, hmore, rfl⟩ := Option.map_eq_some_iff.mp h
    have hrest := ih (fun w hw => hunits w (by simp [hw])) hmore
    have hcons : ∀ c, unitsOf (c :: more) = utf16 c ++ unitsOf more := fun c => by simp [unitsOf]
    have hsmall := hunits u List.mem_cons_self
    simp only [isHigh, isLow, Bool.and_eq_true, decide_eq_true_eq, not_and, not_lt] at hu hv
    rw [hcons, hrest, utf16, toNat_ofNat (by omega), if_pos hsmall]
    rfl

/-! ## Pieces -/

def hexValue (c : Char) : ℕ :=
  if c.isDigit then c.toNat - 48 else if 'a' ≤ c then c.toNat - 87 else c.toNat - 55

def escapeValue (c : Char) : ℕ :=
  if c = 'b' then 8
  else if c = 't' then 9
  else if c = 'n' then 10
  else if c = 'f' then 12
  else if c = 'r' then 13
  else c.toNat

def Piece.units : Piece → List ℕ
  | .plain c => utf16 c
  | .escape c => [escapeValue c]
  | .unit a b c d => [hexValue a * 4096 + hexValue b * 256 + hexValue c * 16 + hexValue d]

def piecesUnits (pieces : List Piece) : List ℕ := pieces.flatMap Piece.units

theorem hexValue_lt {c : Char} (h : isHexDigit c = true) : hexValue c < 16 := by
  have hrange : 48 ≤ c.toNat ∧ c.toNat ≤ 57 ∨ 97 ≤ c.toNat ∧ c.toNat ≤ 102 ∨ 65 ≤ c.toNat ∧ c.toNat ≤ 70 := by
    simpa [isHexDigit, Char.isDigit, UInt32.le_iff_toNat_le, Char.le_def, or_assoc] using h
  have hdigit : c.isDigit = true ↔ 48 ≤ c.toNat ∧ c.toNat ≤ 57 := by
    simp [Char.isDigit, UInt32.le_iff_toNat_le]
  have hlower : 'a' ≤ c ↔ 97 ≤ c.toNat := Iff.rfl
  unfold hexValue
  split_ifs with h1 h2
  · rw [hdigit] at h1
    omega
  · rw [hlower] at h2
    omega
  · rw [hdigit] at h1
    rw [hlower] at h2
    omega

theorem Piece.units_lt {piece : Piece} (hok : piece.Ok) : ∀ u ∈ piece.units, u < 0x10000 := by
  cases piece with
  | plain c =>
    have hvalid := toNat_valid c
    intro u hu
    simp only [Piece.units, utf16] at hu
    split_ifs at hu with hsmall
    · rw [List.mem_singleton.mp hu]
      exact hsmall
    · simp only [List.mem_cons, List.not_mem_nil, or_false] at hu
      omega
  | escape c =>
    have hescape : escapeValue c < 128 := by
      have hmem : c ∈ escapable := hok
      simp only [escapable, List.mem_cons, List.not_mem_nil, or_false] at hmem
      rcases hmem with rfl | rfl | rfl | rfl | rfl | rfl | rfl | rfl <;> decide
    intro u hu
    rw [List.mem_singleton.mp hu]
    omega
  | unit a b c d =>
    obtain ⟨ha, hb, hc, hd⟩ := hok
    have hone := hexValue_lt ha
    have htwo := hexValue_lt hb
    have hthree := hexValue_lt hc
    have hfour := hexValue_lt hd
    intro u hu
    rw [List.mem_singleton.mp hu]
    omega

theorem piecesUnits_lt {pieces : List Piece} (hok : ∀ piece ∈ pieces, piece.Ok) :
    ∀ u ∈ piecesUnits pieces, u < 0x10000 := by
  intro u hu
  obtain ⟨piece, hpiece, hmem⟩ := List.mem_flatMap.mp hu
  exact Piece.units_lt (hok piece hpiece) u hmem

/-! ## Canonical spelling -/

def quotedPiece (c : Char) : Piece :=
  if c = '"' ∨ c = '\\' then .escape c
  else if c.toNat = 8 then .escape 'b'
  else if c.toNat = 9 then .escape 't'
  else if c.toNat = 10 then .escape 'n'
  else if c.toNat = 12 then .escape 'f'
  else if c.toNat = 13 then .escape 'r'
  else if c.toNat < 0x20 then
    .unit '0' '0' (Nat.digitChar (c.toNat / 16)) (Nat.digitChar (c.toNat % 16))
  else .plain c

def quotedPieces (text : Text) : List Piece := text.map quotedPiece

def quote (text : Text) : Text := '"' :: (piecesText (quotedPieces text) ++ ['"'])

theorem quotedPiece_control :
    ∀ n < 0x20, (quotedPiece (Char.ofNat n)).Ok ∧ (quotedPiece (Char.ofNat n)).units = [n] := by
  decide

theorem quotedPiece_plain {c : Char} (hlow : ¬ c.toNat < 0x20) (hmark : ¬ (c = '"' ∨ c = '\\')) :
    quotedPiece c = .plain c := by
  unfold quotedPiece
  rw [if_neg hmark, if_neg (by omega), if_neg (by omega), if_neg (by omega), if_neg (by omega),
    if_neg (by omega), if_neg hlow]

theorem quotedPiece_ok (c : Char) : (quotedPiece c).Ok := by
  by_cases hlow : c.toNat < 0x20
  · have hcontrol := (quotedPiece_control c.toNat hlow).1
    rwa [Char.ofNat_toNat] at hcontrol
  · by_cases hmark : c = '"' ∨ c = '\\'
    · rcases hmark with rfl | rfl <;> decide
    · rw [quotedPiece_plain hlow hmark]
      exact ⟨hlow, fun h => hmark (.inl h), fun h => hmark (.inr h)⟩

theorem quotedPiece_units (c : Char) : (quotedPiece c).units = utf16 c := by
  by_cases hlow : c.toNat < 0x20
  · have hcontrol := (quotedPiece_control c.toNat hlow).2
    rw [Char.ofNat_toNat] at hcontrol
    rw [hcontrol, utf16, if_pos (by omega)]
  · by_cases hmark : c = '"' ∨ c = '\\'
    · rcases hmark with rfl | rfl <;> decide
    · rw [quotedPiece_plain hlow hmark]
      rfl

theorem quotedPieces_ok (text : Text) : ∀ piece ∈ quotedPieces text, piece.Ok := by
  intro piece hpiece
  obtain ⟨c, -, rfl⟩ := List.mem_map.mp hpiece
  exact quotedPiece_ok c

theorem quotedPieces_units (text : Text) : piecesUnits (quotedPieces text) = unitsOf text := by
  simp only [piecesUnits, quotedPieces, unitsOf, List.flatMap_map, quotedPiece_units]

theorem quotedPieces_injective : Function.Injective quotedPieces := by
  intro s t h
  have hunits := congrArg piecesUnits h
  rw [quotedPieces_units, quotedPieces_units] at hunits
  exact unitsOf_injective hunits

/-! ## Spellings of one value -/

def Members.entries : Members → List (List Piece × Doc)
  | .last _ key _ _ doc _ => [(key, doc)]
  | .more _ key _ _ doc _ rest => (key, doc) :: rest.entries

mutual

/-- Documents that differ only in the order of members, in white space and in the spelling of strings. -/
inductive Doc.Alike : Doc → Doc → Prop
  | null : Doc.Alike .null .null
  | bool (value : Bool) : Doc.Alike (.bool value) (.bool value)
  | number (token : Text) : Doc.Alike (.number token) (.number token)
  | string {one other : List Piece} (h : piecesUnits one = piecesUnits other) :
    Doc.Alike (.string one) (.string other)
  | emptyArray (one other : Text) : Doc.Alike (.emptyArray one) (.emptyArray other)
  | array {one other : Items} (h : Items.Alike one other) : Doc.Alike (.array one) (.array other)
  | emptyObject (one other : Text) : Doc.Alike (.emptyObject one) (.emptyObject other)
  | object {one other : Members} (h : EntriesAlike one.entries other.entries) :
    Doc.Alike (.object one) (.object other)

inductive Items.Alike : Items → Items → Prop
  | last {before before' after after' : Text} {doc doc' : Doc} (h : Doc.Alike doc doc') :
    Items.Alike (.last before doc after) (.last before' doc' after')
  | more {before before' after after' : Text} {doc doc' : Doc} {rest rest' : Items}
      (h : Doc.Alike doc doc') (hrest : Items.Alike rest rest') :
    Items.Alike (.more before doc after rest) (.more before' doc' after' rest')

inductive EntriesAlike : List (List Piece × Doc) → List (List Piece × Doc) → Prop
  | nil : EntriesAlike [] []
  | cons {key key' : List Piece} {doc doc' : Doc} {rest rest' : List (List Piece × Doc)}
      (hkey : piecesUnits key = piecesUnits key') (h : Doc.Alike doc doc')
      (hrest : EntriesAlike rest rest') : EntriesAlike ((key, doc) :: rest) ((key', doc') :: rest')
  | swap (one other : List Piece × Doc) (rest : List (List Piece × Doc)) :
    EntriesAlike (one :: other :: rest) (other :: one :: rest)
  | trans {one two three : List (List Piece × Doc)} (h : EntriesAlike one two)
      (h' : EntriesAlike two three) : EntriesAlike one three

end

end AvenOS.Json
