import AvenOS.ArtifactStore.ArtifactJson
import AvenOS.Foundations.ExceptLoop

/-! # What the client's parser accepts

The parser accepts the texts of the documents, over the white space of the script, that evaluate: whose
numbers are integers in the safe range and whose keys are distinct. -/
namespace AvenOS.ArtifactStore.Client
open Json ExceptLoop

/-! ## Evaluation -/

/-- The characters of a fraction or an exponent. -/
def isInexact (c : Char) : Bool := c = '.' || c = 'e' || c = 'E'

def evaluateNumber (token : Text) : Option ℤ :=
  if token.any isInexact then none
  else if bigInt token < -maxSafeInteger ∨ maxSafeInteger < bigInt token then none
  else some (bigInt token)

mutual

/-- What a document denotes in the script. -/
def evaluate : Doc → Option ArtifactJson
  | .null => some .null
  | .bool value => some (.boolean value)
  | .number token => (evaluateNumber token).map .number
  | .string pieces => some (.string (piecesUnits pieces))
  | .emptyArray _ => some (.array [])
  | .array items => (evaluateItems items).map .array
  | .emptyObject _ => some (.object [])
  | .object members =>
    (evaluateMembers members).bind fun entries =>
      if (entries.map Prod.fst).Nodup then some (.object entries) else none

def evaluateItems : Items → Option (List ArtifactJson)
  | .last _ doc _ => (evaluate doc).map fun value => [value]
  | .more _ doc _ rest =>
    (evaluate doc).bind fun value => (evaluateItems rest).map fun values => value :: values

def evaluateMembers : Members → Option (List (List ℕ × ArtifactJson))
  | .last _ key _ _ doc _ => (evaluate doc).map fun value => [(piecesUnits key, value)]
  | .more _ key _ _ doc _ rest =>
    (evaluate doc).bind fun value =>
      (evaluateMembers rest).map fun entries => (piecesUnits key, value) :: entries

end

theorem scriptSpace_space : Space scriptSpace where
  apart c hc := by
    have hnat : c.toNat ∈ [9, 10, 11, 12, 13, 32, 0xA0, 0x1680, 0x2028, 0x2029, 0x202F, 0x205F, 0x3000,
        0xFEFF] ∨ 0x2000 ≤ c.toNat ∧ c.toNat ≤ 0x200A := by
      simpa [scriptSpace] using hc
    have hother : ∀ mark : Char, mark.toNat ∈ [34, 43, 44, 45, 46, 58, 69, 91, 93, 101, 102, 110, 116, 123,
        125] → c ≠ mark := by
      rintro mark hmark rfl
      simp only [List.mem_cons, List.not_mem_nil, or_false] at hmark hnat
      omega
    have hdigit : c.isDigit = false := by
      rw [Bool.eq_false_iff]
      intro h
      have hrange : 48 ≤ c.toNat ∧ c.toNat ≤ 57 := by
        simpa [Char.isDigit, UInt32.le_iff_toNat_le] using h
      simp only [List.mem_cons, List.not_mem_nil, or_false] at hnat
      omega
    refine ⟨?_, ?_⟩
    · simp only [isNumeric, hdigit, Bool.false_or, Bool.or_eq_false_iff, decide_eq_false_iff_not]
      exact ⟨⟨⟨⟨hother _ (by decide), hother _ (by decide)⟩, hother _ (by decide)⟩, hother _ (by decide)⟩,
        hother _ (by decide)⟩
    · simp only [List.mem_cons, List.not_mem_nil, or_false, not_or]
      exact ⟨hother _ (by decide), hother _ (by decide), hother _ (by decide), hother _ (by decide),
        hother _ (by decide), hother _ (by decide), hother _ (by decide), hother _ (by decide),
        hother _ (by decide), hother _ (by decide)⟩

/-! ## Strings -/

section Reading
variable (source : Text)

theorem scanString_quote (token rest : Text) :
    scanString source false token ('"' :: rest) = .ok (token ++ ['"'], rest) := by
  rw [scanString]
  rfl

variable {c : Char} {token text r rest : Text} {result : ArtifactJson} {fuel : ℕ}

theorem scanString_plain (hok : (Piece.plain c).Ok) (token rest : Text) :
    scanString source false token (c :: rest) = scanString source false (token ++ [c]) rest := by
  obtain ⟨hlow, hquote, hslash⟩ := hok
  rw [scanString]
  simp [hlow, hquote, hslash]

theorem scanString_escape (c : Char) (token rest : Text) : scanString source false token ('\\' :: c :: rest) =
      scanString source false (token ++ ['\\', c]) rest := by
  rw [scanString, scanString]
  simp

theorem isHexDigit_plain (h : isHexDigit c = true) : (Piece.plain c).Ok := by
  have hrange : 48 ≤ c.toNat ∧ c.toNat ≤ 57 ∨ 97 ≤ c.toNat ∧ c.toNat ≤ 102 ∨ 65 ≤ c.toNat ∧ c.toNat ≤ 70 := by
    simpa [isHexDigit, Char.isDigit, UInt32.le_iff_toNat_le, Char.le_def, or_assoc] using h
  refine ⟨by omega, ?_, ?_⟩ <;> (rintro rfl; revert hrange; decide)

theorem scanString_piece {piece : Piece} (hok : piece.Ok) (token rest : Text) :
    scanString source false token (piece.text ++ rest) = scanString source false (token ++ piece.text) rest := by
  cases piece with
  | plain c => exact scanString_plain source hok token rest
  | escape c => exact scanString_escape source c token rest
  | unit a b c d =>
    obtain ⟨ha, hb, hc, hd⟩ := hok
    change scanString source false token ('\\' :: 'u' :: a :: b :: c :: d :: rest) = _
    rw [scanString_escape, scanString_plain source (isHexDigit_plain ha),
      scanString_plain source (isHexDigit_plain hb), scanString_plain source (isHexDigit_plain hc),
      scanString_plain source (isHexDigit_plain hd)]
    simp [Piece.text]

variable {pieces : List Piece} {units : List ℕ} {exact : ℤ} {final item : ArtifactJson} {keys : List (List ℕ)}
  {s before after : Text} {doc : Doc}

theorem scanString_pieces (hok : ∀ piece ∈ pieces, piece.Ok) (token r : Text) :
    scanString source false token (piecesText pieces ++ '"' :: r) = .ok (token ++ piecesText pieces ++ ['"'], r) := by
  induction pieces generalizing token with
  | nil =>
    rw [piecesText, List.flatMap_nil, List.nil_append, scanString_quote, List.append_nil]
  | cons piece pieces ih =>
    have hcons : piecesText (piece :: pieces) = piece.text ++ piecesText pieces := by simp [piecesText]
    rw [hcons, List.append_assoc, scanString_piece source (hok piece List.mem_cons_self),
      ih fun other hother => hok other (List.mem_cons_of_mem _ hother)]
    simp

theorem scanString_split {escaped : Bool} {token' : Text} (h : scanString source escaped token text = .ok (token', r)) :
    ∃ body, token' = token ++ body ∧ text = body ++ r := by
  induction text generalizing escaped token with
  | nil => cases h
  | cons c rest ih =>
    rw [scanString] at h
    split_ifs at h with hquote hlow
    · cases h
      exact ⟨[c], rfl, rfl⟩
    · cases h
    · obtain ⟨body, rfl, rfl⟩ := ih h
      exact ⟨c :: body, by simp, rfl⟩

theorem string_pieces (hok : ∀ piece ∈ pieces, piece.Ok) (r : Text) :
    string source ('"' :: (piecesText pieces ++ '"' :: r)) = .ok (piecesUnits pieces, r) := by
  have hscan := scanString_pieces source hok ['"'] r
  have hparse : parseStringToken (['"'] ++ piecesText pieces ++ ['"']) = some (piecesUnits pieces) := by
    have hread := readPieces_text hok []
    simp only [List.cons_append, List.nil_append, parseStringToken, hread]
  unfold string
  simp only [List.take_succ_cons, List.take_zero, List.drop_succ_cons, List.drop_zero, hscan, bind, Except.bind, hparse]

theorem parseStringToken_some {body : Text} (h : parseStringToken ('"' :: body) = some units) :
    ∃ pieces, readPieces body = some (pieces, []) ∧ units = piecesUnits pieces := by
  rw [parseStringToken] at h
  split at h
  · rename_i pieces hread
    cases h
    exact ⟨pieces, hread, rfl⟩
  · cases h

theorem string_sound (h : string source ('"' :: text) = .ok (units, r)) :
    ∃ pieces, text = piecesText pieces ++ '"' :: r ∧ (∀ piece ∈ pieces, piece.Ok) ∧ units = piecesUnits pieces := by
  unfold string at h
  obtain ⟨⟨token, rest⟩, hscan, hfound⟩ := bind_eq_ok h
  clear h
  simp only [List.take_succ_cons, List.take_zero, List.drop_succ_cons, List.drop_zero] at hscan
  obtain ⟨body, rfl, rfl⟩ := scanString_split source hscan
  cases hparse : parseStringToken (['"'] ++ body) with
  | none => simp only [hparse] at hfound; cases hfound
  | some found =>
    simp only [hparse] at hfound
    cases hfound
    obtain ⟨pieces, hread, rfl⟩ := parseStringToken_some hparse
    obtain ⟨rfl, hok⟩ := readPieces_sound hread
    exact ⟨pieces, by simp, hok, rfl⟩

/-! ## Integers -/

/-- A number may end here. -/
def Ended (r : Text) : Prop := ∀ c s, r = c :: s → endsNumber c = true

theorem ended_iff : Ended r ↔ ¬ (r.head?.map endsNumber).getD true = false := by
  cases r with
  | nil => exact ⟨fun _ => by simp, fun _ c s h => by cases h⟩
  | cons c r =>
    simp only [List.head?_cons, Option.map_some, Option.getD_some, Bool.not_eq_false]
    exact ⟨fun h => h c r rfl, fun h d s hds => by cases hds; exact h⟩

theorem endsNumber_numeric (h : endsNumber c = true) : isNumeric c = false := by
  simp only [endsNumber, Bool.or_eq_true, decide_eq_true_eq] at h
  rcases h with ((h | rfl) | rfl) | rfl
  · exact (scriptSpace_space.apart c h).1
  all_goals rfl

theorem Ended.head_ne (h : Ended r) (hc : endsNumber c = false) : r.head? ≠ some c := by
  intro hhead
  obtain ⟨s, rfl⟩ := List.head?_eq_some_iff.mp hhead
  rw [h c s rfl] at hc
  cases hc

theorem isFraction_exact (h : isFraction text = true) (hexact : text.any isInexact = false) : text = [] := by
  cases text with
  | nil => rfl
  | cons c rest =>
    rw [List.any_cons, Bool.or_eq_false_iff] at hexact
    have hc := hexact.1
    simp only [isInexact, Bool.or_eq_false_iff, decide_eq_false_iff_not] at hc
    rw [isFraction.eq_def] at h
    dsimp only at h
    rw [if_neg hc.1.1, isExponent.eq_def] at h
    simp [hc.1.2, hc.2] at h

theorem matchDigits_some (h : matchDigits text = some (token, rest)) :
    text = token ++ rest ∧ isUnsigned token = true ∧ ∀ c ∈ token, c.isDigit = true := by
  cases text with
  | nil => cases h
  | cons c text =>
    rw [matchDigits] at h
    split_ifs at h with hzero hdigit
    · cases h
      refine ⟨rfl, by rw [isUnsigned, if_pos hzero]; rfl, fun d hd => ?_⟩
      rw [List.mem_singleton.mp hd, hzero]
      rfl
    · cases h
      have hall : ∀ d ∈ text.takeWhile Char.isDigit, d.isDigit = true := fun d hd =>
        List.mem_takeWhile_imp hd
      refine ⟨by rw [List.cons_append, List.takeWhile_append_dropWhile], ?_, fun d hd => ?_⟩
      · rw [isUnsigned, if_neg hzero, hdigit, List.dropWhile_eq_nil_iff.mpr hall]
        rfl
      · rcases List.mem_cons.mp hd with rfl | hd
        · exact hdigit
        · exact hall d hd

theorem isInexact_of_isDigit (h : c.isDigit = true) : isInexact c = false := by
  rw [isInexact, Bool.or_eq_false_iff, Bool.or_eq_false_iff]
  refine ⟨⟨?_, ?_⟩, ?_⟩ <;> (rw [decide_eq_false_iff_not]; rintro rfl; cases h)

theorem matchInteger_some (h : matchInteger text = some (token, rest)) :
    text = token ++ rest ∧ isNumber token = true ∧ token.any isInexact = false := by
  have hexact : ∀ {digits : Text}, (∀ c ∈ digits, c.isDigit = true) → digits.any isInexact = false :=
    fun hall => List.any_eq_false.mpr fun c hc => by simp [isInexact_of_isDigit (hall c hc)]
  cases text with
  | nil => cases h
  | cons c text =>
    rw [matchInteger] at h
    split_ifs at h with hsign
    · obtain ⟨⟨digits, left⟩, hdigits, hpair⟩ := Option.map_eq_some_iff.mp h
      cases hpair
      obtain ⟨rfl, hunsigned, hall⟩ := matchDigits_some hdigits
      refine ⟨rfl, by rw [isNumber, if_pos hsign, hunsigned], ?_⟩
      rw [List.any_cons, hexact hall, hsign]
      rfl
    · obtain ⟨htext, hunsigned, hall⟩ := matchDigits_some h
      refine ⟨htext, ?_, hexact hall⟩
      cases token with
      | nil => cases hunsigned
      | cons d token =>
        obtain ⟨rfl, -⟩ := List.cons.inj htext
        rw [isNumber, if_neg hsign, hunsigned]

theorem matchDigits_text (hunsigned : isUnsigned token = true)
    (hexact : token.any isInexact = false) (hr : ∀ c s, r = c :: s → c.isDigit = false) :
    matchDigits (token ++ r) = some (token, r) := by
  cases token with
  | nil => cases hunsigned
  | cons c token =>
    rw [List.any_cons, Bool.or_eq_false_iff] at hexact
    rw [isUnsigned] at hunsigned
    rw [List.cons_append, matchDigits]
    split_ifs at hunsigned ⊢ with hzero hdigit
    · rw [isFraction_exact hunsigned hexact.2]
      rfl
    · rw [Bool.and_eq_true] at hunsigned
      have hdrop : token.dropWhile Char.isDigit = [] := isFraction_exact hunsigned.2
        (List.any_eq_false.mpr fun d hd => List.any_eq_false.mp hexact.2 d (List.dropWhile_subset _ hd))
      have hall := List.dropWhile_eq_nil_iff.mp hdrop
      rw [List.takeWhile_append_of_pos hall, List.dropWhile_append_of_pos hall]
      cases r with
      | nil => simp
      | cons d r =>
        have hd := hr d r rfl
        rw [List.takeWhile_cons_of_neg (by simp [hd]), List.dropWhile_cons_of_neg (by simp [hd]), List.append_nil]
    · rw [Bool.and_eq_true] at hunsigned
      exact absurd hunsigned.1 hdigit

theorem matchInteger_text (hnumber : isNumber token = true)
    (hexact : token.any isInexact = false) (hr : ∀ c s, r = c :: s → c.isDigit = false) :
    matchInteger (token ++ r) = some (token, r) := by
  cases token with
  | nil => cases hnumber
  | cons c token =>
    rw [isNumber] at hnumber
    rw [List.cons_append, matchInteger]
    split_ifs at hnumber ⊢ with hsign
    · rw [List.any_cons, Bool.or_eq_false_iff] at hexact
      rw [matchDigits_text hnumber hexact.2 hr, hsign]
      rfl
    · exact matchDigits_text hnumber hexact hr

theorem integer_sound (h : integer source text = .ok (result, r)) :
    ∃ token exact, text = token ++ r ∧ isNumber token = true ∧ evaluateNumber token = some exact ∧
      result = .number exact ∧ Ended r := by
  unfold integer at h
  cases hmatch : matchInteger text with
  | none => simp only [hmatch] at h; cases h
  | some found =>
    obtain ⟨token, rest⟩ := found
    obtain ⟨htext, hnumber, hexact⟩ := matchInteger_some hmatch
    simp only [hmatch] at h
    split_ifs at h with hinexact hsuffix hrange
    · cases h
    · cases h
    · cases h
    · cases h
      refine ⟨token, _, htext, hnumber, ?_, rfl, ended_iff.2 hsuffix⟩
      rw [evaluateNumber, hexact, if_neg (by decide), if_neg hrange]

theorem integer_text (hnumber : isNumber token = true) (hvalue : evaluateNumber token = some exact) (hr : Ended r) :
    integer source (token ++ r) = .ok (.number exact, r) := by
  rw [evaluateNumber] at hvalue
  split_ifs at hvalue with hexact hrange
  cases hvalue
  have hstop : ∀ c s, r = c :: s → c.isDigit = false := by
    intro c s hcs
    by_contra hdigit
    have hnumeric := isNumeric_of_isDigit (by simpa using hdigit)
    rw [endsNumber_numeric (hr c s hcs)] at hnumeric
    cases hnumeric
  have hinexact : ¬ (r.head? = some '.' ∨ r.head? = some 'e' ∨ r.head? = some 'E') := by
    rintro (h | h | h)
    all_goals exact hr.head_ne (by decide) h
  unfold integer
  rw [matchInteger_text hnumber (by simpa using hexact) hstop]
  simp only [if_neg hinexact, if_neg (ended_iff.1 hr), if_neg hrange]

/-! ## Every accepted text is a document -/

/-- What the parser accepts on some budget is there, and evaluates. -/
structure ParserSound (fuel : ℕ) : Prop where
  value : ∀ {text result r}, value source fuel text = .ok (result, r) →
    ∃ doc, text = doc.onto r ∧ doc.Ok scriptSpace ∧ evaluate doc = some result
  array : ∀ {result text final r}, array source fuel result (whitespace text) = .ok (final, r) →
    ∃ items values, text = items.onto r ∧ items.Ok scriptSpace ∧ evaluateItems items = some values ∧
      final = .array (result ++ values)
  object : ∀ {keys result text final r}, object source fuel keys result (whitespace text) = .ok (final, r) →
    ∃ members entries, text = members.onto r ∧ members.Ok scriptSpace ∧
      evaluateMembers members = some entries ∧ (entries.map Prod.fst).Nodup ∧
      (∀ key ∈ entries.map Prod.fst, key ∉ keys) ∧ final = .object (result ++ entries)

theorem literal_sound {token : String} {value : ArtifactJson}
    (h : literal source token value text = .ok (result, r)) : text = token.toList ++ r ∧ result = value := by
  unfold literal at h
  split_ifs at h with hprefix
  · obtain ⟨rest, rfl⟩ := hprefix
    cases h
    exact ⟨by simp, rfl⟩
  · cases h

theorem value_sound (ih : ParserSound source fuel) (h : value source (fuel + 1) text = .ok (result, r)) :
    ∃ doc, text = doc.onto r ∧ doc.Ok scriptSpace ∧ evaluate doc = some result := by
  cases text with
  | nil => cases h
  | cons c rest =>
    rw [value] at h
    split_ifs at h with hobject harray hstring htrue hfalse hnull hnumber
    · split at h
      · rename_i left hdrop
        cases h
        exact ⟨.emptyObject _, by rw [hobject, Doc.onto, gap_split hdrop], blank_takeWhile rest, rfl⟩
      · obtain ⟨members, entries, rfl, hok, heval, hnodup, -, rfl⟩ := ih.object h
        refine ⟨.object members, by rw [hobject]; rfl, hok, ?_⟩
        rw [evaluate, heval, Option.bind_some, if_pos hnodup, List.nil_append]
    · split at h
      · rename_i left hdrop
        cases h
        exact ⟨.emptyArray _, by rw [harray, Doc.onto, gap_split hdrop], blank_takeWhile rest, rfl⟩
      · obtain ⟨items, values, rfl, hok, heval, rfl⟩ := ih.array h
        refine ⟨.array items, by rw [harray]; rfl, hok, ?_⟩
        rw [evaluate, heval, List.nil_append]
        rfl
    · obtain ⟨⟨units, left⟩, hunits, hpair⟩ := map_eq_ok h
      cases hpair
      rw [hstring] at hunits
      obtain ⟨pieces, rfl, hok, rfl⟩ := string_sound source hunits
      exact ⟨.string pieces, by rw [hstring]; rfl, hok, rfl⟩
    · obtain ⟨htext, rfl⟩ := literal_sound source h
      exact ⟨.bool true, htext, trivial, rfl⟩
    · obtain ⟨htext, rfl⟩ := literal_sound source h
      exact ⟨.bool false, htext, trivial, rfl⟩
    · obtain ⟨htext, rfl⟩ := literal_sound source h
      exact ⟨.null, htext, trivial, rfl⟩
    · obtain ⟨token, exact, htext, hok, heval, rfl, -⟩ := integer_sound source h
      refine ⟨.number token, htext, hok, ?_⟩
      rw [evaluate, heval]
      rfl
    · cases h

theorem array_sound (ih : ParserSound source fuel) {result : List ArtifactJson}
    (h : array source (fuel + 1) result (whitespace text) = .ok (final, r)) :
    ∃ items values, text = items.onto r ∧ items.Ok scriptSpace ∧ evaluateItems items = some values ∧
      final = .array (result ++ values) := by
  rw [array] at h
  obtain ⟨⟨item, left⟩, hitem, hnext⟩ := bind_eq_ok h
  clear h
  obtain ⟨doc, htext, hdoc, heval⟩ := ih.value hitem
  have hstart := gap_split htext
  dsimp only at hnext
  split at hnext
  · rename_i s hdrop
    cases hnext
    refine ⟨.last (text.takeWhile scriptSpace) doc (left.takeWhile scriptSpace), [item], ?_,
      ⟨blank_takeWhile text, hdoc, blank_takeWhile left⟩, ?_, rfl⟩
    · rw [Items.onto, gap_split hdrop, hstart]
    · rw [evaluateItems, heval]
      rfl
  · rename_i s hdrop
    obtain ⟨rest, values, rfl, hrest, hvalues, rfl⟩ := ih.array hnext
    refine ⟨.more (text.takeWhile scriptSpace) doc (left.takeWhile scriptSpace) rest, item :: values, ?_,
      ⟨blank_takeWhile text, hdoc, blank_takeWhile left, hrest⟩, ?_, by simp⟩
    · rw [Items.onto, gap_split hdrop, hstart]
    · rw [evaluateItems, heval, hvalues]
      rfl
  · cases hnext

theorem expectColon_sound (h : expectColon source text = .ok rest) : text = ':' :: rest := by
  unfold expectColon at h
  split at h
  · cases h
    rfl
  · cases h

theorem object_sound (ih : ParserSound source fuel) {result : List (List ℕ × ArtifactJson)}
    (h : object source (fuel + 1) keys result (whitespace text) = .ok (final, r)) :
    ∃ members entries, text = members.onto r ∧ members.Ok scriptSpace ∧
      evaluateMembers members = some entries ∧ (entries.map Prod.fst).Nodup ∧
      (∀ key ∈ entries.map Prod.fst, key ∉ keys) ∧ final = .object (result ++ entries) := by
  rw [object] at h
  split_ifs at h with hquote
  · cases h
  obtain ⟨quoted, hquoted⟩ := List.head?_eq_some_iff.mp (not_not.mp hquote)
  obtain ⟨⟨key, keyed⟩, hkey, hafter⟩ := bind_eq_ok h
  clear h
  have hbefore := gap_split hquoted
  rw [hquoted] at hkey
  obtain ⟨pieces, rfl, hpieces, rfl⟩ := string_sound source hkey
  dsimp only at hafter
  split_ifs at hafter with hnew
  · cases hafter
  obtain ⟨valued, hcolon, hvalued⟩ := bind_eq_ok hafter
  obtain ⟨⟨item, left⟩, hitem, hnext⟩ := bind_eq_ok hvalued
  clear hafter hvalued
  have hmiddle := gap_split (expectColon_sound source hcolon)
  obtain ⟨doc, htext, hdoc, heval⟩ := ih.value hitem
  have hstart := gap_split htext
  split at hnext
  · rename_i s hdrop
    cases hnext
    refine ⟨.last (text.takeWhile scriptSpace) pieces (keyed.takeWhile scriptSpace)
      (valued.takeWhile scriptSpace) doc (left.takeWhile scriptSpace), [(piecesUnits pieces, item)], ?_,
      ⟨blank_takeWhile text, hpieces, blank_takeWhile keyed, blank_takeWhile valued, hdoc,
        blank_takeWhile left⟩, ?_, by simp, by simpa using hnew, rfl⟩
    · rw [Members.onto, gap_split hdrop, hstart, hmiddle, hbefore]
    · rw [evaluateMembers, heval]
      rfl
  · rename_i s hdrop
    obtain ⟨rest, entries, rfl, hrest, hentries, hnodup, hfresh, rfl⟩ := ih.object hnext
    refine ⟨.more (text.takeWhile scriptSpace) pieces (keyed.takeWhile scriptSpace)
      (valued.takeWhile scriptSpace) doc (left.takeWhile scriptSpace) rest,
      (piecesUnits pieces, item) :: entries, ?_,
      ⟨blank_takeWhile text, hpieces, blank_takeWhile keyed, blank_takeWhile valued, hdoc,
        blank_takeWhile left, hrest⟩, ?_, ?_, ?_, by simp⟩
    · rw [Members.onto, gap_split hdrop, hstart, hmiddle, hbefore]
    · rw [evaluateMembers, heval, hentries]
      rfl
    · refine List.nodup_cons.mpr ⟨fun hmem => hfresh _ hmem ?_, hnodup⟩
      exact List.mem_append_right _ (List.mem_singleton.mpr rfl)
    · intro key hkey
      rcases List.mem_cons.mp hkey with rfl | hkey
      · exact hnew
      · exact fun hmem => hfresh key hkey (List.mem_append_left _ hmem)
  · cases hnext

theorem parser_sound (fuel : ℕ) : ParserSound source fuel := by
  induction fuel with
  | zero =>
    refine ⟨fun h => ?_, fun h => ?_, fun h => ?_⟩
    · cases h
    · cases h
    · cases h
  | succ fuel ih => exact ⟨value_sound source ih, array_sound source ih, object_sound source ih⟩

/-! ## Every document that evaluates is accepted -/

theorem literal_text (token : String) (value : ArtifactJson) (r : Text) :
    literal source token value (token.toList ++ r) = .ok (value, r) := by
  unfold literal
  rw [if_pos (List.prefix_append _ _), List.drop_left]

omit source in
theorem blank_ended {gap : Text} (hgap : Blank scriptSpace gap) (hs : Ended s) : Ended (gap ++ s) := by
  intro c rest h
  cases gap with
  | nil => exact hs c rest h
  | cons g gap =>
    obtain ⟨rfl, -⟩ := List.cons.inj h
    rw [endsNumber, hgap _ List.mem_cons_self]
    rfl

omit source in
theorem mark_ended (hc : endsNumber c = true) (s : Text) : Ended (c :: s) := by
  intro d rest h
  cases h
  exact hc

theorem value_number (hok : isNumber token = true) (hvalue : evaluateNumber token = some exact) (hr : Ended r)
    (fuel : ℕ) : value source (fuel + 1) (token ++ r) = .ok (.number exact, r) := by
  have hinteger := integer_text source hok hvalue hr
  obtain ⟨⟨c, rest, rfl, hstarts⟩, -⟩ := isNumber_numeric hok
  have hne : ∀ mark, startsNumber mark = false → c ≠ mark := by
    rintro mark hmark rfl
    rw [hstarts] at hmark
    cases hmark
  have hstart : c = '-' ∨ c.isDigit = true := by
    simp only [startsNumber, Bool.or_eq_true, decide_eq_true_eq] at hstarts
    exact hstarts.symm
  rw [List.cons_append] at hinteger ⊢
  rw [value, if_neg (hne _ rfl), if_neg (hne _ rfl), if_neg (hne _ rfl), if_neg (hne _ rfl),
    if_neg (hne _ rfl), if_neg (hne _ rfl), if_pos hstart, hinteger]

theorem value_array {c : Char} {rest : Text} (hdrop : rest.dropWhile scriptSpace = c :: s) (hclose : c ≠ ']')
    (fuel : ℕ) : value source (fuel + 1) ('[' :: rest) = array source fuel [] (whitespace rest) := by
  rw [value, if_neg (by decide), if_pos rfl, whitespace, hdrop]
  split
  · rename_i heq
    exact absurd (List.cons.inj heq).1 hclose
  · rfl

theorem value_object {c : Char} {rest : Text} (hdrop : rest.dropWhile scriptSpace = c :: s) (hclose : c ≠ '}')
    (fuel : ℕ) : value source (fuel + 1) ('{' :: rest) = object source fuel [] [] (whitespace rest) := by
  rw [value, if_pos rfl, whitespace, hdrop]
  split
  · rename_i heq
    exact absurd (List.cons.inj heq).1 hclose
  · rfl

theorem array_item {c : Char} {fuel : ℕ} (result : List ArtifactJson) (hbefore : Blank scriptSpace before)
    (hok : doc.Ok scriptSpace) (hafter : Blank scriptSpace after) (hc : c ∈ [']', ','])
    (hvalue : value source fuel (doc.onto (after ++ c :: s)) = .ok (item, after ++ c :: s)) :
    array source (fuel + 1) result (whitespace (before ++ doc.onto (after ++ c :: s))) =
      if c = ']' then .ok (.array (result ++ [item]), s)
      else array source fuel (result ++ [item]) (whitespace s) := by
  obtain ⟨d, t, hhead, hd, -, -⟩ := Doc.head scriptSpace_space hok (after ++ c :: s)
  have hmark : scriptSpace c = false := scriptSpace_space.mark (by
    simp only [List.mem_cons, List.not_mem_nil, or_false] at hc
    rcases hc with rfl | rfl <;> decide)
  have hleft : whitespace (after ++ c :: s) = c :: s := skip_blank hafter hmark s
  have hstart : whitespace (before ++ doc.onto (after ++ c :: s)) = doc.onto (after ++ c :: s) := by
    rw [hhead]
    exact skip_blank hbefore hd t
  rw [hstart, array, hvalue]
  simp only [bind, Except.bind, hleft]
  simp only [List.mem_cons, List.not_mem_nil, or_false] at hc
  rcases hc with rfl | rfl <;> rfl

theorem object_member {middle start : Text} {c : Char} {fuel : ℕ} (result : List (List ℕ × ArtifactJson))
    (hbefore : Blank scriptSpace before) (hpieces : ∀ piece ∈ pieces, piece.Ok) (hmiddle : Blank scriptSpace middle)
    (hstart : Blank scriptSpace start) (hok : doc.Ok scriptSpace) (hafter : Blank scriptSpace after)
    (hc : c ∈ ['}', ',']) (hnew : piecesUnits pieces ∉ keys)
    (hvalue : value source fuel (doc.onto (after ++ c :: s)) = .ok (item, after ++ c :: s)) :
    object source (fuel + 1) keys result (whitespace (before ++ '"' :: (piecesText pieces ++ '"' ::
        (middle ++ ':' :: (start ++ doc.onto (after ++ c :: s)))))) =
      if c = '}' then .ok (.object (result ++ [(piecesUnits pieces, item)]), s)
      else object source fuel (keys ++ [piecesUnits pieces]) (result ++ [(piecesUnits pieces, item)])
        (whitespace s) := by
  obtain ⟨d, t, hhead, hd, -, -⟩ := Doc.head scriptSpace_space hok (after ++ c :: s)
  have hmark : scriptSpace c = false := scriptSpace_space.mark (by
    simp only [List.mem_cons, List.not_mem_nil, or_false] at hc
    rcases hc with rfl | rfl <;> decide)
  have hleft : whitespace (after ++ c :: s) = c :: s := skip_blank hafter hmark s
  have hvalued : whitespace (start ++ doc.onto (after ++ c :: s)) = doc.onto (after ++ c :: s) := by
    rw [hhead]
    exact skip_blank hstart hd t
  have hkeyed : ∀ rest, whitespace (middle ++ ':' :: rest) = ':' :: rest := fun rest =>
    skip_blank hmiddle (scriptSpace_space.mark (by decide)) rest
  have hquoted : ∀ rest, whitespace (before ++ '"' :: rest) = '"' :: rest := fun rest =>
    skip_blank hbefore (scriptSpace_space.mark (by decide)) rest
  rw [hquoted, object, if_neg (by simp), string_pieces source hpieces]
  simp only [bind, Except.bind, if_neg hnew, hkeyed, expectColon, hvalued, hvalue, hleft]
  simp only [List.mem_cons, List.not_mem_nil, or_false] at hc
  rcases hc with rfl | rfl <;> rfl

mutual

theorem value_text (doc : Doc) (hok : doc.Ok scriptSpace) {result : ArtifactJson}
    (heval : evaluate doc = some result) (fuel : ℕ) (hfuel : doc.size ≤ fuel) (r : Text) (hr : Ended r) :
    value source fuel (doc.onto r) = .ok (result, r) := by
  cases fuel with
  | zero => cases doc <;> simp [Doc.size] at hfuel
  | succ fuel =>
    match doc with
    | .null =>
      cases heval
      exact literal_text source "null" .null r
    | .bool true =>
      cases heval
      exact literal_text source "true" (.boolean true) r
    | .bool false =>
      cases heval
      exact literal_text source "false" (.boolean false) r
    | .number token =>
      obtain ⟨exact, hvalue, rfl⟩ := Option.map_eq_some_iff.mp heval
      exact value_number source hok hvalue hr fuel
    | .string pieces =>
      cases heval
      change value source (fuel + 1) ('"' :: (piecesText pieces ++ '"' :: r)) = _
      rw [value, if_neg (by decide), if_neg (by decide), if_pos rfl, string_pieces source hok]
      rfl
    | .emptyArray gap =>
      cases heval
      have hdrop : whitespace (gap ++ ']' :: r) = ']' :: r := skip_blank hok (scriptSpace_space.mark (by decide)) r
      change value source (fuel + 1) ('[' :: (gap ++ ']' :: r)) = _
      rw [value, if_neg (by decide), if_pos rfl, hdrop]
      rfl
    | .emptyObject gap =>
      cases heval
      have hdrop : whitespace (gap ++ '}' :: r) = '}' :: r :=
        skip_blank hok (scriptSpace_space.mark (by decide)) r
      change value source (fuel + 1) ('{' :: (gap ++ '}' :: r)) = _
      rw [value, if_pos rfl, hdrop]
      rfl
    | .array items =>
      obtain ⟨values, hvalues, rfl⟩ := Option.map_eq_some_iff.mp heval
      have hitems := array_text items hok hvalues fuel (by simp only [Doc.size] at hfuel; omega) [] r
      obtain ⟨c, s, hdrop, hclose⟩ := items_head scriptSpace_space items hok r
      rw [Doc.onto, value_array source hdrop hclose, hitems, List.nil_append]
    | .object members =>
      obtain ⟨entries, hentries, hfinal⟩ := Option.bind_eq_some_iff.mp heval
      obtain ⟨hnodup, hobject⟩ := Option.ite_none_right_eq_some.mp hfinal
      cases hobject
      have hfresh : ∀ key ∈ entries.map Prod.fst, key ∉ ([] : List (List ℕ)) := fun _ _ h => by cases h
      have hmembers := object_text members hok hentries hnodup fuel
        (by simp only [Doc.size] at hfuel; omega) hfresh [] r
      obtain ⟨c, s, hdrop, hclose⟩ := members_head scriptSpace_space members hok r
      rw [Doc.onto, value_object source hdrop hclose, hmembers, List.nil_append]

theorem array_text (items : Items) (hok : items.Ok scriptSpace) {values : List ArtifactJson}
    (heval : evaluateItems items = some values) (fuel : ℕ) (hfuel : items.size ≤ fuel)
    (result : List ArtifactJson) (r : Text) :
    array source fuel result (whitespace (items.onto r)) = .ok (.array (result ++ values), r) := by
  cases fuel with
  | zero => cases items <;> simp [Items.size] at hfuel
  | succ fuel =>
    match items with
    | .last before doc after =>
      obtain ⟨hbefore, hdoc, hafter⟩ := hok
      obtain ⟨item, hitem, rfl⟩ := Option.map_eq_some_iff.mp heval
      have hvalue := value_text doc hdoc hitem fuel (by simp only [Items.size] at hfuel; omega)
        (after ++ ']' :: r) (blank_ended hafter (mark_ended rfl r))
      rw [Items.onto, array_item source result hbefore hdoc hafter (by decide) hvalue]
      rfl
    | .more before doc after rest =>
      obtain ⟨hbefore, hdoc, hafter, hrest⟩ := hok
      obtain ⟨item, hitem, hmore⟩ := Option.bind_eq_some_iff.mp heval
      obtain ⟨others, hothers, rfl⟩ := Option.map_eq_some_iff.mp hmore
      have hvalue := value_text doc hdoc hitem fuel (by simp only [Items.size] at hfuel; omega)
        (after ++ ',' :: rest.onto r) (blank_ended hafter (mark_ended rfl _))
      have hnext := array_text rest hrest hothers fuel (by simp only [Items.size] at hfuel; omega) (result ++ [item]) r
      rw [Items.onto, array_item source result hbefore hdoc hafter (by decide) hvalue,
        if_neg (by decide), hnext, List.append_assoc, List.singleton_append]

theorem object_text (members : Members) (hok : members.Ok scriptSpace)
    {entries : List (List ℕ × ArtifactJson)} (heval : evaluateMembers members = some entries)
    (hnodup : (entries.map Prod.fst).Nodup) (fuel : ℕ) (hfuel : members.size ≤ fuel)
    {keys : List (List ℕ)} (hfresh : ∀ key ∈ entries.map Prod.fst, key ∉ keys)
    (result : List (List ℕ × ArtifactJson)) (r : Text) :
    object source fuel keys result (whitespace (members.onto r)) = .ok (.object (result ++ entries), r) := by
  cases fuel with
  | zero => cases members <;> simp [Members.size] at hfuel
  | succ fuel =>
    match members with
    | .last before pieces middle start doc after =>
      obtain ⟨hbefore, hpieces, hmiddle, hstart, hdoc, hafter⟩ := hok
      obtain ⟨item, hitem, rfl⟩ := Option.map_eq_some_iff.mp heval
      have hnew : piecesUnits pieces ∉ keys := hfresh _ (by simp)
      have hvalue := value_text doc hdoc hitem fuel (by simp only [Members.size] at hfuel; omega)
        (after ++ '}' :: r) (blank_ended hafter (mark_ended rfl r))
      rw [Members.onto, object_member source result hbefore hpieces hmiddle hstart hdoc hafter (by decide) hnew hvalue]
      rfl
    | .more before pieces middle start doc after rest =>
      obtain ⟨hbefore, hpieces, hmiddle, hstart, hdoc, hafter, hrest⟩ := hok
      obtain ⟨item, hitem, hmore⟩ := Option.bind_eq_some_iff.mp heval
      obtain ⟨others, hothers, rfl⟩ := Option.map_eq_some_iff.mp hmore
      have hnew : piecesUnits pieces ∉ keys := hfresh _ (by simp)
      rw [List.map_cons, List.nodup_cons] at hnodup
      have hvalue := value_text doc hdoc hitem fuel (by simp only [Members.size] at hfuel; omega)
        (after ++ ',' :: rest.onto r) (blank_ended hafter (mark_ended rfl _))
      have hfresh' : ∀ key ∈ others.map Prod.fst, key ∉ keys ++ [piecesUnits pieces] := by
        intro key hkey hmem
        rcases List.mem_append.mp hmem with hold | hthis
        · exact hfresh key (List.mem_cons_of_mem _ hkey) hold
        · exact hnodup.1 (List.mem_singleton.mp hthis ▸ hkey)
      have hnext := object_text rest hrest hothers hnodup.2 fuel (by simp only [Members.size] at hfuel; omega) hfresh'
        (result ++ [(piecesUnits pieces, item)]) r
      rw [Members.onto, object_member source result hbefore hpieces hmiddle hstart hdoc hafter
        (by decide) hnew hvalue, if_neg (by decide), hnext, List.append_assoc, List.singleton_append]

end

end Reading

theorem parse_iff {source : Text} {result : ArtifactJson} :
    parse source = .ok result ↔ ∃ document : Document, document.Ok scriptSpace ∧
      source = document.text ∧ evaluate document.doc = some result := by
  constructor
  · intro h
    obtain ⟨⟨found, rest⟩, hvalue, hend⟩ := bind_eq_ok h
    clear h
    obtain ⟨doc, htext, hdoc, heval⟩ := (parser_sound source _).value hvalue
    dsimp only at hend
    split at hend
    · rename_i hblank
      cases hend
      have hafter : Blank scriptSpace rest := List.dropWhile_eq_nil_iff.mp hblank
      exact ⟨⟨source.takeWhile scriptSpace, doc, rest⟩, ⟨blank_takeWhile source, hdoc, hafter⟩,
        (gap_split htext).symm, heval⟩
    · cases hend
  · rintro ⟨⟨before, doc, after⟩, ⟨hbefore, hdoc, hafter⟩, rfl, heval⟩
    obtain ⟨c, s, hhead, hc, -, -⟩ := Doc.head scriptSpace_space hdoc after
    have hstart : whitespace (before ++ doc.onto after) = doc.onto after := by
      rw [hhead]
      exact skip_blank hbefore hc s
    have hsize := Doc.size_onto doc hdoc after
    have hended : Ended after := by
      rw [← List.append_nil after]
      exact blank_ended hafter fun c s h => by cases h
    have hvalue := value_text (before ++ doc.onto after) doc hdoc heval
      ((doc.onto after).length + 1) (by omega) after hended
    unfold parse
    rw [Document.text, hstart, hvalue]
    simp only [bind, Except.bind, whitespace, blank_dropWhile hafter]

end AvenOS.ArtifactStore.Client
