import AvenOS.Foundations.JsonDocument
import Mathlib.Data.List.TakeWhile

/-! # Reading documents back

The reader finds every document it is given, and what it finds is a document of the text it was given.
So a text has one reading at most. -/
namespace AvenOS.Json

/-! ## Pieces and numbers -/

theorem readPieces_quote (r : Text) : readPieces ('"' :: r) = some ([], r) := by
  rw [readPieces.eq_def]
  rfl

variable {c : Char} {pieces : List Piece} {text : Text}

theorem readPieces_plain (hok : (Piece.plain c).Ok) (rest : Text) :
    readPieces (c :: rest) = (readPieces rest).map fun (pieces, r) => (.plain c :: pieces, r) := by
  obtain ⟨hlow, hquote, hslash⟩ := hok
  rw [readPieces.eq_def]
  dsimp only
  rw [if_neg hquote, if_neg hslash, if_neg hlow]

theorem readPieces_escape (hok : (Piece.escape c).Ok) (rest : Text) : readPieces ('\\' :: c :: rest) =
      (readPieces rest).map fun (pieces, r) => (.escape c :: pieces, r) := by
  have hmem : c ∈ escapable := hok
  have hu : c ≠ 'u' := by
    rintro rfl
    exact absurd hmem (by decide)
  rw [readPieces.eq_def]
  simp [hu, hmem]

theorem readPieces_unit {a b d : Char} (hok : (Piece.unit a b c d).Ok) (rest : Text) :
    readPieces ('\\' :: 'u' :: a :: b :: c :: d :: rest) =
      (readPieces rest).map fun (pieces, r) => (.unit a b c d :: pieces, r) := by
  obtain ⟨ha, hb, hc, hd⟩ := hok
  rw [readPieces.eq_def]
  simp [ha, hb, hc, hd]

theorem readPieces_text (hok : ∀ piece ∈ pieces, piece.Ok) (r : Text) :
    readPieces (piecesText pieces ++ '"' :: r) = some (pieces, r) := by
  induction pieces with
  | nil => exact readPieces_quote r
  | cons piece pieces ih =>
    have hpiece := hok piece List.mem_cons_self
    have hrest := ih fun piece hmem => hok piece (List.mem_cons_of_mem _ hmem)
    have hcons : piecesText (piece :: pieces) ++ '"' :: r = piece.text ++ (piecesText pieces ++ '"' :: r) := by
      simp [piecesText]
    rw [hcons]
    cases piece with
    | plain c =>
      change readPieces (c :: (piecesText pieces ++ '"' :: r)) = _
      rw [readPieces_plain hpiece, hrest]
      rfl
    | escape c =>
      change readPieces ('\\' :: c :: (piecesText pieces ++ '"' :: r)) = _
      rw [readPieces_escape hpiece, hrest]
      rfl
    | unit a b c d =>
      change readPieces ('\\' :: 'u' :: a :: b :: c :: d :: (piecesText pieces ++ '"' :: r)) = _
      rw [readPieces_unit hpiece, hrest]
      rfl

theorem piecesText_sound {p : Piece} {rest r : Text} (hpiece : p.Ok)
    (h : rest = piecesText pieces ++ '"' :: r ∧ ∀ piece ∈ pieces, piece.Ok) :
    p.text ++ rest = piecesText (p :: pieces) ++ '"' :: r ∧ ∀ other ∈ p :: pieces, other.Ok := by
  refine ⟨by simp [piecesText, h.1], ?_⟩
  rintro other (_ | ⟨_, hmem⟩)
  · exact hpiece
  · exact h.2 other hmem

theorem readPieces_sound {r : Text} (h : readPieces text = some (pieces, r)) :
    text = piecesText pieces ++ '"' :: r ∧ ∀ piece ∈ pieces, piece.Ok := by
  fun_induction readPieces text generalizing pieces r with
  | case1 => cases h
  | case2 => cases h; simp [piecesText]
  | case3 a b c d rest hhex _ ih =>
    obtain ⟨⟨more, left⟩, hread, hpair⟩ := Option.map_eq_some_iff.mp h
    cases hpair
    simp only [Bool.and_eq_true] at hhex
    exact piecesText_sound (p := .unit a b c d) ⟨hhex.1.1.1, hhex.1.1.2, hhex.1.2, hhex.2⟩ (ih hread)
  | case4 => cases h
  | case5 e rest _ hmem _ ih =>
    obtain ⟨⟨more, left⟩, hread, hpair⟩ := Option.map_eq_some_iff.mp h
    cases hpair
    exact piecesText_sound (p := .escape e) hmem (ih hread)
  | case6 => cases h
  | case7 => cases h
  | case8 => cases h
  | case9 c rest hquote hslash hlow ih =>
    obtain ⟨⟨more, left⟩, hread, hpair⟩ := Option.map_eq_some_iff.mp h
    cases hpair
    exact piecesText_sound (p := .plain c) ⟨hlow, hquote, hslash⟩ (ih hread)

theorem isNumeric_of_isDigit (h : c.isDigit = true) : isNumeric c = true := by
  simp [isNumeric, h]

theorem all_isNumeric_of_dropWhile
    (h : ∀ c ∈ text.dropWhile Char.isDigit, isNumeric c = true) : ∀ c ∈ text, isNumeric c = true := by
  intro c hc
  rw [← List.takeWhile_append_dropWhile (p := Char.isDigit) (l := text)] at hc
  rcases List.mem_append.mp hc with hdigits | hrest
  · exact isNumeric_of_isDigit (List.mem_takeWhile_imp hdigits)
  · exact h c hrest

theorem isExponent_numeric (h : isExponent text = true) : ∀ c ∈ text, isNumeric c = true := by
  unfold isExponent at h
  cases text with
  | nil => simp
  | cons e rest =>
    simp only [Bool.and_eq_true, Bool.or_eq_true, decide_eq_true_eq] at h
    obtain ⟨he, hrest⟩ := h
    rintro c (_ | ⟨_, hc⟩)
    · rcases he with rfl | rfl <;> rfl
    · cases rest with
      | nil => cases hc
      | cons sign digits =>
        dsimp only at hrest
        by_cases hsign : sign = '+' ∨ sign = '-'
        · rw [if_pos hsign, Bool.and_eq_true] at hrest
          rcases List.mem_cons.mp hc with rfl | hdigit
          · rcases hsign with rfl | rfl <;> rfl
          · exact isNumeric_of_isDigit (List.all_eq_true.mp hrest.2 c hdigit)
        · rw [if_neg hsign] at hrest
          exact isNumeric_of_isDigit (List.all_eq_true.mp hrest c hc)

theorem isFraction_numeric (h : isFraction text = true) : ∀ c ∈ text, isNumeric c = true := by
  unfold isFraction at h
  cases text with
  | nil => simp
  | cons point rest =>
    dsimp only at h
    by_cases hpoint : point = '.'
    · rw [if_pos hpoint] at h
      cases rest with
      | nil => cases h
      | cons digit rest =>
        simp only [Bool.and_eq_true] at h
        rintro c (_ | ⟨_, hc⟩)
        · rw [hpoint]; rfl
        · rcases List.mem_cons.mp hc with rfl | hc
          · exact isNumeric_of_isDigit h.1
          · exact all_isNumeric_of_dropWhile (isExponent_numeric h.2) c hc
    · rw [if_neg hpoint] at h
      exact isExponent_numeric h

def startsNumber (c : Char) : Bool := c.isDigit || c = '-'

theorem isUnsigned_numeric (h : isUnsigned text = true) :
    (∃ c rest, text = c :: rest ∧ c.isDigit = true) ∧ ∀ c ∈ text, isNumeric c = true := by
  unfold isUnsigned at h
  cases text with
  | nil => cases h
  | cons first rest =>
    dsimp only at h
    by_cases hzero : first = '0'
    · rw [if_pos hzero] at h
      refine ⟨⟨first, rest, rfl, by rw [hzero]; rfl⟩, ?_⟩
      rintro c (_ | ⟨_, hc⟩)
      · rw [hzero]; rfl
      · exact isFraction_numeric h c hc
    · rw [if_neg hzero, Bool.and_eq_true] at h
      refine ⟨⟨first, rest, rfl, h.1⟩, ?_⟩
      rintro c (_ | ⟨_, hc⟩)
      · exact isNumeric_of_isDigit h.1
      · exact all_isNumeric_of_dropWhile (isFraction_numeric h.2) c hc

theorem isNumber_numeric {token : Text} (h : isNumber token = true) :
    (∃ c rest, token = c :: rest ∧ startsNumber c = true) ∧ ∀ c ∈ token, isNumeric c = true := by
  unfold isNumber at h
  cases token with
  | nil => cases h
  | cons first rest =>
    dsimp only at h
    by_cases hsign : first = '-'
    · rw [if_pos hsign] at h
      refine ⟨⟨first, rest, rfl, by rw [hsign]; rfl⟩, ?_⟩
      rintro c (_ | ⟨_, hc⟩)
      · rw [hsign]; rfl
      · exact (isUnsigned_numeric h).2 c hc
    · rw [if_neg hsign] at h
      obtain ⟨⟨c, more, hcons, hdigit⟩, hall⟩ := isUnsigned_numeric h
      refine ⟨⟨c, more, hcons, by simp [startsNumber, hdigit]⟩, hall⟩

theorem startsNumber_isNumeric (h : startsNumber c = true) : isNumeric c = true := by
  simp only [startsNumber, Bool.or_eq_true, decide_eq_true_eq] at h
  rcases h with hdigit | rfl
  · exact isNumeric_of_isDigit hdigit
  · rfl

/-! ## Every document is found -/

section Complete
variable {space : Char → Bool}

/-- No number goes on here. -/
def Stops (r : Text) : Prop := ∀ c rest, r = c :: rest → isNumeric c = false

variable {gap : Text} {c : Char}

theorem skip_blank (hgap : Blank space gap) (hc : space c = false) (s : Text) :
    (gap ++ c :: s).dropWhile space = c :: s := by
  rw [List.dropWhile_append_of_pos hgap, List.dropWhile_cons_of_neg (by simp [hc])]

theorem take_blank (hgap : Blank space gap) (hc : space c = false) (s : Text) :
    (gap ++ c :: s).takeWhile space = gap := by
  rw [List.takeWhile_append_of_pos hgap, List.takeWhile_cons_of_neg (by simp [hc]), List.append_nil]

variable (hspace : Space space)
include hspace

theorem Space.numeric (h : isNumeric c = true) : space c = false := by
  by_contra hc
  have hapart := (hspace.apart c (by simpa using hc)).1
  rw [h] at hapart
  cases hapart

theorem Space.mark (h : c ∈ ['"', '[', ']', '{', '}', ',', ':', 'n', 't', 'f']) : space c = false := by
  by_contra hc
  exact (hspace.apart c (by simpa using hc)).2 h

variable {doc : Doc} {s rest before after : Text} {fuel : ℕ}

theorem Doc.head (hok : doc.Ok space) (r : Text) :
    ∃ c s, doc.onto r = c :: s ∧ space c = false ∧ c ≠ ']' ∧ c ≠ '}' := by
  cases doc with
  | null => exact ⟨_, _, rfl, hspace.mark (by decide), by decide, by decide⟩
  | bool value =>
    cases value <;> exact ⟨_, _, rfl, hspace.mark (by decide), by decide, by decide⟩
  | number token =>
    obtain ⟨⟨c, rest, rfl, hstarts⟩, -⟩ := isNumber_numeric hok
    have hnumeric := startsNumber_isNumeric hstarts
    refine ⟨c, rest ++ r, rfl, hspace.numeric hnumeric, ?_, ?_⟩ <;> (rintro rfl; exact absurd hnumeric (by decide))
  | string pieces => exact ⟨_, _, rfl, hspace.mark (by decide), by decide, by decide⟩
  | emptyArray gap => exact ⟨_, _, rfl, hspace.mark (by decide), by decide, by decide⟩
  | array items => exact ⟨_, _, rfl, hspace.mark (by decide), by decide, by decide⟩
  | emptyObject gap => exact ⟨_, _, rfl, hspace.mark (by decide), by decide, by decide⟩
  | object members => exact ⟨_, _, rfl, hspace.mark (by decide), by decide, by decide⟩

omit hspace in
theorem blank_stops (hspace : Space space) (hgap : Blank space gap) (hs : Stops s) : Stops (gap ++ s) := by
  intro c rest h
  cases gap with
  | nil => exact hs c rest h
  | cons g gap =>
    obtain ⟨rfl, -⟩ := List.cons.inj h
    exact (hspace.apart _ (hgap _ List.mem_cons_self)).1

omit hspace in
theorem mark_stops (hc : isNumeric c = false) (s : Text) : Stops (c :: s) := by
  intro c' rest h
  cases h
  exact hc

omit hspace in
theorem readNumber_onto {token r : Text} (hok : isNumber token = true) (hr : Stops r) (fuel : ℕ) :
    readDoc space (fuel + 1) (token ++ r) = some (.number token, r) := by
  obtain ⟨⟨c, rest, rfl, hstarts⟩, hall⟩ := isNumber_numeric hok
  have htake : (c :: rest ++ r).takeWhile isNumeric = c :: rest := by
    rw [List.takeWhile_append_of_pos hall]
    cases r with
    | nil => simp
    | cons next r => rw [List.takeWhile_cons_of_neg (by simp [hr next r rfl]), List.append_nil]
  have hdrop : (c :: rest ++ r).dropWhile isNumeric = r := by
    rw [List.dropWhile_append_of_pos hall]
    cases r with
    | nil => rfl
    | cons next r => rw [List.dropWhile_cons_of_neg (by simp [hr next r rfl])]
  have hne : ∀ mark, startsNumber mark = false → c ≠ mark := by
    rintro mark hmark rfl
    rw [hstarts] at hmark
    cases hmark
  rw [List.cons_append] at htake hdrop ⊢
  rw [readDoc, if_neg (hne _ rfl), if_neg (hne _ rfl), if_neg (hne _ rfl), if_neg (hne _ rfl),
    if_neg (hne _ rfl), if_neg (hne _ rfl)]
  simp only [htake, hdrop, hok, if_true]

theorem items_head (items : Items) (hok : items.Ok space) (r : Text) :
    ∃ c s, (items.onto r).dropWhile space = c :: s ∧ c ≠ ']' := by
  cases items with
  | last before doc after =>
    obtain ⟨c, s, hhead, hc, hclose, -⟩ := Doc.head hspace hok.2.1 (after ++ ']' :: r)
    refine ⟨c, s, ?_, hclose⟩
    rw [Items.onto, hhead, skip_blank hok.1 hc]
  | more before doc after rest =>
    obtain ⟨c, s, hhead, hc, hclose, -⟩ := Doc.head hspace hok.2.1 (after ++ ',' :: rest.onto r)
    refine ⟨c, s, ?_, hclose⟩
    rw [Items.onto, hhead, skip_blank hok.1 hc]

theorem members_head (members : Members) (hok : members.Ok space) (r : Text) :
    ∃ c s, (members.onto r).dropWhile space = c :: s ∧ c ≠ '}' := by
  have hmark := hspace.mark (c := '"') (by decide)
  cases members with
  | last before key middle start doc after =>
    exact ⟨'"', _, by rw [Members.onto, skip_blank hok.1 hmark], by decide⟩
  | more before key middle start doc after rest =>
    exact ⟨'"', _, by rw [Members.onto, skip_blank hok.1 hmark], by decide⟩

omit hspace in
theorem readDoc_array {c : Char} (hdrop : rest.dropWhile space = c :: s) (hclose : c ≠ ']') (fuel : ℕ) :
    readDoc space (fuel + 1) ('[' :: rest) = (readItems space fuel rest).map fun (items, r) => (.array items, r) := by
  rw [readDoc]
  simp [hdrop, hclose]

omit hspace in
theorem readDoc_object {c : Char} (hdrop : rest.dropWhile space = c :: s) (hclose : c ≠ '}') (fuel : ℕ) :
    readDoc space (fuel + 1) ('{' :: rest) =
      (readMembers space fuel rest).map fun (members, r) => (.object members, r) := by
  rw [readDoc]
  simp [hdrop, hclose]

theorem readItems_item {c : Char} (hbefore : Blank space before) (hok : doc.Ok space) (hafter : Blank space after)
    (hc : c ∈ [']', ',']) (hdoc : readDoc space fuel (doc.onto (after ++ c :: s)) = some (doc, after ++ c :: s)) :
    readItems space (fuel + 1) (before ++ doc.onto (after ++ c :: s)) = if c = ']' then some (.last before doc after, s)
      else (readItems space fuel s).map fun (rest, r) => (.more before doc after rest, r) := by
  obtain ⟨d, t, hhead, hd, -, -⟩ := Doc.head hspace hok (after ++ c :: s)
  have hmark : space c = false := hspace.mark (by
    simp only [List.mem_cons, List.not_mem_nil, or_false] at hc
    rcases hc with rfl | rfl <;> decide)
  rw [hhead] at hdoc ⊢
  rw [readItems, skip_blank hbefore hd, take_blank hbefore hd, hdoc]
  simp only [skip_blank hafter hmark, take_blank hafter hmark]
  simp only [List.mem_cons, List.not_mem_nil, or_false] at hc
  rcases hc with rfl | rfl
  · simp
  · simp

theorem readMembers_member {middle start : Text} {key : List Piece} {c : Char} (hbefore : Blank space before)
    (hkey : ∀ piece ∈ key, piece.Ok) (hmiddle : Blank space middle) (hstart : Blank space start) (hok : doc.Ok space)
    (hafter : Blank space after) (hc : c ∈ ['}', ','])
    (hdoc : readDoc space fuel (doc.onto (after ++ c :: s)) = some (doc, after ++ c :: s)) :
    readMembers space (fuel + 1) (before ++ '"' :: (piecesText key ++ '"' :: (middle ++ ':' ::
        (start ++ doc.onto (after ++ c :: s))))) =
      if c = '}' then some (.last before key middle start doc after, s)
      else (readMembers space fuel s).map fun (rest, r) =>
        (.more before key middle start doc after rest, r) := by
  obtain ⟨d, t, hhead, hd, -, -⟩ := Doc.head hspace hok (after ++ c :: s)
  have hquote := hspace.mark (c := '"') (by decide)
  have hcolon := hspace.mark (c := ':') (by decide)
  have hmark : space c = false := hspace.mark (by
    simp only [List.mem_cons, List.not_mem_nil, or_false] at hc
    rcases hc with rfl | rfl <;> decide)
  rw [hhead] at hdoc ⊢
  rw [readMembers, skip_blank hbefore hquote, take_blank hbefore hquote]
  simp only [readPieces_text hkey, skip_blank hmiddle hcolon, take_blank hmiddle hcolon,
    skip_blank hstart hd, take_blank hstart hd, hdoc, skip_blank hafter hmark,
    take_blank hafter hmark]
  simp only [List.mem_cons, List.not_mem_nil, or_false] at hc
  rcases hc with rfl | rfl
  · simp
  · simp

mutual

theorem readDoc_onto (doc : Doc) (hok : doc.Ok space) (fuel : ℕ) (hfuel : doc.size ≤ fuel) (r : Text)
    (hr : Stops r) : readDoc space fuel (doc.onto r) = some (doc, r) := by
  cases fuel with
  | zero => cases doc <;> simp [Doc.size] at hfuel
  | succ fuel =>
    match doc with
    | .null => simp [Doc.onto, readDoc, keyword]
    | .bool true => simp [Doc.onto, readDoc, keyword]
    | .bool false => simp [Doc.onto, readDoc, keyword]
    | .number token => exact readNumber_onto hok hr fuel
    | .string pieces => simp [Doc.onto, readDoc, readPieces_text hok]
    | .emptyArray gap =>
      have hmark := hspace.mark (c := ']') (by decide)
      simp [Doc.onto, readDoc, skip_blank hok hmark, take_blank hok hmark]
    | .emptyObject gap =>
      have hmark := hspace.mark (c := '}') (by decide)
      simp [Doc.onto, readDoc, skip_blank hok hmark, take_blank hok hmark]
    | .array items =>
      have hitems := readItems_onto items hok fuel (by simp only [Doc.size] at hfuel; omega) r
      obtain ⟨c, s, hdrop, hclose⟩ := items_head hspace items hok r
      rw [Doc.onto, readDoc_array hdrop hclose, hitems]
      rfl
    | .object members =>
      have hmembers := readMembers_onto members hok fuel (by simp only [Doc.size] at hfuel; omega) r
      obtain ⟨c, s, hdrop, hclose⟩ := members_head hspace members hok r
      rw [Doc.onto, readDoc_object hdrop hclose, hmembers]
      rfl

theorem readItems_onto (items : Items) (hok : items.Ok space) (fuel : ℕ)
    (hfuel : items.size ≤ fuel) (r : Text) : readItems space fuel (items.onto r) = some (items, r) := by
  cases fuel with
  | zero => cases items <;> simp [Items.size] at hfuel
  | succ fuel =>
    match items with
    | .last before doc after =>
      obtain ⟨hbefore, hdoc, hafter⟩ := hok
      have hread := readDoc_onto doc hdoc fuel (by simp only [Items.size] at hfuel; omega)
        (after ++ ']' :: r) (blank_stops hspace hafter (mark_stops rfl r))
      rw [Items.onto, readItems_item hspace hbefore hdoc hafter (by decide) hread]
      rfl
    | .more before doc after rest =>
      obtain ⟨hbefore, hdoc, hafter, hrest⟩ := hok
      have hread := readDoc_onto doc hdoc fuel (by simp only [Items.size] at hfuel; omega)
        (after ++ ',' :: rest.onto r) (blank_stops hspace hafter (mark_stops rfl _))
      have hmore := readItems_onto rest hrest fuel (by simp only [Items.size] at hfuel; omega) r
      rw [Items.onto, readItems_item hspace hbefore hdoc hafter (by decide) hread, hmore]
      rfl

theorem readMembers_onto (members : Members) (hok : members.Ok space) (fuel : ℕ)
    (hfuel : members.size ≤ fuel) (r : Text) : readMembers space fuel (members.onto r) = some (members, r) := by
  cases fuel with
  | zero => cases members <;> simp [Members.size] at hfuel
  | succ fuel =>
    match members with
    | .last before key middle start doc after =>
      obtain ⟨hbefore, hkey, hmiddle, hstart, hdoc, hafter⟩ := hok
      have hread := readDoc_onto doc hdoc fuel (by simp only [Members.size] at hfuel; omega)
        (after ++ '}' :: r) (blank_stops hspace hafter (mark_stops rfl r))
      rw [Members.onto, readMembers_member hspace hbefore hkey hmiddle hstart hdoc hafter (by decide) hread]
      rfl
    | .more before key middle start doc after rest =>
      obtain ⟨hbefore, hkey, hmiddle, hstart, hdoc, hafter, hrest⟩ := hok
      have hread := readDoc_onto doc hdoc fuel (by simp only [Members.size] at hfuel; omega)
        (after ++ ',' :: rest.onto r) (blank_stops hspace hafter (mark_stops rfl _))
      have hmore := readMembers_onto rest hrest fuel (by simp only [Members.size] at hfuel; omega) r
      rw [Members.onto, readMembers_member hspace hbefore hkey hmiddle hstart hdoc hafter (by decide) hread, hmore]
      rfl

end

end Complete

/-! ## What is found is there -/

section Found
variable {space : Char → Bool}

theorem blank_takeWhile (text : Text) : Blank space (text.takeWhile space) := fun _ hc => List.mem_takeWhile_imp hc

variable {text r : Text} {fuel : ℕ}

variable {doc : Doc} {document : Document}

theorem keyword_some {word : Text} {found : Doc} (h : keyword word doc text = some (found, r)) :
    found = doc ∧ text = word ++ r := by
  unfold keyword at h
  split at h
  · rename_i hprefix
    obtain ⟨rest, rfl⟩ := hprefix
    cases h
    exact ⟨rfl, by simp⟩
  · cases h

theorem gap_split {s : Text} (h : text.dropWhile space = s) : text.takeWhile space ++ s = text := by
  rw [← h, List.takeWhile_append_dropWhile]

structure Sound (space : Char → Bool) (fuel : ℕ) : Prop where
  doc : ∀ {text doc r}, readDoc space fuel text = some (doc, r) → text = doc.onto r ∧ doc.Ok space
  items : ∀ {text items r}, readItems space fuel text = some (items, r) →
    text = items.onto r ∧ items.Ok space
  members : ∀ {text members r}, readMembers space fuel text = some (members, r) →
    text = members.onto r ∧ members.Ok space

theorem readDoc_sound (ih : Sound space fuel) (h : readDoc space (fuel + 1) text = some (doc, r)) :
    text = doc.onto r ∧ doc.Ok space := by
  cases text with
  | nil => cases h
  | cons c rest =>
    rw [readDoc] at h
    split_ifs at h with hn ht hf hquote harray hobject
    · obtain ⟨rfl, rfl⟩ := keyword_some h
      exact ⟨by rw [hn]; rfl, trivial⟩
    · obtain ⟨rfl, rfl⟩ := keyword_some h
      exact ⟨by rw [ht]; rfl, trivial⟩
    · obtain ⟨rfl, rfl⟩ := keyword_some h
      exact ⟨by rw [hf]; rfl, trivial⟩
    · obtain ⟨⟨pieces, left⟩, hread, hpair⟩ := Option.map_eq_some_iff.mp h
      cases hpair
      obtain ⟨rfl, hok⟩ := readPieces_sound hread
      exact ⟨by rw [hquote]; rfl, hok⟩
    · split at h
      · rename_i left hdrop
        cases h
        refine ⟨?_, blank_takeWhile rest⟩
        rw [harray, Doc.onto, gap_split hdrop]
      · obtain ⟨⟨items, left⟩, hread, hpair⟩ := Option.map_eq_some_iff.mp h
        cases hpair
        obtain ⟨rfl, hok⟩ := ih.items hread
        exact ⟨by rw [harray]; rfl, hok⟩
    · split at h
      · rename_i left hdrop
        cases h
        refine ⟨?_, blank_takeWhile rest⟩
        rw [hobject, Doc.onto, gap_split hdrop]
      · obtain ⟨⟨members, left⟩, hread, hpair⟩ := Option.map_eq_some_iff.mp h
        cases hpair
        obtain ⟨rfl, hok⟩ := ih.members hread
        exact ⟨by rw [hobject]; rfl, hok⟩
    · dsimp only at h
      by_cases hnumber : isNumber ((c :: rest).takeWhile isNumeric) = true
      · rw [if_pos hnumber] at h
        cases h
        exact ⟨by rw [Doc.onto, List.takeWhile_append_dropWhile], hnumber⟩
      · rw [if_neg hnumber] at h
        cases h

theorem readItems_sound (ih : Sound space fuel) {items : Items}
    (h : readItems space (fuel + 1) text = some (items, r)) : text = items.onto r ∧ items.Ok space := by
  rw [readItems] at h
  cases hread : readDoc space fuel (text.dropWhile space) with
  | none => simp only [hread] at h; cases h
  | some found =>
    obtain ⟨doc, left⟩ := found
    simp only [hread] at h
    obtain ⟨htext, hdoc⟩ := ih.doc hread
    have hstart := gap_split htext
    split at h
    · rename_i s hdrop
      cases h
      refine ⟨?_, blank_takeWhile text, hdoc, blank_takeWhile left⟩
      rw [Items.onto, gap_split hdrop, hstart]
    · rename_i s hdrop
      obtain ⟨⟨rest, left'⟩, hmore, hpair⟩ := Option.map_eq_some_iff.mp h
      cases hpair
      obtain ⟨rfl, hrest⟩ := ih.items hmore
      refine ⟨?_, blank_takeWhile text, hdoc, blank_takeWhile left, hrest⟩
      rw [Items.onto, gap_split hdrop, hstart]
    · cases h

theorem readMembers_sound (ih : Sound space fuel) {members : Members}
    (h : readMembers space (fuel + 1) text = some (members, r)) : text = members.onto r ∧ members.Ok space := by
  rw [readMembers] at h
  split at h
  · rename_i quoted hquoted
    have hbefore := gap_split hquoted
    cases hpieces : readPieces quoted with
    | none => simp only [hpieces] at h; cases h
    | some found =>
      obtain ⟨key, keyed⟩ := found
      simp only [hpieces] at h
      obtain ⟨rfl, hkey⟩ := readPieces_sound hpieces
      split at h
      · rename_i valued hvalued
        have hmiddle := gap_split hvalued
        cases hread : readDoc space fuel (valued.dropWhile space) with
        | none => simp only [hread] at h; cases h
        | some found =>
          obtain ⟨doc, left⟩ := found
          simp only [hread] at h
          obtain ⟨htext, hdoc⟩ := ih.doc hread
          have hstart := gap_split htext
          split at h
          · rename_i s hdrop
            cases h
            refine ⟨?_, blank_takeWhile text, hkey, blank_takeWhile keyed, blank_takeWhile valued, hdoc,
              blank_takeWhile left⟩
            rw [Members.onto, gap_split hdrop, hstart, hmiddle, hbefore]
          · rename_i s hdrop
            obtain ⟨⟨rest, left'⟩, hmore, hpair⟩ := Option.map_eq_some_iff.mp h
            cases hpair
            obtain ⟨rfl, hrest⟩ := ih.members hmore
            refine ⟨?_, blank_takeWhile text, hkey, blank_takeWhile keyed, blank_takeWhile valued, hdoc,
              blank_takeWhile left, hrest⟩
            rw [Members.onto, gap_split hdrop, hstart, hmiddle, hbefore]
          · cases h
      · cases h
  · cases h

theorem reader_sound (fuel : ℕ) : Sound space fuel := by
  induction fuel with
  | zero =>
    refine ⟨fun {text} {doc} {r} h => ?_, fun h => ?_, fun h => ?_⟩
    · cases text <;> cases h
    · cases h
    · cases h
  | succ fuel ih => exact ⟨readDoc_sound ih, readItems_sound ih, readMembers_sound ih⟩

/-! ## Enough fuel -/

mutual

theorem Doc.size_onto (doc : Doc) (hok : doc.Ok space) (r : Text) : doc.size + r.length ≤ (doc.onto r).length := by
  match doc with
  | .null => simp [Doc.onto, Doc.size]; omega
  | .bool true => simp [Doc.onto, Doc.size]; omega
  | .bool false => simp [Doc.onto, Doc.size]; omega
  | .number token =>
    obtain ⟨⟨c, rest, rfl, -⟩, -⟩ := isNumber_numeric hok
    simp [Doc.onto, Doc.size]
    omega
  | .string pieces => simp [Doc.onto, Doc.size]; omega
  | .emptyArray gap => simp [Doc.onto, Doc.size]; omega
  | .emptyObject gap => simp [Doc.onto, Doc.size]; omega
  | .array items =>
    have hitems := Items.size_onto items hok r
    simp only [Doc.onto, Doc.size, List.length_cons]
    omega
  | .object members =>
    have hmembers := Members.size_onto members hok r
    simp only [Doc.onto, Doc.size, List.length_cons]
    omega

theorem Items.size_onto (items : Items) (hok : items.Ok space) (r : Text) :
    items.size + r.length ≤ (items.onto r).length := by
  match items with
  | .last before doc after =>
    have hdoc := Doc.size_onto doc hok.2.1 (after ++ ']' :: r)
    simp only [Items.onto, Items.size, List.length_append, List.length_cons] at hdoc ⊢
    omega
  | .more before doc after rest =>
    have hdoc := Doc.size_onto doc hok.2.1 (after ++ ',' :: rest.onto r)
    have hrest := Items.size_onto rest hok.2.2.2 r
    simp only [Items.onto, Items.size, List.length_append, List.length_cons] at hdoc ⊢
    omega

theorem Members.size_onto (members : Members) (hok : members.Ok space) (r : Text) :
    members.size + r.length ≤ (members.onto r).length := by
  match members with
  | .last before key middle start doc after =>
    have hdoc := Doc.size_onto doc hok.2.2.2.2.1 (after ++ '}' :: r)
    simp only [Members.onto, Members.size, List.length_append, List.length_cons] at hdoc ⊢
    omega
  | .more before key middle start doc after rest =>
    have hdoc := Doc.size_onto doc hok.2.2.2.2.1 (after ++ ',' :: rest.onto r)
    have hrest := Members.size_onto rest hok.2.2.2.2.2.2 r
    simp only [Members.onto, Members.size, List.length_append, List.length_cons] at hdoc ⊢
    omega

end

/-! ## Whole texts -/

theorem blank_dropWhile {gap : Text} (h : Blank space gap) : gap.dropWhile space = [] := by
  rw [List.dropWhile_eq_nil_iff]
  exact h

theorem read_text (hspace : Space space) (hok : document.Ok space) : read space document.text = some document := by
  obtain ⟨before, doc, after⟩ := document
  obtain ⟨hbefore, hdoc, hafter⟩ := hok
  obtain ⟨c, s, hhead, hc, -, -⟩ := Doc.head hspace hdoc after
  have hskip : (before ++ doc.onto after).dropWhile space = doc.onto after := by
    rw [hhead, skip_blank hbefore hc]
  have htake : (before ++ doc.onto after).takeWhile space = before := by
    rw [hhead, take_blank hbefore hc]
  have hstops : Stops after := by
    rw [← List.append_nil after]
    exact blank_stops hspace hafter (fun _ _ h => by cases h)
  have hsize := Doc.size_onto doc hdoc after
  have hread := readDoc_onto hspace doc hdoc ((doc.onto after).length + 1) (by omega) after hstops
  have hall : after.all space = true := List.all_eq_true.mpr hafter
  simp only [read, Document.text, hskip, htake, hread, hall, if_true]

theorem read_sound {text : Text} (h : read space text = some document) : text = document.text ∧ document.Ok space := by
  unfold read at h
  dsimp only at h
  cases hread : readDoc space ((text.dropWhile space).length + 1) (text.dropWhile space) with
  | none => simp only [hread] at h; cases h
  | some found =>
    obtain ⟨doc, left⟩ := found
    simp only [hread] at h
    split_ifs at h with hall
    cases h
    obtain ⟨htext, hdoc⟩ := (reader_sound _).doc hread
    refine ⟨?_, blank_takeWhile text, hdoc, List.all_eq_true.mp hall⟩
    rw [Document.text, gap_split htext]

theorem document_unique (hspace : Space space) {one other : Document} (hone : one.Ok space)
    (hother : other.Ok space) (h : one.text = other.text) : one = other := by
  have hread := read_text hspace hone
  rw [h, read_text hspace hother] at hread
  exact (Option.some.inj hread).symm

end Found

/-! ## Wider white space -/

section Wider
variable {space wider : Char → Bool} (h : ∀ c, space c = true → wider c = true)
include h

theorem Blank.mono {gap : Text} (hgap : Blank space gap) : Blank wider gap := fun c hc => h c (hgap c hc)

mutual

theorem Doc.Ok.mono (doc : Doc) (hok : doc.Ok space) : doc.Ok wider := by
  cases doc with
  | null | bool => exact trivial
  | number | string => exact hok
  | emptyArray | emptyObject => exact Blank.mono h hok
  | array items => exact Items.Ok.mono items hok
  | object members => exact Members.Ok.mono members hok

theorem Items.Ok.mono (items : Items) (hok : items.Ok space) : items.Ok wider := by
  cases items with
  | last before doc after =>
    obtain ⟨hbefore, hdoc, hafter⟩ := hok
    exact ⟨Blank.mono h hbefore, Doc.Ok.mono doc hdoc, Blank.mono h hafter⟩
  | more before doc after rest =>
    obtain ⟨hbefore, hdoc, hafter, hrest⟩ := hok
    exact ⟨Blank.mono h hbefore, Doc.Ok.mono doc hdoc, Blank.mono h hafter, Items.Ok.mono rest hrest⟩

theorem Members.Ok.mono (members : Members) (hok : members.Ok space) : members.Ok wider := by
  cases members with
  | last before key middle start doc after =>
    obtain ⟨hbefore, hkey, hmiddle, hstart, hdoc, hafter⟩ := hok
    exact ⟨Blank.mono h hbefore, hkey, Blank.mono h hmiddle, Blank.mono h hstart, Doc.Ok.mono doc hdoc,
      Blank.mono h hafter⟩
  | more before key middle start doc after rest =>
    obtain ⟨hbefore, hkey, hmiddle, hstart, hdoc, hafter, hrest⟩ := hok
    exact ⟨Blank.mono h hbefore, hkey, Blank.mono h hmiddle, Blank.mono h hstart, Doc.Ok.mono doc hdoc,
      Blank.mono h hafter, Members.Ok.mono rest hrest⟩

end

theorem Document.Ok.mono {document : Document} (hok : document.Ok space) : document.Ok wider :=
  ⟨Blank.mono h hok.1, Doc.Ok.mono h document.doc hok.2.1, Blank.mono h hok.2.2⟩

end Wider

end AvenOS.Json
