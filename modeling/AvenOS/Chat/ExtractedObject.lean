import AvenOS.Foundations.JsonParse

/-! # Objects in model text

`extractJsonObject` looks for JSON objects in the text of a model. One pass keeps the depth of braces and whether a string is
open; it takes a quote of the prose for the start of a string. -/
namespace AvenOS.Chat
open Json (Doc Items Members Piece ParsedValue parse)

/-! ## The scan -/

/-- The variables of the loop; a place in the text is what is left from there on. -/
structure Scan where
  depth : ℤ
  start : Option Json.Text
  inString : Bool
  escaped : Bool
  candidates : List Json.Text
deriving DecidableEq, Repr

def Scan.begin : Scan := ⟨0, none, false, false, []⟩

def sliceFrom (start rest : Json.Text) : Json.Text := start.take (start.length - rest.length)

def Scan.close (s : Scan) (rest : Json.Text) : Scan :=
  let depth := s.depth - 1
  match s.start with
  | some start =>
    if depth = 0 then { s with depth := 0, start := none, candidates := s.candidates ++ [sliceFrom start rest] }
    else { s with depth := if depth < 0 then 0 else depth }
  | none => { s with depth := if depth < 0 then 0 else depth }

def Scan.next (s : Scan) (ch : Char) (rest : Json.Text) : Scan :=
  if s.inString then
    if s.escaped then { s with escaped := false }
    else if ch = '\\' then { s with escaped := true }
    else if ch = '"' then { s with inString := false }
    else s
  else if ch = '"' then { s with inString := true }
  else if ch = '{' then
    { s with start := if s.depth = 0 then some (ch :: rest) else s.start, depth := s.depth + 1 }
  else if ch = '}' then s.close rest
  else s

def scan (s : Scan) : Json.Text → Scan
  | [] => s
  | ch :: rest => scan (s.next ch rest) rest

/-! ## The answer -/

/-- `/,\s*([}\]])/` matches at a comma with this behind it. -/
def closesAfter (rest : Json.Text) : Bool :=
  match rest.dropWhile Text.isSpace with
  | [] => false
  | c :: _ => c = '}' || c = ']'

def withoutTrailingCommas : Json.Text → Json.Text
  | [] => []
  | c :: rest =>
    if c = ',' ∧ closesAfter rest = true then (withoutTrailingCommas rest).dropWhile Text.isSpace
    else c :: withoutTrailingCommas rest

def straightQuotes (text : Json.Text) : Json.Text :=
  text.map fun c => if c = Char.ofNat 0x201C ∨ c = Char.ofNat 0x201D then '"' else c

def parseCandidate (candidate : Json.Text) : Option ParsedValue :=
  match parse candidate with
  | some value => some value
  | none => parse (straightQuotes (withoutTrailingCommas candidate))

def extractJsonObject (text : Json.Text) : ParsedValue :=
  match parse text with
  | some value => value
  | none => ((scan .begin text).candidates.reverse.findSome? parseCandidate).getD .null

/-! ## Objects in prose -/

structure Embedded where
  doc : Doc
  ok : doc.Ok Json.jsonSpace
  isObject : doc.isObject = true

def Braceless (piece : Json.Text) : Prop := '{' ∉ piece ∧ '}' ∉ piece

instance (piece : Json.Text) : Decidable (Braceless piece) := inferInstanceAs (Decidable (_ ∧ _))

/-- Prose and the object behind it, again and again, and prose at the end. -/
def assemble : List (Json.Text × Embedded) → Json.Text → Json.Text
  | [], final => final
  | part :: parts, final => part.1 ++ part.2.doc.onto (assemble parts final)

/-- Whether a string is open, and a backslash before the next character of it. -/
def stringState (inString escaped : Bool) : Json.Text → Bool × Bool
  | [] => (inString, escaped)
  | ch :: rest =>
    if inString then
      if escaped then stringState true false rest
      else if ch = '\\' then stringState true true rest
      else if ch = '"' then stringState false false rest
      else stringState true false rest
    else stringState (ch = '"') escaped rest

def closedProse (piece : Json.Text) : Bool := (stringState false false piece).1 = false

def lastObject (parts : List (Json.Text × Embedded)) : Option ParsedValue := parts.getLast?.map fun part => part.2.doc.value

structure LastFound (parts : List (Json.Text × Embedded)) (final : Json.Text) : Prop where
  found : ∀ last, lastObject parts = some last → extractJsonObject (assemble parts final) = last
  null : extractJsonObject (assemble parts final) = .null →
    ∀ sub fields, sub <:+: assemble parts final → parse sub ≠ some (.object fields)

def WholeAgrees (parts : List (Json.Text × Embedded)) (final : Json.Text) : Prop :=
  ∀ last value, lastObject parts = some last → parse (assemble parts final) = some value → value = last

/-! ## Scanning objects -/

structure Scan.Outside (s : Scan) : Prop where
  inString : s.inString = false
  escaped : s.escaped = false

variable {s : Scan}

variable {ch : Char}

theorem next_plain (h : s.inString = false) (hquote : ch ≠ '"') (hopen : ch ≠ '{') (hclose : ch ≠ '}')
    (rest : Json.Text) : s.next ch rest = s := by
  rw [Scan.next, if_neg (by simp [h]), if_neg hquote, if_neg hopen, if_neg hclose]

theorem scan_plain (h : s.inString = false) {text : Json.Text} (htext : ∀ ch ∈ text, ch ≠ '"' ∧ ch ≠ '{' ∧ ch ≠ '}')
    (r : Json.Text) : scan s (text ++ r) = scan s r := by
  induction text with
  | nil => rfl
  | cons ch text ih =>
    obtain ⟨hquote, hopen, hclose⟩ := htext ch List.mem_cons_self
    rw [List.cons_append, scan, next_plain h hquote hopen hclose, ih fun d hd => htext d (List.mem_cons_of_mem _ hd)]

theorem scan_mark (h : s.inString = false) (hquote : ch ≠ '"') (hopen : ch ≠ '{') (hclose : ch ≠ '}')
    (r : Json.Text) : scan s (ch :: r) = scan s r := by
  rw [scan, next_plain h hquote hopen hclose]

theorem blank_plain {gap : Json.Text} (h : Json.Blank Json.jsonSpace gap) : ∀ ch ∈ gap, ch ≠ '"' ∧ ch ≠ '{' ∧ ch ≠ '}' := by
  intro ch hch
  have hspace := h ch hch
  refine ⟨?_, ?_, ?_⟩
  all_goals
    rintro rfl
    exact absurd hspace (by decide)

theorem numeric_plain {token : Json.Text} (h : Json.isNumber token = true) : ∀ ch ∈ token, ch ≠ '"' ∧ ch ≠ '{' ∧ ch ≠ '}' := by
  intro ch hch
  have hnumeric := (Json.isNumber_numeric h).2 ch hch
  refine ⟨?_, ?_, ?_⟩
  all_goals
    rintro rfl
    exact absurd hnumeric (by decide)

theorem next_inside (h : s.inString = true) (hescaped : s.escaped = false) (hslash : ch ≠ '\\') (hquote : ch ≠ '"')
    (rest : Json.Text) : s.next ch rest = s := by
  rw [Scan.next, if_pos h, if_neg (by simp [hescaped]), if_neg hslash, if_neg hquote]

theorem scan_inside (h : s.inString = true) (hescaped : s.escaped = false) (hslash : ch ≠ '\\') (hquote : ch ≠ '"')
    (r : Json.Text) : scan s (ch :: r) = scan s r := by
  rw [scan, next_inside h hescaped hslash hquote]

theorem scan_escape (h : s.inString = true) (hescaped : s.escaped = false) (ch : Char) (r : Json.Text) :
    scan s ('\\' :: ch :: r) = scan s r := by
  have hslash : s.next '\\' (ch :: r) = { s with escaped := true } := by
    rw [Scan.next, if_pos h, if_neg (by simp [hescaped]), if_pos rfl]
  have hback : Scan.next { s with escaped := true } ch r = s := by
    rw [Scan.next, if_pos h, if_pos rfl, ← hescaped]
  rw [scan, hslash, scan, hback]

theorem hexDigit_plain (h : Json.isHexDigit ch = true) : ch ≠ '\\' ∧ ch ≠ '"' := by
  constructor
  all_goals
    rintro rfl
    exact absurd h (by decide)

theorem scan_piece (h : s.inString = true) (hescaped : s.escaped = false) {piece : Piece} (hok : piece.Ok) (r : Json.Text) :
    scan s (piece.text ++ r) = scan s r := by
  cases piece with
  | plain c => exact scan_inside h hescaped hok.2.2 hok.2.1 r
  | escape c => exact scan_escape h hescaped c r
  | unit a b c d =>
    obtain ⟨ha, hb, hc, hd⟩ := hok
    obtain ⟨ha, ha'⟩ := hexDigit_plain ha
    obtain ⟨hb, hb'⟩ := hexDigit_plain hb
    obtain ⟨hc, hc'⟩ := hexDigit_plain hc
    obtain ⟨hd, hd'⟩ := hexDigit_plain hd
    show scan s ('\\' :: 'u' :: a :: b :: c :: d :: r) = scan s r
    rw [scan_escape h hescaped, scan_inside h hescaped ha ha', scan_inside h hescaped hb hb', scan_inside h hescaped hc hc',
      scan_inside h hescaped hd hd']

theorem scan_pieces (h : s.inString = true) (hescaped : s.escaped = false) {pieces : List Piece}
    (hok : ∀ piece ∈ pieces, piece.Ok) (r : Json.Text) : scan s (Json.piecesText pieces ++ r) = scan s r := by
  induction pieces with
  | nil => rfl
  | cons piece pieces ih =>
    rw [Json.piecesText, List.flatMap_cons, List.append_assoc, scan_piece h hescaped (hok piece List.mem_cons_self),
      ← Json.piecesText, ih fun other hother => hok other (List.mem_cons_of_mem _ hother)]

theorem scan_string (h : s.Outside) {pieces : List Piece} (hok : ∀ piece ∈ pieces, piece.Ok) (r : Json.Text) :
    scan s ('"' :: (Json.piecesText pieces ++ '"' :: r)) = scan s r := by
  have hopen : s.next '"' (Json.piecesText pieces ++ '"' :: r) = { s with inString := true } := by
    rw [Scan.next, if_neg (by simp [h.inString]), if_pos rfl]
  have hclose : Scan.next { s with inString := true } '"' r = s := by
    rw [Scan.next, if_pos rfl, if_neg (by simp [h.escaped]), if_neg (by decide), if_pos rfl, ← h.inString]
  rw [scan, hopen, scan_pieces (show ({ s with inString := true } : Scan).inString = true from rfl) h.escaped hok, scan, hclose]

/-! ## Depth -/

/-- Inside an object, outside strings. -/
structure Scan.Deep (s : Scan) : Prop extends s.Outside where
  depth : 1 ≤ s.depth

def Scan.deeper (s : Scan) : Scan := { s with depth := s.depth + 1 }

theorem Scan.Deep.deeper (h : s.Deep) : s.deeper.Deep := ⟨⟨h.inString, h.escaped⟩, by show 1 ≤ s.depth + 1; have := h.depth; omega⟩

theorem next_open (h : s.Deep) (rest : Json.Text) : s.next '{' rest = s.deeper := by
  have hdepth := h.depth
  rw [Scan.next, if_neg (by simp [h.inString]), if_neg (by decide), if_pos rfl, if_neg (by omega), Scan.deeper]

theorem next_close (h : s.inString = false) (rest : Json.Text) : s.next '}' rest = s.close rest := by
  rw [Scan.next, if_neg (by simp [h]), if_neg (by decide), if_neg (by decide), if_pos rfl]

theorem close_deeper (h : s.Deep) (rest : Json.Text) : s.deeper.close rest = s := by
  have hdepth := h.depth
  have hback : s.deeper.depth - 1 = s.depth := by
    show s.depth + 1 - 1 = s.depth
    omega
  unfold Scan.close
  simp only [hback]
  split
  · rw [if_neg (by omega), if_neg (by omega)]
    rfl
  · rw [if_neg (by omega)]
    rfl

mutual

theorem scan_doc (doc : Doc) (hok : doc.Ok Json.jsonSpace) {s : Scan} (h : s.Deep) (r : Json.Text) :
    scan s (doc.onto r) = scan s r := by
  have hin := h.inString
  cases doc with
  | null => exact scan_plain hin (show ∀ ch ∈ ['n', 'u', 'l', 'l'], ch ≠ '"' ∧ ch ≠ '{' ∧ ch ≠ '}' by simp) r
  | bool value =>
    cases value with
    | true => exact scan_plain hin (show ∀ ch ∈ ['t', 'r', 'u', 'e'], ch ≠ '"' ∧ ch ≠ '{' ∧ ch ≠ '}' by simp) r
    | false => exact scan_plain hin (show ∀ ch ∈ ['f', 'a', 'l', 's', 'e'], ch ≠ '"' ∧ ch ≠ '{' ∧ ch ≠ '}' by simp) r
  | number token => exact scan_plain hin (numeric_plain hok) r
  | string pieces => exact scan_string h.toOutside hok r
  | emptyArray gap =>
    rw [Doc.onto, scan_mark hin (by decide) (by decide) (by decide), scan_plain hin (blank_plain hok),
      scan_mark hin (by decide) (by decide) (by decide)]
  | array items =>
    rw [Doc.onto, scan_mark hin (by decide) (by decide) (by decide), scan_items items hok h]
  | emptyObject gap =>
    rw [Doc.onto, scan, next_open h, scan_plain h.deeper.inString (blank_plain hok), scan, next_close h.deeper.inString,
      close_deeper h]
  | object members =>
    rw [Doc.onto, scan, next_open h, scan_members members hok h.deeper, close_deeper h]

theorem scan_items (items : Items) (hok : items.Ok Json.jsonSpace) {s : Scan} (h : s.Deep) (r : Json.Text) :
    scan s (items.onto r) = scan s r := by
  have hin := h.inString
  cases items with
  | last before doc after =>
    obtain ⟨hbefore, hdoc, hafter⟩ := hok
    rw [Items.onto, scan_plain hin (blank_plain hbefore), scan_doc doc hdoc h, scan_plain hin (blank_plain hafter),
      scan_mark hin (by decide) (by decide) (by decide)]
  | more before doc after rest =>
    obtain ⟨hbefore, hdoc, hafter, hrest⟩ := hok
    rw [Items.onto, scan_plain hin (blank_plain hbefore), scan_doc doc hdoc h, scan_plain hin (blank_plain hafter),
      scan_mark hin (by decide) (by decide) (by decide), scan_items rest hrest h]

theorem scan_members (members : Members) (hok : members.Ok Json.jsonSpace) {s : Scan} (h : s.Deep) (r : Json.Text) :
    scan s (members.onto r) = scan (s.close r) r := by
  have hin := h.inString
  cases members with
  | last before key middle start doc after =>
    obtain ⟨hbefore, hkey, hmiddle, hstart, hdoc, hafter⟩ := hok
    rw [Members.onto, scan_plain hin (blank_plain hbefore), scan_string h.toOutside hkey, scan_plain hin (blank_plain hmiddle),
      scan_mark hin (by decide) (by decide) (by decide), scan_plain hin (blank_plain hstart), scan_doc doc hdoc h,
      scan_plain hin (blank_plain hafter), scan, next_close hin]
  | more before key middle start doc after rest =>
    obtain ⟨hbefore, hkey, hmiddle, hstart, hdoc, hafter, hrest⟩ := hok
    rw [Members.onto, scan_plain hin (blank_plain hbefore), scan_string h.toOutside hkey, scan_plain hin (blank_plain hmiddle),
      scan_mark hin (by decide) (by decide) (by decide), scan_plain hin (blank_plain hstart), scan_doc doc hdoc h,
      scan_plain hin (blank_plain hafter), scan_mark hin (by decide) (by decide) (by decide), scan_members rest hrest h]

end

/-! ## Objects at the top -/

/-- Between two objects. -/
structure Scan.Ready (s : Scan) : Prop extends s.Outside where
  depth : s.depth = 0
  start : s.start = none

def Scan.add (s : Scan) (candidate : Json.Text) : Scan := { s with candidates := s.candidates ++ [candidate] }

theorem sliceFrom_append (text rest : Json.Text) : sliceFrom (text ++ rest) rest = text := by
  rw [sliceFrom, List.length_append, Nat.add_sub_cancel, List.take_left']
  rfl

theorem scan_object (h : s.Ready) (object : Embedded) (r : Json.Text) :
    scan s (object.doc.onto r) = scan (s.add (object.doc.onto [])) r := by
  obtain ⟨rest, hbrace⟩ := Json.brace_of_isObject object.isObject r
  have hopen : ∀ rest', s.next '{' rest' = { s with depth := 1, start := some ('{' :: rest') } := by
    intro rest'
    rw [Scan.next, if_neg (by simp [h.inString]), if_neg (by decide), if_pos rfl, if_pos h.depth, h.depth]
    rfl
  have hclose : Scan.close { s with depth := 1, start := some (object.doc.onto r) } r = s.add (object.doc.onto []) := by
    rw [Scan.close, Doc.onto_nil object.doc r]
    simp only [sliceFrom_append]
    rw [if_pos (by decide), Scan.add, ← h.start, ← h.depth]
  have hdeep : Scan.Deep { s with depth := 1, start := some (object.doc.onto r) } :=
    ⟨⟨h.inString, h.escaped⟩, le_refl _⟩
  have hok := object.ok
  have hobject := object.isObject
  cases hdoc : object.doc with
  | emptyObject gap =>
    rw [hdoc] at hclose hdeep hok
    rw [Doc.onto] at hclose hdeep ⊢
    rw [scan, hopen, scan_plain hdeep.inString (blank_plain hok), scan, next_close hdeep.inString, hclose]
  | object members =>
    rw [hdoc] at hclose hdeep hok
    rw [Doc.onto] at hclose hdeep ⊢
    rw [scan, hopen, scan_members members hok hdeep, hclose]
  | null | bool | number | string | emptyArray | array =>
    rw [hdoc] at hobject
    cases hobject

/-! ## Prose -/

def Scan.within (s : Scan) (state : Bool × Bool) : Scan := { s with inString := state.1, escaped := state.2 }

variable {piece : Json.Text} {pieces : List Json.Text}

theorem scan_prose (h : Braceless piece) (r : Json.Text) :
    scan s (piece ++ r) = scan (s.within (stringState s.inString s.escaped piece)) r := by
  induction piece generalizing s with
  | nil => rfl
  | cons ch piece ih =>
    have hopen : ch ≠ '{' := fun heq => h.1 (heq ▸ List.mem_cons_self)
    have hclose : ch ≠ '}' := fun heq => h.2 (heq ▸ List.mem_cons_self)
    have hrest : Braceless piece := ⟨fun hmem => h.1 (List.mem_cons_of_mem _ hmem), fun hmem => h.2 (List.mem_cons_of_mem _ hmem)⟩
    rw [List.cons_append, scan, ih hrest, stringState, Scan.next, if_neg hopen, if_neg hclose]
    cases hin : s.inString with
    | true =>
      simp only [if_true]
      cases hescaped : s.escaped with
      | true =>
        simp only [if_true]
        rfl
      | false =>
        simp only [Bool.false_eq_true, if_false]
        by_cases hslash : ch = '\\'
        · simp only [if_pos hslash]
          rfl
        · simp only [if_neg hslash]
          by_cases hquote : ch = '"'
          · simp only [if_pos hquote]
            rfl
          · simp only [if_neg hquote, hin, hescaped]
    | false =>
      simp only [Bool.false_eq_true, if_false]
      by_cases hquote : ch = '"'
      · simp only [hquote, decide_true]
        rfl
      · simp only [hquote, if_false, decide_false, hin]

theorem stringState_outside {inString escaped : Bool} (h : inString = false → escaped = false)
    (hout : (stringState inString escaped piece).1 = false) : stringState inString escaped piece = (false, false) := by
  induction piece generalizing inString escaped with
  | nil => exact Prod.ext hout (h hout)
  | cons ch piece ih =>
    rw [stringState] at hout ⊢
    cases inString with
    | true =>
      simp only [if_true] at hout ⊢
      split_ifs at hout ⊢
      · exact ih (fun h => by cases h) hout
      · exact ih (fun h => by cases h) hout
      · exact ih (fun _ => rfl) hout
      · exact ih (fun h => by cases h) hout
    | false =>
      simp only [Bool.false_eq_true, if_false] at hout ⊢
      exact ih (fun _ => h rfl) hout

theorem scan_closed (h : s.Outside) (hpiece : Braceless piece) (hclosed : closedProse piece = true)
    (r : Json.Text) : scan s (piece ++ r) = scan s r := by
  have hstate : stringState false false piece = (false, false) :=
    stringState_outside (fun _ => rfl) (of_decide_eq_true hclosed)
  have hsame : s.within (false, false) = s := by
    obtain ⟨depth, start, inString, escaped, candidates⟩ := s
    cases h.inString
    cases h.escaped
    rfl
  rw [scan_prose hpiece, h.inString, h.escaped, hstate, hsame]

theorem candidates_prose (h : Braceless piece) : (scan s piece).candidates = s.candidates := by
  have hscan := scan_prose (s := s) h []
  rw [List.append_nil] at hscan
  rw [hscan]
  rfl

/-! ## Prose that closes its strings -/

variable {parts : List (Json.Text × Embedded)} {final : Json.Text}

def Closed (parts : List (Json.Text × Embedded)) : Prop := ∀ part ∈ parts, closedProse part.1 = true

def BracelessParts (parts : List (Json.Text × Embedded)) : Prop := ∀ part ∈ parts, Braceless part.1

def texts (parts : List (Json.Text × Embedded)) : List Json.Text := parts.map fun part => part.2.doc.onto []

theorem Scan.Ready.add (h : s.Ready) (candidate : Json.Text) : (s.add candidate).Ready :=
  ⟨⟨h.inString, h.escaped⟩, h.depth, h.start⟩

theorem scan_closed_parts (hs : s.Ready) (hparts : BracelessParts parts) (hfinal : Braceless final) (hclosed : Closed parts) :
    (scan s (assemble parts final)).candidates = s.candidates ++ texts parts := by
  induction parts generalizing s with
  | nil => rw [assemble, candidates_prose hfinal, texts, List.map_nil, List.append_nil]
  | cons part parts ih =>
    have hrest : BracelessParts parts := fun other hother => hparts other (List.mem_cons_of_mem _ hother)
    have hmore : Closed parts := fun other hother => hclosed other (List.mem_cons_of_mem _ hother)
    rw [assemble, scan_closed hs.toOutside (hparts part List.mem_cons_self) (hclosed part List.mem_cons_self),
      scan_object hs, ih (hs.add _) hrest hmore, Scan.add]
    simp only [texts, List.map_cons, List.append_assoc, List.singleton_append]

theorem ready_begin : Scan.begin.Ready := ⟨⟨rfl, rfl⟩, rfl, rfl⟩

theorem parseCandidate_object (object : Embedded) : parseCandidate (object.doc.onto []) = some object.doc.value := by
  rw [parseCandidate, Json.parse_doc object.ok]

theorem extract_closed (hparts : BracelessParts parts) (hfinal : Braceless final) (hclosed : Closed parts)
    {last : ParsedValue} (hlast : lastObject parts = some last) (hwhole : parse (assemble parts final) = none) :
    extractJsonObject (assemble parts final) = last := by
  have hcandidates := scan_closed_parts ready_begin hparts hfinal hclosed
  obtain ⟨part, hpart, rfl⟩ := Option.map_eq_some_iff.mp hlast
  obtain ⟨front, rfl⟩ := List.getLast?_eq_some_iff.mp hpart
  rw [extractJsonObject, hwhole]
  show ((scan .begin (assemble (front ++ [part]) final)).candidates.reverse.findSome? parseCandidate).getD .null = _
  rw [hcandidates, texts, List.map_append, Scan.begin, List.nil_append, List.reverse_append]
  simp only [List.map_cons, List.map_nil, List.reverse_singleton, List.singleton_append]
  rw [List.findSome?_cons, parseCandidate_object]
  rfl

theorem assemble_nil_null (hfinal : Braceless final) (sub : Json.Text) (fields : List (List ℕ × ParsedValue))
    (hsub : sub <:+: final) : parse sub ≠ some (.object fields) := by
  intro hparse
  obtain ⟨before, doc, after, htext, -, -, hvalue⟩ := Json.parse_sound hparse
  obtain ⟨rest, hbrace⟩ := Json.brace_of_isObject (Json.isObject_of_value hvalue) after
  refine hfinal.1 (hsub.subset ?_)
  rw [htext, hbrace]
  exact List.mem_append_right _ List.mem_cons_self

theorem lastObject_object {last : ParsedValue} (h : lastObject parts = some last) : ∃ fields, last = .object fields := by
  obtain ⟨part, -, rfl⟩ := Option.map_eq_some_iff.mp h
  exact Json.value_of_isObject part.2.isObject

theorem lastFound_closed (hparts : BracelessParts parts) (hfinal : Braceless final) (hclosed : Closed parts) :
    LastFound parts final ↔ WholeAgrees parts final := by
  constructor
  · intro hfound last value hlast hwhole
    have hextract := hfound.found last hlast
    rw [extractJsonObject, hwhole] at hextract
    exact hextract
  · intro hagrees
    have hfound : ∀ last, lastObject parts = some last → extractJsonObject (assemble parts final) = last := by
      intro last hlast
      cases hwhole : parse (assemble parts final) with
      | none => exact extract_closed hparts hfinal hclosed hlast hwhole
      | some value =>
        rw [extractJsonObject, hwhole]
        exact hagrees last value hlast hwhole
    refine ⟨hfound, fun hnull sub fields hsub => ?_⟩
    cases hlast : lastObject parts with
    | some last =>
      obtain ⟨found, rfl⟩ := lastObject_object hlast
      rw [hfound _ hlast] at hnull
      cases hnull
    | none =>
      have hempty : parts = [] := List.getLast?_eq_none_iff.mp (Option.map_eq_none_iff.mp hlast)
      rw [hempty] at hsub
      exact assemble_nil_null hfinal sub fields hsub

/-! ## Prose that leaves a string open -/

def emptyObject : Embedded := ⟨.emptyObject [], fun _ hch => absurd hch List.not_mem_nil, rfl⟩

def braceKeyDoc : Doc := .object (.last [] [.plain '{'] [] [] (.number ['0']) [])

theorem braceKeyDoc_ok : braceKeyDoc.Ok Json.jsonSpace := by
  have hblank : Json.Blank Json.jsonSpace [] := fun ch hch => absurd hch List.not_mem_nil
  exact ⟨hblank, by decide, hblank, hblank, rfl, hblank⟩

def braceKey : Embedded := ⟨braceKeyDoc, braceKeyDoc_ok, rfl⟩

theorem braceKey_onto (r : Json.Text) :
    braceKey.doc.onto r = '{' :: '"' :: '{' :: '"' :: ':' :: '0' :: '}' :: r := rfl

/-- Empty objects as long as the strings close, and brace keys from there on. -/
def hostile : List Json.Text → List (Json.Text × Embedded)
  | [] => []
  | piece :: pieces =>
    if closedProse piece then (piece, emptyObject) :: hostile pieces
    else (piece, braceKey) :: pieces.map fun other => (other, braceKey)

/-- A string is open, or an object that will not end. -/
structure Scan.Astray (s : Scan) : Prop where
  depth : 0 ≤ s.depth
  outside : s.inString = false → s.Deep

/-- An object that will not end. -/
structure Scan.Lost (s : Scan) : Prop where
  depth : 1 ≤ s.depth
  outside : s.inString = false → s.escaped = false

theorem Scan.Lost.astray (h : s.Lost) : s.Astray :=
  ⟨by have := h.depth; omega, fun hin => ⟨⟨hin, h.outside hin⟩, h.depth⟩⟩

theorem scan_braceKey (h : s.Astray) (r : Json.Text) :
    ∃ found : Scan, scan s (braceKey.doc.onto r) = scan found r ∧ found.Lost ∧ found.candidates = s.candidates := by
  obtain ⟨depth, start, inString, escaped, candidates⟩ := s
  have hdepth : 0 ≤ depth := h.depth
  cases inString with
  | false =>
    have hdeep := h.outside rfl
    exact ⟨_, scan_doc braceKeyDoc braceKeyDoc_ok hdeep r, ⟨hdeep.depth, fun _ => hdeep.escaped⟩, rfl⟩
  | true =>
    refine ⟨⟨depth + 1, if depth = 0 then some ('{' :: '"' :: ':' :: '0' :: '}' :: r) else start, true, false, candidates⟩, ?_,
      ⟨by show 1 ≤ depth + 1; omega, fun h => by cases h⟩, rfl⟩
    rw [braceKey_onto]
    cases escaped <;> rfl

theorem within_lost (h : s.Lost) : (s.within (stringState s.inString s.escaped piece)).Lost := by
  refine ⟨h.depth, fun hin => ?_⟩
  show (stringState s.inString s.escaped piece).2 = false
  rw [stringState_outside h.outside hin]

theorem candidates_lost (h : s.Lost) (hpieces : ∀ piece ∈ pieces, Braceless piece) (hfinal : Braceless final) :
    (scan s (assemble (pieces.map fun piece => (piece, braceKey)) final)).candidates = s.candidates := by
  induction pieces generalizing s with
  | nil => exact candidates_prose hfinal
  | cons piece pieces ih =>
    rw [List.map_cons, assemble, scan_prose (hpieces piece List.mem_cons_self)]
    obtain ⟨found, hscan, hlost, hsame⟩ := scan_braceKey (within_lost h).astray
      (assemble (pieces.map fun piece => (piece, braceKey)) final)
    rw [hscan, ih hlost fun other hother => hpieces other (List.mem_cons_of_mem _ hother), hsame]
    rfl

theorem candidates_hostile (hs : s.Ready) (hpieces : ∀ piece ∈ pieces, Braceless piece)
    (hfinal : Braceless final) (hopen : ¬ ∀ piece ∈ pieces, closedProse piece = true) :
    ∃ k, (scan s (assemble (hostile pieces) final)).candidates = s.candidates ++ List.replicate k ['{', '}'] := by
  induction pieces generalizing s with
  | nil => exact absurd (fun piece hpiece => absurd hpiece List.not_mem_nil) hopen
  | cons piece pieces ih =>
    have hpiece := hpieces piece List.mem_cons_self
    have hmore : ∀ other ∈ pieces, Braceless other := fun other hother => hpieces other (List.mem_cons_of_mem _ hother)
    rw [hostile]
    by_cases hclosed : closedProse piece = true
    · have hrest : ¬ ∀ other ∈ pieces, closedProse other = true := by
        intro hall
        refine hopen fun other hother => ?_
        rcases List.mem_cons.mp hother with rfl | hother
        · exact hclosed
        · exact hall other hother
      rw [if_pos hclosed, assemble, scan_closed hs.toOutside hpiece hclosed, scan_object hs]
      obtain ⟨k, hk⟩ := ih (hs.add _) hmore hrest
      refine ⟨k + 1, ?_⟩
      rw [hk, List.replicate_succ]
      exact List.append_assoc _ _ _
    · rw [if_neg hclosed, assemble, scan_prose hpiece, hs.inString, hs.escaped]
      have hin : (stringState false false piece).1 = true := by
        simpa [closedProse] using hclosed
      have hastray : (s.within (stringState false false piece)).Astray := by
        refine ⟨le_of_eq hs.depth.symm, fun hfalse => ?_⟩
        exact absurd (hin.symm.trans hfalse) (by decide)
      obtain ⟨found, hscan, hlost, hsame⟩ := scan_braceKey hastray (assemble (pieces.map fun other => (other, braceKey)) final)
      exact ⟨0, by rw [hscan, candidates_lost hlost hmore hfinal, hsame, List.replicate_zero, List.append_nil]; rfl⟩

theorem value_ne : braceKey.doc.value ≠ emptyObject.doc.value := by
  intro h
  have hfields := ParsedValue.object.inj h
  cases hfields

theorem last_braceKey (piece : Json.Text) (pieces : List Json.Text) :
    lastObject ((piece, braceKey) :: pieces.map fun other => (other, braceKey)) = some braceKey.doc.value := by
  have hall : ∀ part ∈ (piece, braceKey) :: pieces.map fun other => (other, braceKey), part.2 = braceKey := by
    intro part hpart
    rcases List.mem_cons.mp hpart with rfl | hpart
    · rfl
    · obtain ⟨other, -, rfl⟩ := List.mem_map.mp hpart
      rfl
  rw [lastObject, List.getLast?_eq_some_getLast (List.cons_ne_nil _ _), Option.map_some, hall _ (List.getLast_mem _)]

theorem last_hostile (hopen : ¬ ∀ piece ∈ pieces, closedProse piece = true) :
    lastObject (hostile pieces) = some braceKey.doc.value := by
  induction pieces with
  | nil => exact absurd (fun piece hpiece => absurd hpiece List.not_mem_nil) hopen
  | cons piece pieces ih =>
    rw [hostile]
    by_cases hclosed : closedProse piece = true
    · have hrest : ¬ ∀ other ∈ pieces, closedProse other = true := by
        intro hall
        refine hopen fun other hother => ?_
        rcases List.mem_cons.mp hother with rfl | hother
        · exact hclosed
        · exact hall other hother
      have hlast := ih hrest
      have hne : hostile pieces ≠ [] := by
        intro hnil
        rw [hnil] at hlast
        cases hlast
      rw [if_pos hclosed, lastObject, List.getLast?_cons_of_ne_nil hne]
      exact hlast
    · rw [if_neg hclosed, last_braceKey]

theorem first_eq {c : Char} {one other t u : Json.Text} (hone : c ∉ one) (hother : c ∉ other)
    (h : one ++ c :: t = other ++ c :: u) : one = other ∧ t = u := by
  induction one generalizing other with
  | nil =>
    cases other with
    | nil => exact ⟨rfl, (List.cons.inj h).2⟩
    | cons d other => exact absurd ((List.cons.inj h).1 ▸ List.mem_cons_self) hother
  | cons d one ih =>
    cases other with
    | nil => exact absurd ((List.cons.inj h).1 ▸ List.mem_cons_self) hone
    | cons e other =>
      obtain ⟨hd, htail⟩ := List.cons.inj h
      obtain ⟨hsame, hrest⟩ := ih (fun hmem => hone (List.mem_cons_of_mem _ hmem))
        (fun hmem => hother (List.mem_cons_of_mem _ hmem)) htail
      exact ⟨by rw [hd, hsame], hrest⟩

theorem closedProse_plain (h : ∀ ch ∈ piece, ch ≠ '"') : closedProse piece = true := by
  have hstate : stringState false false piece = (false, false) := by
    induction piece with
    | nil => rfl
    | cons ch piece ih =>
      have hquote : decide (ch = '"') = false := decide_eq_false (h ch List.mem_cons_self)
      rw [stringState, hquote, if_neg (by decide), ih fun d hd => h d (List.mem_cons_of_mem _ hd)]
  rw [closedProse, hstate]
  rfl

theorem whole_hostile (final : Json.Text) (hpieces : ∀ piece ∈ pieces, Braceless piece)
    (hopen : ¬ ∀ piece ∈ pieces, closedProse piece = true) :
    parse (assemble (hostile pieces) final) ≠ some braceKey.doc.value := by
  intro hparse
  obtain ⟨before, doc, after, htext, hbefore, hok, hvalue⟩ := Json.parse_sound hparse
  have hobject : doc.isObject = true := Json.isObject_of_value hvalue
  have hbrace : '{' ∉ before := fun hmem => (blank_plain hbefore _ hmem).2.1 rfl
  cases pieces with
  | nil => exact hopen fun piece hpiece => absurd hpiece List.not_mem_nil
  | cons piece pieces =>
    have hpiece := hpieces piece List.mem_cons_self
    obtain ⟨rest, hdoc⟩ := Json.brace_of_isObject hobject after
    rw [hostile] at htext
    by_cases hclosed : closedProse piece = true
    · rw [if_pos hclosed, assemble, hdoc] at htext
      obtain ⟨-, hrest⟩ := first_eq hpiece.1 hbrace htext
      cases doc with
      | emptyObject gap => exact value_ne hvalue.symm
      | object members =>
        obtain ⟨c, more, hhead, hc⟩ := Json.members_head Json.jsonSpace_space members hok after
        rw [Doc.onto] at hdoc
        rw [List.cons.inj hdoc |>.2, ← hrest] at hhead
        cases hhead
        exact hc rfl
      | null | bool | number | string | emptyArray | array => cases hobject
    · rw [if_neg hclosed, assemble, hdoc] at htext
      obtain ⟨hsame, -⟩ := first_eq hpiece.1 hbrace htext
      exact hclosed (closedProse_plain fun ch hch => (blank_plain hbefore ch (hsame ▸ hch)).1)

theorem extract_hostile (hpieces : ∀ piece ∈ pieces, Braceless piece) (hfinal : Braceless final)
    (hopen : ¬ ∀ piece ∈ pieces, closedProse piece = true) :
    extractJsonObject (assemble (hostile pieces) final) ≠ braceKey.doc.value := by
  have hwhole := whole_hostile final hpieces hopen
  obtain ⟨k, hk⟩ := candidates_hostile ready_begin hpieces hfinal hopen
  unfold extractJsonObject
  split
  · rename_i value hvalue
    exact fun heq => hwhole (heq ▸ hvalue)
  · rw [hk, Scan.begin, List.nil_append, List.reverse_replicate]
    cases k with
    | zero => exact fun h => by cases h
    | succ k =>
      have hcandidate : parseCandidate ['{', '}'] = some emptyObject.doc.value := parseCandidate_object emptyObject
      rw [List.replicate_succ, List.findSome?_cons, hcandidate]
      exact value_ne.symm

/-! ## The last object -/

theorem hostile_pieces (pieces : List Json.Text) : (hostile pieces).map Prod.fst = pieces := by
  induction pieces with
  | nil => rfl
  | cons piece pieces ih =>
    rw [hostile]
    split
    · rw [List.map_cons, ih]
    · rw [List.map_cons, List.map_map]
      exact congrArg _ (List.map_id _)

/-- Between pieces of prose that all close their strings, the last object is found unless the text is JSON as a whole;
between other pieces there are objects of which the last is not found. -/
theorem last_object_found (pieces : List Json.Text) (final : Json.Text) (hpieces : ∀ piece ∈ pieces, Braceless piece)
    (hfinal : Braceless final) : ((∀ piece ∈ pieces, closedProse piece = true) →
      ∀ parts, parts.map Prod.fst = pieces → (LastFound parts final ↔ WholeAgrees parts final)) ∧
    ((∀ parts, parts.map Prod.fst = pieces → LastFound parts final) ↔
      (∀ piece ∈ pieces, closedProse piece = true) ∧ ∀ parts, parts.map Prod.fst = pieces → WholeAgrees parts final) := by
  have hclosed : (∀ piece ∈ pieces, closedProse piece = true) →
      ∀ parts, parts.map Prod.fst = pieces → (LastFound parts final ↔ WholeAgrees parts final) := by
    intro hall parts hparts
    have hmem : ∀ part ∈ parts, part.1 ∈ pieces := fun part hpart => hparts ▸ List.mem_map.mpr ⟨part, hpart, rfl⟩
    exact lastFound_closed (fun part hpart => hpieces _ (hmem part hpart)) hfinal fun part hpart => hall _ (hmem part hpart)
  refine ⟨hclosed, ?_, ?_⟩
  · intro hfound
    have hall : ∀ piece ∈ pieces, closedProse piece = true := by
      by_contra hopen
      exact extract_hostile hpieces hfinal hopen
        ((hfound (hostile pieces) (hostile_pieces pieces)).found _ (last_hostile hopen))
    exact ⟨hall, fun parts hparts => (hclosed hall parts hparts).mp (hfound parts hparts)⟩
  · rintro ⟨hall, hagrees⟩ parts hparts
    exact (hclosed hall parts hparts).mpr (hagrees parts hparts)

theorem last_object_found_once : LastFound [(['s', 'o', ' '], braceKey)] [] := by
  have hpieces : ∀ piece ∈ [['s', 'o', ' ']], Braceless piece := by decide
  have hwhole : parse (assemble [(['s', 'o', ' '], braceKey)] []) = none :=
    Option.isNone_iff_eq_none.mp (by decide +kernel)
  have hfound := (last_object_found [['s', 'o', ' ']] [] hpieces ⟨List.not_mem_nil, List.not_mem_nil⟩).1 (by decide)
    [(['s', 'o', ' '], braceKey)] rfl
  refine hfound.mpr fun last value _ hvalue => ?_
  rw [hwhole] at hvalue
  cases hvalue

/-- A quote in the prose hides the object behind it. -/
theorem quote_hides : ¬ ∀ (parts : List (Json.Text × Embedded)) (final : Json.Text), BracelessParts parts → Braceless final →
    LastFound parts final := by
  intro hall
  have hpieces : ∀ piece ∈ [['5', '"', ' ']], Braceless piece := by decide
  have hfinal : Braceless [] := ⟨List.not_mem_nil, List.not_mem_nil⟩
  have hopen : ¬ ∀ piece ∈ [['5', '"', ' ']], closedProse piece = true := by decide
  have hparts : BracelessParts (hostile [['5', '"', ' ']]) := by
    intro part hpart
    exact hpieces _ (hostile_pieces [['5', '"', ' ']] ▸ List.mem_map.mpr ⟨part, hpart, rfl⟩)
  exact extract_hostile hpieces hfinal hopen ((hall _ [] hparts hfinal).found _ (last_hostile hopen))

end AvenOS.Chat
