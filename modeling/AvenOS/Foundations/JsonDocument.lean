import Mathlib.Data.List.Basic

/-! # JSON documents

The concrete syntax of RFC 8259, with its white space and the spelling of its strings, for any choice of
the characters that count as white space. A document is rendered onto the text that follows it. -/
namespace AvenOS.Json

abbrev Text := List Char

/-! ## Strings -/

def isHexDigit (c : Char) : Bool :=
  c.isDigit || ('a' ≤ c && c ≤ 'f') || ('A' ≤ c && c ≤ 'F')

def escapable : List Char := ['"', '\\', '/', 'b', 'f', 'n', 'r', 't']

/-- One spelling of a character, or of half of one. -/
inductive Piece
  | plain (c : Char)
  | escape (c : Char)
  | unit (a b c d : Char)
deriving DecidableEq, Repr

def Piece.text : Piece → Text
  | .plain c => [c]
  | .escape c => ['\\', c]
  | .unit a b c d => ['\\', 'u', a, b, c, d]

def Piece.Ok : Piece → Prop
  | .plain c => ¬ c.toNat < 0x20 ∧ c ≠ '"' ∧ c ≠ '\\'
  | .escape c => c ∈ escapable
  | .unit a b c d => isHexDigit a ∧ isHexDigit b ∧ isHexDigit c ∧ isHexDigit d

instance (piece : Piece) : Decidable piece.Ok :=
  match piece with
  | .plain c => inferInstanceAs (Decidable (¬ c.toNat < 0x20 ∧ c ≠ '"' ∧ c ≠ '\\'))
  | .escape c => inferInstanceAs (Decidable (c ∈ escapable))
  | .unit a b c d => inferInstanceAs
      (Decidable (isHexDigit a ∧ isHexDigit b ∧ isHexDigit c ∧ isHexDigit d))

def piecesText (pieces : List Piece) : Text := pieces.flatMap Piece.text

/-! ## Numbers -/

def isNumeric (c : Char) : Bool :=
  c.isDigit || c = '-' || c = '+' || c = '.' || c = 'e' || c = 'E'

/-- `e` or `E`, a sign or none, and digits. -/
def isExponent : Text → Bool
  | [] => true
  | c :: rest =>
    (c = 'e' || c = 'E') &&
      match rest with
      | [] => false
      | sign :: digits =>
        if sign = '+' || sign = '-' then !digits.isEmpty && digits.all Char.isDigit
        else rest.all Char.isDigit

def isFraction : Text → Bool
  | [] => true
  | c :: rest =>
    if c = '.' then
      match rest with
      | [] => false
      | digit :: rest => digit.isDigit && isExponent (rest.dropWhile Char.isDigit)
    else isExponent (c :: rest)

def isUnsigned : Text → Bool
  | [] => false
  | c :: rest =>
    if c = '0' then isFraction rest
    else c.isDigit && isFraction (rest.dropWhile Char.isDigit)

def isNumber : Text → Bool
  | [] => false
  | c :: rest => if c = '-' then isUnsigned rest else isUnsigned (c :: rest)

/-! ## Documents -/

mutual

inductive Doc
  | null
  | bool (value : Bool)
  | number (token : Text)
  | string (pieces : List Piece)
  | emptyArray (gap : Text)
  | array (items : Items)
  | emptyObject (gap : Text)
  | object (members : Members)

inductive Items
  | last (before : Text) (doc : Doc) (after : Text)
  | more (before : Text) (doc : Doc) (after : Text) (rest : Items)

inductive Members
  | last (before : Text) (key : List Piece) (middle start : Text) (doc : Doc) (after : Text)
  | more (before : Text) (key : List Piece) (middle start : Text) (doc : Doc) (after : Text)
      (rest : Members)

end

mutual

def Doc.onto : Doc → Text → Text
  | .null, r => 'n' :: 'u' :: 'l' :: 'l' :: r
  | .bool true, r => 't' :: 'r' :: 'u' :: 'e' :: r
  | .bool false, r => 'f' :: 'a' :: 'l' :: 's' :: 'e' :: r
  | .number token, r => token ++ r
  | .string pieces, r => '"' :: (piecesText pieces ++ '"' :: r)
  | .emptyArray gap, r => '[' :: (gap ++ ']' :: r)
  | .array items, r => '[' :: items.onto r
  | .emptyObject gap, r => '{' :: (gap ++ '}' :: r)
  | .object members, r => '{' :: members.onto r

def Items.onto : Items → Text → Text
  | .last before doc after, r => before ++ doc.onto (after ++ ']' :: r)
  | .more before doc after rest, r => before ++ doc.onto (after ++ ',' :: rest.onto r)

def Members.onto : Members → Text → Text
  | .last before key middle start doc after, r =>
    before ++ '"' :: (piecesText key ++ '"' :: (middle ++ ':' ::
      (start ++ doc.onto (after ++ '}' :: r))))
  | .more before key middle start doc after rest, r =>
    before ++ '"' :: (piecesText key ++ '"' :: (middle ++ ':' ::
      (start ++ doc.onto (after ++ ',' :: rest.onto r))))

end

section Grammar
variable (space : Char → Bool)

def Blank (gap : Text) : Prop := ∀ c ∈ gap, space c = true

mutual

def Doc.Ok : Doc → Prop
  | .null => True
  | .bool _ => True
  | .number token => isNumber token = true
  | .string pieces => ∀ piece ∈ pieces, piece.Ok
  | .emptyArray gap => Blank space gap
  | .array items => items.Ok
  | .emptyObject gap => Blank space gap
  | .object members => members.Ok

def Items.Ok : Items → Prop
  | .last before doc after => Blank space before ∧ doc.Ok ∧ Blank space after
  | .more before doc after rest => Blank space before ∧ doc.Ok ∧ Blank space after ∧ rest.Ok

def Members.Ok : Members → Prop
  | .last before key middle start doc after =>
    Blank space before ∧ (∀ piece ∈ key, piece.Ok) ∧ Blank space middle ∧ Blank space start ∧
      doc.Ok ∧ Blank space after
  | .more before key middle start doc after rest =>
    Blank space before ∧ (∀ piece ∈ key, piece.Ok) ∧ Blank space middle ∧ Blank space start ∧
      doc.Ok ∧ Blank space after ∧ rest.Ok

end

/-- White space is no part of a token. -/
structure Space : Prop where
  apart : ∀ c, space c = true → isNumeric c = false ∧
    c ∉ ['"', '[', ']', '{', '}', ',', ':', 'n', 't', 'f']

end Grammar

/-! ## Nesting and size -/

mutual

/-- How deeply containers are nested. -/
def Doc.depth : Doc → ℕ
  | .emptyArray _ => 1
  | .array items => items.depth + 1
  | .emptyObject _ => 1
  | .object members => members.depth + 1
  | _ => 0

def Items.depth : Items → ℕ
  | .last _ doc _ => doc.depth
  | .more _ doc _ rest => max doc.depth rest.depth

def Members.depth : Members → ℕ
  | .last _ _ _ _ doc _ => doc.depth
  | .more _ _ _ _ doc _ rest => max doc.depth rest.depth

end

mutual

def Doc.size : Doc → ℕ
  | .array items => items.size + 1
  | .object members => members.size + 1
  | _ => 1

def Items.size : Items → ℕ
  | .last _ doc _ => doc.size + 1
  | .more _ doc _ rest => doc.size + rest.size + 1

def Members.size : Members → ℕ
  | .last _ _ _ _ doc _ => doc.size + 1
  | .more _ _ _ _ doc _ rest => doc.size + rest.size + 1

end

/-! ## Reading -/

def keyword (word : Text) (doc : Doc) (text : Text) : Option (Doc × Text) :=
  if word <+: text then some (doc, text.drop word.length) else none

/-- The pieces up to the closing quote. -/
def readPieces : Text → Option (List Piece × Text)
  | [] => none
  | c :: rest =>
    if c = '"' then some ([], rest)
    else if c = '\\' then
      match rest with
      | 'u' :: a :: b :: c :: d :: rest =>
        if isHexDigit a && isHexDigit b && isHexDigit c && isHexDigit d then
          (readPieces rest).map fun (pieces, r) => (.unit a b c d :: pieces, r)
        else none
      | e :: rest =>
        if e ∈ escapable then (readPieces rest).map fun (pieces, r) => (.escape e :: pieces, r)
        else none
      | [] => none
    else if c.toNat < 0x20 then none
    else (readPieces rest).map fun (pieces, r) => (.plain c :: pieces, r)

/-- A string that is not closed is not read. -/
example : readPieces [] = none := by
  rw [readPieces.eq_def]

section Reader
variable (space : Char → Bool)

mutual

def readDoc : ℕ → Text → Option (Doc × Text)
  | 0, _ => none
  | _, [] => none
  | fuel + 1, c :: rest =>
    if c = 'n' then keyword ['u', 'l', 'l'] .null rest
    else if c = 't' then keyword ['r', 'u', 'e'] (.bool true) rest
    else if c = 'f' then keyword ['a', 'l', 's', 'e'] (.bool false) rest
    else if c = '"' then (readPieces rest).map fun (pieces, r) => (.string pieces, r)
    else if c = '[' then
      match rest.dropWhile space with
      | ']' :: r => some (.emptyArray (rest.takeWhile space), r)
      | _ => (readItems fuel rest).map fun (items, r) => (.array items, r)
    else if c = '{' then
      match rest.dropWhile space with
      | '}' :: r => some (.emptyObject (rest.takeWhile space), r)
      | _ => (readMembers fuel rest).map fun (members, r) => (.object members, r)
    else
      let token := (c :: rest).takeWhile isNumeric
      if isNumber token then some (.number token, (c :: rest).dropWhile isNumeric) else none

def readItems : ℕ → Text → Option (Items × Text)
  | 0, _ => none
  | fuel + 1, text =>
    match readDoc fuel (text.dropWhile space) with
    | none => none
    | some (doc, left) =>
      let before := text.takeWhile space
      let after := left.takeWhile space
      match left.dropWhile space with
      | ']' :: r => some (.last before doc after, r)
      | ',' :: r => (readItems fuel r).map fun (rest, r) => (.more before doc after rest, r)
      | _ => none

def readMembers : ℕ → Text → Option (Members × Text)
  | 0, _ => none
  | fuel + 1, text =>
    match text.dropWhile space with
    | '"' :: quoted =>
      match readPieces quoted with
      | none => none
      | some (key, keyed) =>
        match keyed.dropWhile space with
        | ':' :: valued =>
          match readDoc fuel (valued.dropWhile space) with
          | none => none
          | some (doc, left) =>
            let before := text.takeWhile space
            let middle := keyed.takeWhile space
            let start := valued.takeWhile space
            let after := left.takeWhile space
            match left.dropWhile space with
            | '}' :: r => some (.last before key middle start doc after, r)
            | ',' :: r => (readMembers fuel r).map fun (rest, r) =>
                (.more before key middle start doc after rest, r)
            | _ => none
        | _ => none
    | _ => none

end

/-- A whole text, with the white space around its document. -/
structure Document where
  before : Text
  doc : Doc
  after : Text

def Document.text (document : Document) : Text :=
  document.before ++ document.doc.onto document.after

def Document.Ok (document : Document) : Prop :=
  Blank space document.before ∧ document.doc.Ok space ∧ Blank space document.after

def read (text : Text) : Option Document :=
  let start := text.dropWhile space
  match readDoc space (start.length + 1) start with
  | none => none
  | some (doc, left) =>
    if left.all space then some ⟨text.takeWhile space, doc, left⟩ else none

/-- Without fuel nothing is read. -/
example (text : Text) : readDoc space 0 text = none ∧ readItems space 0 text = none ∧ readMembers space 0 text = none := by
  rw [readDoc, readItems, readMembers]
  exact ⟨rfl, rfl, rfl⟩

end Reader

end AvenOS.Json
