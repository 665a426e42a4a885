import AvenOS.Foundations.JsonStrings
import AvenOS.Foundations.StableSort

/-! # Artifact JSON in the client

`parseArtifactJson` with its hand-written parser and `canonicalArtifactJson`. A string of the script is
its UTF-16 code units; the source is what the decoder makes of the bytes, so its units are those of
characters, and the parser looks at characters. Its budget is the length of the source. -/
namespace AvenOS.ArtifactStore.Client
open Json

/-- A value of `JSON.parse`; the members of an object are in the order of insertion. -/
inductive ArtifactJson
  | null
  | boolean (value : Bool)
  | number (value : ℤ)
  | string (value : List ℕ)
  | array (values : List ArtifactJson)
  | object (members : List (List ℕ × ArtifactJson))

structure ArtifactJsonError where
  message : String
deriving DecidableEq, Repr

def ArtifactJson.isObject : ArtifactJson → Bool
  | .object _ => true
  | _ => false

def maxSafeInteger : ℤ := 9007199254740991

/-! ## Strings of the script -/

/-- `/\s/` -/
def scriptSpace (c : Char) : Bool :=
  decide (c.toNat ∈ [9, 10, 11, 12, 13, 32, 0xA0, 0x1680, 0x2028, 0x2029, 0x202F, 0x205F, 0x3000, 0xFEFF]) ||
    (0x2000 ≤ c.toNat && c.toNat ≤ 0x200A)

def aloneText (unit : ℕ) : Text :=
  ['\\', 'u', Nat.digitChar (unit / 4096), Nat.digitChar (unit / 256 % 16),
    Nat.digitChar (unit / 16 % 16), Nat.digitChar (unit % 16)]

def stringifyUnits : List ℕ → Text
  | [] => []
  | u :: rest =>
    if isHigh u then
      match rest with
      | [] => aloneText u
      | v :: more =>
        if isLow v then
          Char.ofNat (0x10000 + (u - 0xD800) * 0x400 + (v - 0xDC00)) :: stringifyUnits more
        else aloneText u ++ stringifyUnits (v :: more)
    else if isLow u then aloneText u ++ stringifyUnits rest
    else (quotedPiece (Char.ofNat u)).text ++ stringifyUnits rest

/-- `JSON.stringify` of a string. -/
def stringify (units : List ℕ) : Text := '"' :: (stringifyUnits units ++ ['"'])

def parseStringToken : Text → Option (List ℕ)
  | '"' :: rest =>
    match readPieces rest with
    | some (pieces, []) => some (piecesUnits pieces)
    | _ => none
  | _ => none

/-- `Array.from` by code points. -/
def codePoints : List ℕ → List ℕ
  | [] => []
  | u :: rest =>
    if isHigh u then
      match rest with
      | [] => [u]
      | v :: more =>
        if isLow v then (0x10000 + (u - 0xD800) * 0x400 + (v - 0xDC00)) :: codePoints more
        else u :: codePoints (v :: more)
    else u :: codePoints rest

def comparePoints : List ℕ → List ℕ → Ordering
  | [], [] => .eq
  | [], _ :: _ => .lt
  | _ :: _, [] => .gt
  | left :: lefts, right :: rights =>
    if left < right then .lt else if right < left then .gt else comparePoints lefts rights

def compareScalarStrings (left right : List ℕ) : Ordering :=
  comparePoints (codePoints left) (codePoints right)

/-! ## The parser -/

section Parser
variable (source : Text)

/-- `#index`, by what is left of the source. -/
def indexAt (rest : Text) : ℕ := (unitsOf source).length - (unitsOf rest).length

def fail {α : Type} (message : String) (index : ℕ) : Except ArtifactJsonError α :=
  .error ⟨message ++ " at character " ++ toString index⟩

def whitespace (text : Text) : Text := text.dropWhile scriptSpace

/-- The token up to its closing quote, and what is left. -/
def scanString : Bool → Text → Text → Except ArtifactJsonError (Text × Text)
  | _, _, [] => fail "unterminated string" (indexAt source [])
  | escaped, token, c :: rest =>
    if !escaped && c = '"' then .ok (token ++ [c], rest)
    else if !escaped && decide (c.toNat < 0x20) then fail "unescaped control character" (indexAt source rest)
    else scanString (!escaped && c = '\\') (token ++ [c]) rest

def string (text : Text) : Except ArtifactJsonError (List ℕ × Text) := do
  let (token, rest) ← scanString source false (text.take 1) (text.drop 1)
  match parseStringToken token with
  | some units => .ok (units, rest)
  | none => fail "invalid JSON string" (indexAt source rest)

/-- `/^(?:0|[1-9][0-9]*)/` -/
def matchDigits : Text → Option (Text × Text)
  | [] => none
  | c :: rest =>
    if c = '0' then some ([c], rest)
    else if c.isDigit then some (c :: rest.takeWhile Char.isDigit, rest.dropWhile Char.isDigit)
    else none

/-- `/^-?(?:0|[1-9][0-9]*)/` -/
def matchInteger : Text → Option (Text × Text)
  | [] => none
  | c :: rest =>
    if c = '-' then (matchDigits rest).map fun (digits, left) => (c :: digits, left)
    else matchDigits (c :: rest)

/-- `BigInt` -/
def bigInt : Text → ℤ
  | [] => 0
  | c :: rest => if c = '-' then -(Nat.ofDigitChars 10 rest 0 : ℕ) else (Nat.ofDigitChars 10 (c :: rest) 0 : ℕ)

def endsNumber (c : Char) : Bool := scriptSpace c || c = ',' || c = ']' || c = '}'

def integer (text : Text) : Except ArtifactJsonError (ArtifactJson × Text) :=
  match matchInteger text with
  | none => fail "invalid number" (indexAt source text)
  | some (token, rest) =>
    if rest.head? = some '.' ∨ rest.head? = some 'e' ∨ rest.head? = some 'E' then
      fail "fractional and exponent numbers are not allowed" (indexAt source rest)
    else if (rest.head?.map endsNumber).getD true = false then
      fail "invalid number suffix" (indexAt source rest)
    else if bigInt token < -maxSafeInteger ∨ maxSafeInteger < bigInt token then
      fail "integer is outside the Artifact JSON safe range" (indexAt source rest)
    else .ok (.number (bigInt token), rest)

def literal (token : String) (value : ArtifactJson) (text : Text) :
    Except ArtifactJsonError (ArtifactJson × Text) :=
  if token.toList <+: text then .ok (value, text.drop token.toList.length)
  else fail ("expected " ++ token) (indexAt source text)

def expectColon (text : Text) : Except ArtifactJsonError Text :=
  match text with
  | ':' :: rest => .ok rest
  | _ => fail "expected ':'" (indexAt source text)

mutual

def value : ℕ → Text → Except ArtifactJsonError (ArtifactJson × Text)
  | 0, text => fail "expected a JSON value" (indexAt source text)
  | _, [] => fail "expected a JSON value" (indexAt source [])
  | fuel + 1, c :: rest =>
    if c = '{' then
      match whitespace rest with
      | '}' :: r => .ok (.object [], r)
      | text => object fuel [] [] text
    else if c = '[' then
      match whitespace rest with
      | ']' :: r => .ok (.array [], r)
      | text => array fuel [] text
    else if c = '"' then (string source (c :: rest)).map fun (units, r) => (.string units, r)
    else if c = 't' then literal source "true" (.boolean true) (c :: rest)
    else if c = 'f' then literal source "false" (.boolean false) (c :: rest)
    else if c = 'n' then literal source "null" .null (c :: rest)
    else if c = '-' ∨ c.isDigit then integer source (c :: rest)
    else fail "expected a JSON value" (indexAt source (c :: rest))

/-- The loop over the members, at the next key. -/
def object : ℕ → List (List ℕ) → List (List ℕ × ArtifactJson) → Text →
    Except ArtifactJsonError (ArtifactJson × Text)
  | 0, _, _, text => fail "object key must be a string" (indexAt source text)
  | fuel + 1, keys, result, text =>
    if text.head? ≠ some '"' then fail "object key must be a string" (indexAt source text)
    else do
      let (key, keyed) ← string source text
      if key ∈ keys then
        fail ("duplicate object key " ++ String.ofList (stringify key)) (indexAt source keyed)
      else do
        let valued ← expectColon source (whitespace keyed)
        let (item, left) ← value fuel (whitespace valued)
        match whitespace left with
        | '}' :: r => .ok (.object (result ++ [(key, item)]), r)
        | ',' :: r => object fuel (keys ++ [key]) (result ++ [(key, item)]) (whitespace r)
        | text => fail "expected ',' or '\x7d'" (indexAt source text + 1)

/-- The loop over the items, at the next value. -/
def array : ℕ → List ArtifactJson → Text → Except ArtifactJsonError (ArtifactJson × Text)
  | 0, _, text => fail "expected a JSON value" (indexAt source text)
  | fuel + 1, result, text => do
    let (item, left) ← value fuel text
    match whitespace left with
    | ']' :: r => .ok (.array (result ++ [item]), r)
    | ',' :: r => array fuel (result ++ [item]) (whitespace r)
    | text => fail "expected ',' or ']'" (indexAt source text + 1)

end

def parse : Except ArtifactJsonError ArtifactJson := do
  let (result, rest) ← value source ((whitespace source).length + 1) (whitespace source)
  match whitespace rest with
  | [] => .ok result
  | left => fail "trailing content" (indexAt source left)

end Parser

/-! ## Bytes -/

/-- `TextDecoder` drops one byte order mark. -/
def withoutMark : Text → Text
  | c :: rest => if c.toNat = 0xFEFF then rest else c :: rest
  | [] => []

/-- `new TextDecoder('utf-8', { fatal: true })`. -/
def textDecode (bytes : ByteArray) : Option Text :=
  (String.fromUTF8? bytes).map fun text => withoutMark text.toList

def parseArtifactJson (bytes : ByteArray) (requireObject : Bool) :
    Except ArtifactJsonError ArtifactJson :=
  match textDecode bytes with
  | none => .error ⟨"The encoded data was not valid."⟩
  | some source => do
    let result ← parse source
    if requireObject && !result.isObject then
      .error ⟨"a top-level protocol or schema document must be an object"⟩
    else .ok result

/-! ## The canonical text -/

/-- `String(value)` of an integer. -/
def numberText : ℤ → Text
  | .ofNat n => Nat.toDigits 10 n
  | .negSucc n => '-' :: Nat.toDigits 10 (n + 1)

mutual

def canonicalArtifactJsonText : ArtifactJson → Except ArtifactJsonError Text
  | .null => .ok ['n', 'u', 'l', 'l']
  | .boolean true => .ok ['t', 'r', 'u', 'e']
  | .boolean false => .ok ['f', 'a', 'l', 's', 'e']
  | .number value =>
    if -maxSafeInteger ≤ value ∧ value ≤ maxSafeInteger then .ok (numberText value)
    else .error ⟨"Artifact JSON numbers must be signed safe integers"⟩
  | .string units => .ok (stringify units)
  | .array values =>
    (itemTexts values).map fun texts => '[' :: (List.intercalate [','] texts ++ [']'])
  | .object members =>
    -- the sort only looks at the keys
    (memberTexts members).map fun texts =>
      let entries := StableSort.sortBy (fun left right => compareScalarStrings left.1 right.1) texts
      '{' :: (List.intercalate [','] (entries.map fun (key, text) => stringify key ++ ':' :: text) ++ ['}'])

def itemTexts : List ArtifactJson → Except ArtifactJsonError (List Text)
  | [] => .ok []
  | value :: values => do
    let text ← canonicalArtifactJsonText value
    let texts ← itemTexts values
    .ok (text :: texts)

def memberTexts : List (List ℕ × ArtifactJson) → Except ArtifactJsonError (List (List ℕ × Text))
  | [] => .ok []
  | (key, value) :: members => do
    let text ← canonicalArtifactJsonText value
    let texts ← memberTexts members
    .ok ((key, text) :: texts)

end

/-- `new TextEncoder().encode` of the canonical text. -/
def canonicalArtifactJson (value : ArtifactJson) : Except ArtifactJsonError ByteArray :=
  (canonicalArtifactJsonText value).map fun text => (String.ofList text).toUTF8

end AvenOS.ArtifactStore.Client
