import AvenOS.Actors.Portable
import AvenOS.Foundations.Base64url
import AvenOS.Foundations.CompactJson
import AvenOS.Foundations.DecimalText
import AvenOS.Foundations.ExceptLoop
import AvenOS.Foundations.LabelledRun

/-! # Stateless proofs of work

A challenge is a signed text that the server does not keep. A proof repeats it with a counter; it is checked against the
clock of its request and redeemed with an insert, and what has expired is removed from the redemptions. -/
namespace AvenOS.Identity
open Actors Base64url
open Json (Text)

/-! ## The service -/

def generationMs : ℕ := 86400000
def maxProofTtlSeconds : ℕ := 3600
def redemptionCleanupBatch : ℕ := 1000
def maxSafeInteger : ℕ := 9007199254740991

/-- The largest time value. -/
def maxTime : ℕ := 8640000000000000

/-- What the platform computes. -/
structure Crypto where
  hmac : List UInt8 → Text → List UInt8
  sha256 : Text → List UInt8
  /-- `sha256` in hexadecimal digits. -/
  sha256Hex : Text → Text
  /-- `Buffer.toString('utf8')`. -/
  utf8 : List UInt8 → Text
  /-- `JSON.parse`; `none` where it throws. -/
  parse : Text → Option JsValue

/-- A signing root that the constructor takes. -/
abbrev ProofSecret := { secret : Text // 32 ≤ secret.length }

/-- What a process has configured. -/
structure ProofService where
  difficulty : ℕ
  ttlSeconds : ℕ
  difficulty_admitted : 8 ≤ difficulty ∧ difficulty ≤ 28
  ttl_admitted : 1 ≤ ttlSeconds ∧ ttlSeconds ≤ maxProofTtlSeconds
deriving DecidableEq, Repr

/-- What `issue` returns, and what went into it. -/
structure Challenge where
  id : Text
  nonce : Text
  difficultyBits : ℕ
  expiresAt : ℕ
  payload : Text
  generation : ℕ
  issuedAt : ℕ
deriving DecidableEq, Repr

/-- A proof that has passed all checks and waits for its insert. -/
structure Ticket where
  proof : Text
  id : Text
  nonce : Text
  counter : ℕ
  expiresAt : ℤ
  /-- The clock of its request. -/
  now : ℕ
deriving DecidableEq, Repr

inductive ProofError
  | required
  | invalid
deriving DecidableEq, Repr

def utf8Bytes (text : Text) : List UInt8 := text.flatMap String.utf8EncodeChar

/-! ## JSON of plain fields -/

inductive Field
  | integer (value : ℕ)
  | text (value : Text)
deriving DecidableEq, Repr

def Field.tree : Field → Json.Tree
  | .integer value => .number (Nat.toDigits 10 value)
  | .text value => .string (String.ofList value)

def Field.value : Field → JsValue
  | .integer value => .num value
  | .text value => .str (String.ofList value)

def stringifyFields (fields : List Field) : Text := (Json.Tree.array (fields.map Field.tree)).text

/-! ## Issue -/

section Checks
variable (crypto : Crypto) (secret : ProofSecret)

def signature (payload : Text) (generation : ℤ) : List UInt8 :=
  crypto.hmac
    (crypto.hmac (utf8Bytes secret.val) ("aven.identity.proof-of-work.v1:".toList ++ (toString generation).toList)) payload

def challengeFields (generation difficulty issuedAt expiresAt : ℕ) (nonce : Text) : List Field :=
  [.integer 1, .integer generation, .text "sign-in".toList, .integer difficulty, .integer issuedAt, .integer expiresAt,
    .text nonce]

def idOf (payload signature : Text) : Text := payload ++ '.' :: signature

/-- A challenge of this moment; `random` is what `randomBytes(32)` gave. -/
def issue (service : ProofService) (now : ℕ) (random : List UInt8) : Challenge :=
  let nonce := encode random
  let expiresAt := now + service.ttlSeconds * 1000
  let generation := now / generationMs
  let payload :=
    encode (utf8Bytes (stringifyFields (challengeFields generation service.difficulty now expiresAt nonce)))
  { id := idOf payload (encode (signature crypto secret payload generation))
    nonce := nonce
    difficultyBits := service.difficulty
    expiresAt := expiresAt
    payload := payload
    generation := generation
    issuedAt := now }

/-! ## Checks -/

def hasLeadingZeroBits (value : List UInt8) (bits : ℕ) : Bool :=
  let bytes := bits / 8
  let remaining := bits % 8
  ((List.range bytes).all fun index => value[index]? == some 0) &&
    (remaining == 0 || (((value[bytes]?).map UInt8.toNat).getD 255 &&& (255 <<< (8 - remaining))) == 0)

def digest (id nonce : Text) (counter : ℕ) : List UInt8 :=
  crypto.sha256 (id ++ ':' :: nonce ++ ":sign-in:".toList ++ Nat.toDigits 10 counter)

/-- `0|[1-9][0-9]{0,15}`. -/
def isCounter (text : Text) : Bool :=
  text == ['0'] || (text.all Char.isDigit && text.head?.any (· != '0') && text.length ≤ 16)

/-- `^([A-Za-z0-9_-]+)\.([A-Za-z0-9_-]{43})\.(0|[1-9][0-9]{0,15})$`: no letter of a part is a dot. -/
def matchProof (proof : Text) : Option (Text × Text × Text) :=
  match proof.dropWhile isLetter with
  | '.' :: rest =>
    match rest.dropWhile isLetter with
    | '.' :: counter =>
      if proof.takeWhile isLetter ≠ [] ∧ (rest.takeWhile isLetter).length = 43 ∧ isCounter counter = true then
        some (proof.takeWhile isLetter, rest.takeWhile isLetter, counter)
      else none
    | _ => none
  | _ => none

/-- `Number.isSafeInteger`. -/
def safeInteger : JsValue → Option ℤ
  | .num value => if value.den = 1 ∧ value.num.natAbs ≤ maxSafeInteger then some value.num else none
  | _ => none

def stringField : JsValue → Option Text
  | .str text => some text.toList
  | _ => none

def integerOrInvalid (value : JsValue) : Except ProofError ℤ := (safeInteger value).elim (.error .invalid) .ok

def textOrInvalid (value : JsValue) : Except ProofError Text := (stringField value).elim (.error .invalid) .ok

def rejectIf (bad : Bool) : Except ProofError Unit := if bad then .error .invalid else .ok ()

/-- The checks of the decoded fields, in the order of the source. A counter of 16 digits that is no safe integer is none
after it has been rounded either. -/
def checkFields (service : ProofService) (proof payload signed counterText : Text) (now : ℕ)
    (version generation purpose difficulty issuedAt expiresAt nonce : JsValue) : Except ProofError Ticket := do
  let currentGeneration : ℤ := (now / generationMs : ℕ)
  rejectIf (safeInteger version != some 1)
  let generation ← integerOrInvalid generation
  rejectIf (generation != currentGeneration && generation != currentGeneration - 1)
  let expected := signature crypto secret payload generation
  let supplied := decode signed
  rejectIf (encode supplied != signed || supplied.length != expected.length || supplied != expected)
  rejectIf ((safeInteger expiresAt).any fun expiresAt => expiresAt ≤ (now : ℤ))
  rejectIf (stringField purpose != some "sign-in".toList)
  rejectIf (safeInteger difficulty != some (service.difficulty : ℤ))
  let issuedAt ← integerOrInvalid issuedAt
  let expiresAt ← integerOrInvalid expiresAt
  rejectIf (issuedAt / generationMs != generation || (now : ℤ) < issuedAt || expiresAt ≤ now || expiresAt ≤ issuedAt ||
    maxProofTtlSeconds * 1000 < expiresAt - issuedAt)
  let nonce ← textOrInvalid nonce
  rejectIf (!nonce.all isLetter || nonce.length != 43)
  let counter := Nat.ofDigitChars 10 counterText 0
  let id := idOf payload signed
  rejectIf (maxSafeInteger < counter || !hasLeadingZeroBits (digest crypto id nonce counter) service.difficulty)
  return { proof := proof, id := id, nonce := nonce, counter := counter, expiresAt := expiresAt, now := now }

/-- All that `consume` does before its insert. -/
def check (service : ProofService) (proof : Option Text) (now : ℕ) : Except ProofError Ticket :=
  match proof with
  | none => .error .required
  | some proof =>
    if proof = [] then .error .required
    else if 1024 < proof.length then .error .invalid
    else
      match matchProof proof with
      | none => .error .invalid
      | some (payload, signed, counterText) =>
        match crypto.parse (crypto.utf8 (decode payload)) with
        | some (.arr [version, generation, purpose, difficulty, issuedAt, expiresAt, nonce]) =>
          checkFields crypto secret service proof payload signed counterText now
            version generation purpose difficulty issuedAt expiresAt nonce
        | _ => .error .invalid

end Checks

/-! ## Processes over one table -/

structure Redemption where
  id : Text
  expiresAt : ℤ
deriving DecidableEq, Repr

structure Proofs where
  /-- The last clock that any process has read. -/
  clock : ℕ
  issued : List Challenge
  rows : List Redemption
  tickets : List Ticket
  accepted : List Ticket
deriving DecidableEq, Repr

inductive ProofAction
  | issue (service : ProofService) (now : ℕ) (random : List UInt8)
  /-- A request reads its clock and checks its proof. -/
  | verify (service : ProofService) (proof : Option Text) (now : ℕ)
  | insert (index : ℕ)
  /-- The insert fails or its process stops. -/
  | fail (index : ℕ)
  /-- The rows among the expired ones that were not locked. -/
  | cleanup (now : ℕ) (ids : List Text)
deriving DecidableEq, Repr

section Steps
variable (crypto : Crypto) (secret : ProofSecret)

/-- `INSERT … ON CONFLICT DO NOTHING RETURNING id`: without a row that came back the proof is a replay. -/
def Proofs.redeem (w : Proofs) (ticket : Ticket) (tickets : List Ticket) : Proofs :=
  if w.rows.any fun row => row.id == crypto.sha256Hex ticket.id then { w with tickets := tickets }
  else
    { w with
      rows := w.rows ++ [⟨crypto.sha256Hex ticket.id, ticket.expiresAt⟩]
      tickets := tickets
      accepted := w.accepted ++ [ticket] }

def Proofs.step (w : Proofs) : ProofAction → Option Proofs
  | .issue service now random =>
    if w.clock ≤ now ∧ now ≤ maxTime ∧ random.length = 32 then
      some { w with clock := now, issued := w.issued ++ [issue crypto secret service now random] }
    else none
  | .verify service proof now =>
    if w.clock ≤ now ∧ now ≤ maxTime then
      some { w with clock := now, tickets := w.tickets ++ (check crypto secret service proof now).toOption.toList }
    else none
  | .insert index => (w.tickets[index]?).map fun ticket => w.redeem crypto ticket (w.tickets.eraseIdx index)
  | .fail index => some { w with tickets := w.tickets.eraseIdx index }
  | .cleanup now ids =>
    if w.clock ≤ now ∧ now ≤ maxTime ∧ ids.length ≤ redemptionCleanupBatch then
      some { w with clock := now, rows := w.rows.filter fun row => !(row.expiresAt ≤ now && ids.contains row.id) }
    else none

end Steps

def Proofs.start : Proofs := ⟨0, [], [], [], []⟩

end AvenOS.Identity
