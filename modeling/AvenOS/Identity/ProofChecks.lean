import AvenOS.Identity.ProofOfWork

/-! # What the checks of a proof let through

A proof that passes repeats an issued challenge letter by letter and was made in its lifetime; and a solved challenge in its
lifetime passes. Both rest on the text of a challenge: what is split off, decoded and parsed is what was put in. -/
namespace AvenOS.Identity
open Actors Base64url
open Json (Text)

/-! ## Leading zero bits -/

section Bits

theorem masked_zero_iff {byte remaining : ℕ} (hbyte : byte < 256) (hremaining : remaining < 8) :
    byte &&& (255 <<< (8 - remaining)) = 0 ↔ ∀ j < remaining, byte.testBit (7 - j) = false := by
  have hmask : ∀ i, (byte &&& (255 <<< (8 - remaining))).testBit i =
      (byte.testBit i && (decide (8 - remaining ≤ i) && decide (i - (8 - remaining) < 8))) := by
    intro i
    rw [Nat.testBit_and, Nat.testBit_shiftLeft]
    exact congrArg₂ _ rfl (congrArg₂ _ rfl (Nat.testBit_two_pow_sub_one 8 _))
  constructor
  · intro h j hj
    have hbit := hmask (7 - j)
    rw [h, Nat.zero_testBit, decide_eq_true (by omega), decide_eq_true (by omega), Bool.and_true, Bool.and_true] at hbit
    exact hbit.symm
  · intro h
    apply Nat.eq_of_testBit_eq
    intro i
    rw [hmask, Nat.zero_testBit]
    by_cases hi : 8 - remaining ≤ i ∧ i < 8
    · have hbit := h (7 - i) (by omega)
      rw [show 7 - (7 - i) = i by omega] at hbit
      rw [hbit, Bool.false_and]
    · by_cases hlow : 8 - remaining ≤ i
      · have hlarge : byte < 2 ^ i := hbyte.trans_le (Nat.pow_le_pow_right (by omega : 0 < 2) (by omega : 8 ≤ i))
        rw [Nat.testBit_lt_two_pow hlarge, Bool.false_and]
      · rw [decide_eq_false hlow, Bool.false_and, Bool.and_false]

theorem zero_byte_iff (byte : UInt8) : byte = 0 ↔ ∀ j < 8, byte.toNat.testBit (7 - j) = false := by
  constructor
  · rintro rfl j _
    exact Nat.zero_testBit _
  · intro h
    apply UInt8.toNat_inj.mp
    apply Nat.eq_of_testBit_eq
    intro i
    rw [UInt8.toNat_zero, Nat.zero_testBit]
    by_cases hi : i < 8
    · have hbit := h (7 - i) (by omega)
      rwa [show 7 - (7 - i) = i by omega] at hbit
    · have hlarge : byte.toNat < 2 ^ i :=
        byte.toNat_lt.trans_le (Nat.pow_le_pow_right (by omega : 0 < 2) (by omega : 8 ≤ i))
      exact Nat.testBit_lt_two_pow hlarge

theorem bitAt_byte {value : List UInt8} {k j : ℕ} (hk : k < value.length) (hj : j < 8) :
    bitAt 8 (value.map UInt8.toNat) (8 * k + j) = value[k].toNat.testBit (7 - j) := by
  have hdiv : (8 * k + j) / 8 = k := by omega
  have hmod : (8 * k + j) % 8 = j := by omega
  rw [bitAt, hdiv, hmod, List.getD_eq_getElem _ _ (by rwa [List.length_map]), List.getElem_map]

theorem hasLeadingZeroBits_iff {value : List UInt8} {bits : ℕ} (h : bits < 8 * value.length) :
    hasLeadingZeroBits value bits = true ↔ ∀ i < bits, bitAt 8 (value.map UInt8.toNat) i = false := by
  have hbytes : bits / 8 < value.length := by omega
  have hwhole : ((List.range (bits / 8)).all fun index => value[index]? == some 0) = true ↔
      ∀ i < 8 * (bits / 8), bitAt 8 (value.map UInt8.toNat) i = false := by
    rw [List.all_eq_true]
    constructor
    · intro hall i hi
      have hk : i / 8 < bits / 8 := by omega
      have hzero := hall (i / 8) (List.mem_range.mpr hk)
      rw [beq_iff_eq, List.getElem?_eq_getElem (by omega), Option.some.injEq, zero_byte_iff] at hzero
      have hbit := bitAt_byte (hk.trans hbytes) (Nat.mod_lt i (by omega : 0 < 8))
      rw [Nat.div_add_mod] at hbit
      rw [hbit]
      exact hzero (i % 8) (Nat.mod_lt i (by omega))
    · intro hall k hk
      have hk' := List.mem_range.mp hk
      rw [beq_iff_eq, List.getElem?_eq_getElem (hk'.trans hbytes), Option.some.injEq, zero_byte_iff]
      intro j hj
      rw [← bitAt_byte (hk'.trans hbytes) hj]
      exact hall (8 * k + j) (by omega)
  have hrest : (bits % 8 == 0 || (((value[bits / 8]?).map UInt8.toNat).getD 255 &&& (255 <<< (8 - bits % 8))) == 0) = true ↔
      ∀ j < bits % 8, bitAt 8 (value.map UInt8.toNat) (8 * (bits / 8) + j) = false := by
    rw [Bool.or_eq_true, beq_iff_eq, beq_iff_eq, List.getElem?_eq_getElem hbytes, Option.map_some, Option.getD_some,
      masked_zero_iff value[bits / 8].toNat_lt (Nat.mod_lt bits (by omega))]
    have hbit : ∀ j < bits % 8, bitAt 8 (value.map UInt8.toNat) (8 * (bits / 8) + j) =
        value[bits / 8].toNat.testBit (7 - j) := fun j hj => bitAt_byte hbytes (by omega)
    constructor
    · rintro (hzero | hmasked) j hj
      · omega
      · rw [hbit j hj]
        exact hmasked j hj
    · exact fun hall => .inr fun j hj => (hbit j hj).symm.trans (hall j hj)
  rw [hasLeadingZeroBits, Bool.and_eq_true, hwhole, hrest]
  constructor
  · rintro ⟨hlow, hhigh⟩ i hi
    by_cases hside : i < 8 * (bits / 8)
    · exact hlow i hside
    · have hbit := hhigh (i - 8 * (bits / 8)) (by omega)
      rwa [Nat.add_sub_cancel' (by omega)] at hbit
  · exact fun hall => ⟨fun i hi => hall i (by omega), fun j hj => hall _ (by omega)⟩

end Bits

/-! ## The parts of a proof -/

section Parts

theorem isCounter_numeral {text : Text} (h : isCounter text = true) :
    Nat.toDigits 10 (Nat.ofDigitChars 10 text 0) = text := by
  rw [isCounter, Bool.or_eq_true, beq_iff_eq] at h
  rcases h with rfl | h
  · rfl
  · simp only [Bool.and_eq_true, List.all_eq_true] at h
    obtain ⟨⟨hdigits, hhead⟩, -⟩ := h
    cases text with
    | nil => cases hhead
    | cons c rest =>
      have hzero : c ≠ '0' := by simpa using hhead
      exact (Json.toDigits_ofDigitChars (hdigits c List.mem_cons_self) hzero
        fun d hd => hdigits d (List.mem_cons_of_mem _ hd)).2

theorem isCounter_toDigits {counter : ℕ} (h : counter ≤ maxSafeInteger) : isCounter (Nat.toDigits 10 counter) = true := by
  rw [isCounter, Bool.or_eq_true]
  rcases Nat.eq_zero_or_pos counter with rfl | hpos
  · exact .inl rfl
  · right
    obtain ⟨c, rest, hdigits, hzero⟩ := Json.toDigits_head hpos
    have hall : (Nat.toDigits 10 counter).all Char.isDigit = true := List.all_eq_true.mpr (Json.toDigits_isDigit counter)
    have hhead : ((Nat.toDigits 10 counter).head?.any (· != '0')) = true := by
      rw [hdigits]
      simpa using hzero
    have hlength : (Nat.toDigits 10 counter).length ≤ 16 :=
      (Nat.length_toDigits_le_iff (by decide) (by decide)).mpr (h.trans_lt (by decide))
    rw [hall, hhead, decide_eq_true hlength]
    rfl

theorem splitLetters {letters : Text} (rest : Text) (h : ∀ c ∈ letters, isLetter c = true) :
    (letters ++ '.' :: rest).takeWhile isLetter = letters ∧ (letters ++ '.' :: rest).dropWhile isLetter = '.' :: rest := by
  induction letters with
  | nil => exact ⟨rfl, rfl⟩
  | cons c letters ih =>
    obtain ⟨htake, hdrop⟩ := ih fun d hd => h d (List.mem_cons_of_mem c hd)
    have hc := h c List.mem_cons_self
    rw [List.cons_append, List.takeWhile_cons_of_pos hc, List.dropWhile_cons_of_pos hc, htake, hdrop]
    exact ⟨rfl, rfl⟩

theorem split_unique {one other oneRest otherRest : Text} (hone : ∀ c ∈ one, isLetter c = true)
    (hother : ∀ c ∈ other, isLetter c = true) (h : one ++ '.' :: oneRest = other ++ '.' :: otherRest) :
    one = other ∧ oneRest = otherRest := by
  have htake := congrArg (List.takeWhile isLetter) h
  have hdrop := congrArg (List.dropWhile isLetter) h
  rw [(splitLetters oneRest hone).1, (splitLetters otherRest hother).1] at htake
  rw [(splitLetters oneRest hone).2, (splitLetters otherRest hother).2] at hdrop
  exact ⟨htake, (List.cons.inj hdrop).2⟩

variable {payload signed counterText : Text}

theorem matchProof_some {proof : Text} (h : matchProof proof = some (payload, signed, counterText)) :
    proof = idOf payload signed ++ '.' :: counterText ∧ (∀ c ∈ payload, isLetter c = true) ∧
      (∀ c ∈ signed, isLetter c = true) ∧ isCounter counterText = true := by
  unfold matchProof at h
  split at h
  · rename_i rest hrest
    split at h
    · rename_i counter hcounter
      obtain ⟨⟨-, -, hdigits⟩, hparts⟩ := Option.ite_none_right_eq_some.mp h
      cases hparts
      have hproof := List.takeWhile_append_dropWhile (p := isLetter) (l := proof)
      have hsigned := List.takeWhile_append_dropWhile (p := isLetter) (l := rest)
      rw [hrest] at hproof
      rw [hcounter] at hsigned
      refine ⟨?_, fun c hc => List.mem_takeWhile_imp hc, fun c hc => List.mem_takeWhile_imp hc, hdigits⟩
      rw [idOf, List.append_assoc, List.cons_append, hsigned, hproof]
    · cases h
  · cases h

theorem matchProof_of (hpayload : ∀ c ∈ payload, isLetter c = true) (hnonempty : payload ≠ [])
    (hsigned : ∀ c ∈ signed, isLetter c = true) (hlength : signed.length = 43)
    (hcounter : isCounter counterText = true) :
    matchProof (idOf payload signed ++ '.' :: counterText) = some (payload, signed, counterText) := by
  have hproof : idOf payload signed ++ '.' :: counterText = payload ++ '.' :: (signed ++ '.' :: counterText) := by
    rw [idOf, List.append_assoc, List.cons_append]
  obtain ⟨htake, hdrop⟩ := splitLetters (signed ++ '.' :: counterText) hpayload
  obtain ⟨htake', hdrop'⟩ := splitLetters counterText hsigned
  simp only [hproof, matchProof, htake, hdrop, htake', hdrop']
  rw [if_pos ⟨hnonempty, hlength, hcounter⟩]

end Parts

/-! ## Laws of the platform -/

/-- Hashes of full length, a hash that does not collide, and decoders that undo what the platform encodes. -/
structure Crypto.Lawful (crypto : Crypto) : Prop where
  hmac_length : ∀ key text, (crypto.hmac key text).length = 32
  sha256_length : ∀ text, (crypto.sha256 text).length = 32
  sha256Hex_injective : Function.Injective crypto.sha256Hex
  utf8_bytes : ∀ text, crypto.utf8 (utf8Bytes text) = text
  parse_stringify : ∀ fields, (∀ n, Field.integer n ∈ fields → n ≤ maxSafeInteger) →
    crypto.parse (stringifyFields fields) = some (.arr (fields.map Field.value))

section Fields
variable {crypto : Crypto} {secret : ProofSecret}

/-- A challenge that `issue` returns at some moment. -/
def Issued (crypto : Crypto) (secret : ProofSecret) (c : Challenge) : Prop :=
  ∃ service now random, now ≤ maxTime ∧ random.length = 32 ∧ c = issue crypto secret service now random

def Challenge.Solved (crypto : Crypto) (c : Challenge) (counter : ℕ) : Prop :=
  counter ≤ maxSafeInteger ∧
    ∀ i < c.difficultyBits, bitAt 8 ((digest crypto c.id c.nonce counter).map UInt8.toNat) i = false

theorem safeInteger_integer {n : ℕ} (h : n ≤ maxSafeInteger) : safeInteger (Field.integer n).value = some (n : ℤ) := by
  have hnum : ((n : ℚ)).num.natAbs ≤ maxSafeInteger := by rwa [Rat.num_natCast, Int.natAbs_natCast]
  rw [Field.value, safeInteger, if_pos ⟨Rat.den_natCast n, hnum⟩, Rat.num_natCast]

theorem stringField_text (text : Text) : stringField (Field.text text).value = some text := by
  rw [Field.value, stringField, String.toList_ofList]

structure Issued.Bounds (c : Challenge) : Prop where
  generation : c.generation ≤ maxSafeInteger
  difficulty : 8 ≤ c.difficultyBits ∧ c.difficultyBits ≤ 28
  issuedAt : c.issuedAt ≤ maxSafeInteger
  expiresAt : c.expiresAt ≤ maxSafeInteger
  day : c.generation = c.issuedAt / generationMs
  lifetime : c.issuedAt < c.expiresAt ∧ c.expiresAt ≤ c.issuedAt + maxProofTtlSeconds * 1000
  nonce : (∀ letter ∈ c.nonce, isLetter letter = true) ∧ c.nonce.length = 43
  payload : c.payload =
    encode (utf8Bytes (stringifyFields (challengeFields c.generation c.difficultyBits c.issuedAt c.expiresAt c.nonce)))

variable {c : Challenge}

theorem Issued.bounds (h : Issued crypto secret c) : Issued.Bounds c := by
  obtain ⟨service, now, random, hnow, hrandom, rfl⟩ := h
  have hgeneration : now / generationMs ≤ now := Nat.div_le_self _ _
  have httl := service.ttl_admitted
  simp only [maxTime, maxProofTtlSeconds] at hnow httl
  refine ⟨?_, service.difficulty_admitted, ?_, ?_, rfl, ?_, ?_, rfl⟩
  · simp only [issue, maxSafeInteger]
    omega
  · simp only [issue, maxSafeInteger]
    omega
  · simp only [issue, maxSafeInteger]
    omega
  · simp only [issue, maxProofTtlSeconds]
    omega
  · simp only [issue]
    exact ⟨fun letter hletter => encode_letters hletter, by rw [encode_length, hrandom]⟩

theorem Issued.id_eq (h : Issued crypto secret c) :
    c.id = idOf c.payload (encode (signature crypto secret c.payload c.generation)) := by
  obtain ⟨service, now, random, -, -, rfl⟩ := h
  rfl

theorem Issued.payload_letters (h : Issued crypto secret c) : ∀ letter ∈ c.payload, isLetter letter = true := by
  rw [h.bounds.payload]
  exact fun letter hletter => encode_letters hletter

theorem Issued.parsed (hlaws : crypto.Lawful) (h : Issued crypto secret c) :
    crypto.parse (crypto.utf8 (decode c.payload)) = some (.arr ((challengeFields c.generation c.difficultyBits c.issuedAt
      c.expiresAt c.nonce).map Field.value)) := by
  obtain ⟨hgeneration, hdifficulty, hissuedAt, hexpiresAt, -, -, -, hpayload⟩ := h.bounds
  rw [hpayload, decode_encode, hlaws.utf8_bytes, hlaws.parse_stringify]
  intro n hn
  simp only [challengeFields, List.mem_cons, Field.integer.injEq, reduceCtorEq, List.not_mem_nil, or_false, false_or] at hn
  rcases hn with rfl | rfl | rfl | rfl | rfl
  · decide
  · exact hgeneration
  · exact hdifficulty.2.trans (by decide)
  · exact hissuedAt
  · exact hexpiresAt

theorem Issued.expiry_unique {one other : Challenge} (hlaws : crypto.Lawful) (hone : Issued crypto secret one)
    (hother : Issued crypto secret other) (h : one.id = other.id) : one.expiresAt = other.expiresAt := by
  rw [hone.id_eq, hother.id_eq] at h
  obtain ⟨hpayload, -⟩ := split_unique hone.payload_letters hother.payload_letters h
  have hparsed := hone.parsed hlaws
  rw [hpayload, hother.parsed hlaws] at hparsed
  have hfields := JsValue.arr.inj (Option.some.inj hparsed)
  simp only [challengeFields, List.map_cons, List.map_nil, List.cons.injEq] at hfields
  have hexpiry : Field.value (.integer other.expiresAt) = Field.value (.integer one.expiresAt) := hfields.2.2.2.2.2.1
  have hsafe := safeInteger_integer hother.bounds.expiresAt
  rw [hexpiry, safeInteger_integer hone.bounds.expiresAt] at hsafe
  exact Int.ofNat.inj (Option.some.inj hsafe)

end Fields

/-! ## A proof that passes -/

section Passed
variable {crypto : Crypto} {secret : ProofSecret} {service : ProofService} {now : ℕ}

theorem rejectIf_ok {bad : Bool} {u : Unit} : rejectIf bad = .ok u ↔ bad = false := by
  cases bad
  · exact ⟨fun _ => rfl, fun _ => rfl⟩
  · constructor <;> (intro h; cases h)

theorem elim_ok {α : Type} {found : Option α} {a : α} :
    found.elim (.error ProofError.invalid) Except.ok = .ok a ↔ found = some a := by
  cases found with
  | none => constructor <;> (intro h; cases h)
  | some b => rw [Option.elim_some, Except.ok.injEq, Option.some.injEq]

structure Passed (crypto : Crypto) (secret : ProofSecret) (service : ProofService) (payload signed counterText : Text)
    (now : ℕ) (g i e : ℤ) (n : Text) : Prop where
  generation : g = (now / generationMs : ℕ) ∨ g = (now / generationMs : ℕ) - 1
  canonical : encode (decode signed) = signed
  signature : decode signed = signature crypto secret payload g
  day : i / generationMs = g
  lifetime : i ≤ now ∧ (now : ℤ) < e ∧ i < e ∧ e - i ≤ maxProofTtlSeconds * 1000
  nonce : n.all isLetter = true ∧ n.length = 43
  counter : Nat.ofDigitChars 10 counterText 0 ≤ maxSafeInteger
  solved : hasLeadingZeroBits (digest crypto (idOf payload signed) n (Nat.ofDigitChars 10 counterText 0))
    service.difficulty = true

theorem checkFields_ok {proof payload signed counterText : Text}
    {version generation purpose difficulty issuedAt expiresAt nonce : JsValue} {ticket : Ticket} :
    checkFields crypto secret service proof payload signed counterText now
      version generation purpose difficulty issuedAt expiresAt nonce = .ok ticket ↔
    ∃ g i e n, safeInteger version = some 1 ∧ safeInteger generation = some g ∧
      stringField purpose = some "sign-in".toList ∧ safeInteger difficulty = some (service.difficulty : ℤ) ∧
      safeInteger issuedAt = some i ∧ safeInteger expiresAt = some e ∧ stringField nonce = some n ∧
      Passed crypto secret service payload signed counterText now g i e n ∧
      ticket = ⟨proof, idOf payload signed, n, Nat.ofDigitChars 10 counterText 0, e, now⟩ := by
  simp only [checkFields, ExceptLoop.bind_ok_iff, rejectIf_ok, integerOrInvalid, textOrInvalid, elim_ok, pure, Except.pure,
    Except.ok.injEq]
  constructor
  · rintro ⟨_, hversion, g, hg, _, hgeneration, _, hsigned, _, hexpired, _, hpurpose, _, hdifficulty, i, hi, e, he, _, htimes,
      n, hn, _, hnonce, _, hsolved, rfl⟩
    simp only [bne_eq_false_iff_eq, Bool.or_eq_false_iff, Bool.and_eq_false_iff, decide_eq_false_iff_not,
      Int.not_lt, Int.not_le, Nat.not_lt, Bool.not_eq_false'] at *
    exact ⟨g, i, e, n, hversion, hg, hpurpose, hdifficulty, hi, he, hn,
      ⟨hgeneration, hsigned.1.1, hsigned.2, htimes.1.1.1.1, ⟨htimes.1.1.1.2, htimes.1.1.2, htimes.1.2, htimes.2⟩,
        hnonce, hsolved.1, hsolved.2⟩, rfl⟩
  · rintro ⟨g, i, e, n, hversion, hg, hpurpose, hdifficulty, hi, he, hn, hpassed, rfl⟩
    obtain ⟨hgeneration, hcanonical, hsigned, hday, ⟨hissued, hnow, hlife, httl⟩, hnonce, hcounter, hsolved⟩ := hpassed
    refine ⟨(), ?_, g, hg, (), ?_, (), ?_, (), ?_, (), ?_, (), ?_, i, hi, e, he, (), ?_, n, hn, (), ?_, (), ?_, rfl⟩
    all_goals try simp only [bne_eq_false_iff_eq, Bool.or_eq_false_iff, Bool.and_eq_false_iff, decide_eq_false_iff_not,
        Int.not_lt, Int.not_le, Nat.not_lt, Bool.not_eq_false']
    · exact hversion
    · exact hgeneration
    · exact ⟨⟨hcanonical, congrArg List.length hsigned⟩, hsigned⟩
    · rw [he, Option.any_some, decide_eq_false_iff_not, Int.not_le]
      exact hnow
    · exact hpurpose
    · exact hdifficulty
    · exact ⟨⟨⟨⟨hday, hissued⟩, hnow⟩, hlife⟩, httl⟩
    · exact hnonce
    · exact ⟨hcounter, hsolved⟩

end Passed

/-! ## Soundness and completeness -/

/-- Without the root no signature is made but those of issued challenges. -/
def unforged (crypto : Crypto) (secret : ProofSecret) (issued : List Challenge) (proof : Option Text) (now : ℕ) : Bool :=
  match proof.bind matchProof with
  | none => true
  | some (payload, signed, _) =>
    [((now / generationMs : ℕ) : ℤ), ((now / generationMs : ℕ) : ℤ) - 1].all fun generation =>
      decode signed != signature crypto secret payload generation ||
        issued.any fun c => c.payload == payload && (c.generation : ℤ) == generation

structure Ticket.Redeems (crypto : Crypto) (ticket : Ticket) (c : Challenge) : Prop where
  proof : ticket.proof = c.id ++ '.' :: Nat.toDigits 10 ticket.counter
  id : ticket.id = c.id
  expiresAt : ticket.expiresAt = c.expiresAt
  lifetime : c.issuedAt ≤ ticket.now ∧ ticket.now < c.expiresAt
  solved : c.Solved crypto ticket.counter

section Sound
variable {crypto : Crypto} {secret : ProofSecret} {service : ProofService} {now : ℕ}

variable {proof : Option Text} {ticket : Ticket}

theorem check_ok (h : check crypto secret service proof now = .ok ticket) :
    ∃ text payload signed counterText version generation purpose difficulty issuedAt expiresAt nonce,
      proof = some text ∧ matchProof text = some (payload, signed, counterText) ∧
      crypto.parse (crypto.utf8 (decode payload)) =
        some (.arr [version, generation, purpose, difficulty, issuedAt, expiresAt, nonce]) ∧
      checkFields crypto secret service text payload signed counterText now
        version generation purpose difficulty issuedAt expiresAt nonce = .ok ticket := by
  cases proof with
  | none => cases h
  | some text =>
    rw [check] at h
    split_ifs at h
    cases hmatch : matchProof text with
    | none =>
      rw [hmatch] at h
      cases h
    | some parts =>
      obtain ⟨payload, signed, counterText⟩ := parts
      simp only [hmatch] at h
      split at h
      · rename_i hparse
        exact ⟨text, payload, signed, counterText, _, _, _, _, _, _, _, rfl, hmatch, hparse, h⟩
      · cases h

theorem check_sound (hlaws : crypto.Lawful) {issued : List Challenge} (hissued : ∀ c ∈ issued, Issued crypto secret c)
    (hunforged : unforged crypto secret issued proof now = true)
    (h : check crypto secret service proof now = .ok ticket) :
    ticket.now = now ∧ ∃ c ∈ issued, ticket.Redeems crypto c := by
  obtain ⟨text, payload, signed, counterText, _, _, _, _, _, _, _, rfl, hmatch, hparse, hfields⟩ := check_ok h
  obtain ⟨g, i, e, n, -, hg, -, hd, hi, he, hn, hpassed, rfl⟩ := checkFields_ok.1 hfields
  obtain ⟨hproof, -, -, hcounter⟩ := matchProof_some hmatch
  obtain ⟨hgeneration, hcanonical, hsigned, -, hlifetime, -, hsafe, hsolved⟩ := hpassed
  rw [unforged, Option.bind_some, hmatch, List.all_eq_true] at hunforged
  have hgenuine := hunforged g (by
    rw [List.mem_cons, List.mem_singleton]
    exact hgeneration)
  rw [Bool.or_eq_true, bne_iff_ne, List.any_eq_true] at hgenuine
  rcases hgenuine with hforged | ⟨c, hc, hsame⟩
  · exact absurd hsigned hforged
  · rw [Bool.and_eq_true, beq_iff_eq, beq_iff_eq] at hsame
    obtain ⟨rfl, rfl⟩ := hsame
    have hid : idOf c.payload signed = c.id := by
      rw [(hissued c hc).id_eq, ← hsigned, hcanonical]
    have hbounds := (hissued c hc).bounds
    rw [(hissued c hc).parsed hlaws, Option.some.injEq, JsValue.arr.injEq] at hparse
    simp only [challengeFields, List.map_cons, List.map_nil, List.cons.injEq, and_true] at hparse
    obtain ⟨-, -, -, hd', hi', he', hn'⟩ := hparse
    rw [← hd', safeInteger_integer (hbounds.difficulty.2.trans (by decide)), Option.some.injEq] at hd
    rw [← hi', safeInteger_integer hbounds.issuedAt, Option.some.injEq] at hi
    rw [← he', safeInteger_integer hbounds.expiresAt, Option.some.injEq] at he
    rw [← hn', stringField_text, Option.some.injEq] at hn
    subst hi he hn
    rw [hid] at hsolved hproof
    have hdifficulty : service.difficulty = c.difficultyBits := (Int.ofNat.inj hd).symm
    have hstart : c.issuedAt ≤ now := Int.ofNat_le.mp hlifetime.1
    have hend : now < c.expiresAt := Int.ofNat_lt.mp hlifetime.2.1
    refine ⟨rfl, c, hc, ?_, hid, rfl, ⟨hstart, hend⟩, hsafe, ?_⟩
    · change text = c.id ++ '.' :: Nat.toDigits 10 (Nat.ofDigitChars 10 counterText 0)
      rw [isCounter_numeral hcounter, hproof]
    · rw [hdifficulty, hasLeadingZeroBits_iff] at hsolved
      · exact hsolved
      · rw [digest, hlaws.sha256_length]
        exact hbounds.difficulty.2.trans_lt (by decide)

end Sound

section Complete
variable {crypto : Crypto} {secret : ProofSecret} {service : ProofService} {now : ℕ}

theorem letter_plain {letter : Char} (h : isLetter letter = true) : ¬ letter.toNat < 0x20 ∧ ¬ (letter = '"' ∨ letter = '\\') := by
  have hall : alphabet.all (fun c => decide (¬ c.toNat < 0x20 ∧ ¬ (c = '"' ∨ c = '\\'))) = true := by decide
  exact of_decide_eq_true (List.all_eq_true.mp hall letter (List.contains_iff_mem.mp h))

theorem quote_letters {text : Text} (h : ∀ letter ∈ text, isLetter letter = true) : (Json.quote text).length = text.length + 2 := by
  have hpieces : Json.piecesText (Json.quotedPieces text) = text := by
    induction text with
    | nil => rfl
    | cons letter text ih =>
      obtain ⟨hlow, hmark⟩ := letter_plain (h letter List.mem_cons_self)
      rw [Json.quotedPieces, List.map_cons, Json.piecesText, List.flatMap_cons, Json.quotedPiece_plain hlow hmark]
      exact congrArg (letter :: ·) (ih fun c hc => h c (List.mem_cons_of_mem _ hc))
  rw [Json.quote, hpieces, List.length_cons, List.length_append, List.length_singleton]

theorem numeral_length {n : ℕ} (h : n ≤ maxSafeInteger) : (Nat.toDigits 10 n).length ≤ 16 :=
  (Nat.length_toDigits_le_iff (by decide) (by decide)).mpr (h.trans_lt (by decide))

theorem utf8Bytes_length (text : Text) : text.length ≤ (utf8Bytes text).length ∧ (utf8Bytes text).length ≤ 4 * text.length := by
  induction text with
  | nil => exact ⟨Nat.le_refl _, Nat.le_refl _⟩
  | cons c text ih =>
    have hsize := String.length_utf8EncodeChar c
    have hpos := c.utf8Size_pos
    have hfour := c.utf8Size_le_four
    have hstep : (utf8Bytes (c :: text)).length = (String.utf8EncodeChar c).length + (utf8Bytes text).length := by
      rw [utf8Bytes, List.flatMap_cons, List.length_append]
      rfl
    rw [hstep, List.length_cons]
    omega

theorem Issued.payload_length {c : Challenge} (h : Issued crypto secret c) : 0 < c.payload.length ∧ c.payload.length ≤ 800 := by
  obtain ⟨hgeneration, hdifficulty, hissuedAt, hexpiresAt, -, -, ⟨hletters, hnonce⟩, hpayload⟩ := h.bounds
  have hquote := quote_letters hletters
  have hpurpose : (Json.quote "sign-in".toList).length = 9 := by decide +kernel
  have hone := numeral_length (n := 1) (by decide)
  have hg := numeral_length hgeneration
  have hd := numeral_length (hdifficulty.2.trans (by decide))
  have hi := numeral_length hissuedAt
  have he := numeral_length hexpiresAt
  have htext : (stringifyFields (challengeFields c.generation c.difficultyBits c.issuedAt c.expiresAt c.nonce)).length ≤ 142 ∧
      0 < (stringifyFields (challengeFields c.generation c.difficultyBits c.issuedAt c.expiresAt c.nonce)).length := by
    simp only [stringifyFields, challengeFields, List.map_cons, List.map_nil, Field.tree, Json.Tree.text, Json.Tree.textEach,
      Json.commas_cons, List.flatMap_cons, List.flatMap_nil, List.append_nil, List.length_cons, List.length_append,
      List.length_nil, String.toList_ofList, hquote, hpurpose, hnonce]
    omega
  have hbytes := utf8Bytes_length (stringifyFields (challengeFields c.generation c.difficultyBits c.issuedAt c.expiresAt c.nonce))
  rw [hpayload, encode_length]
  omega

theorem check_complete (hlaws : crypto.Lawful) {c : Challenge} (hc : Issued crypto secret c)
    (hdifficulty : service.difficulty = c.difficultyBits) (hstart : c.issuedAt ≤ now) (hend : now < c.expiresAt) {counter : ℕ}
    (hsolved : c.Solved crypto counter) :
    check crypto secret service (some (c.id ++ '.' :: Nat.toDigits 10 counter)) now =
      .ok ⟨c.id ++ '.' :: Nat.toDigits 10 counter, c.id, c.nonce, counter, c.expiresAt, now⟩ := by
  obtain ⟨hcounter, hbits⟩ := hsolved
  have hbounds := hc.bounds
  have hlength := hc.payload_length
  have hdigits := numeral_length hcounter
  have hnonempty : c.payload ≠ [] := List.ne_nil_of_length_pos hlength.1
  let signed := encode (signature crypto secret c.payload c.generation)
  have hid : c.id = idOf c.payload signed := hc.id_eq
  have hsigned : signed.length = 43 := by
    rw [encode_length, signature, hlaws.hmac_length]
  have hvalue : Nat.ofDigitChars 10 (Nat.toDigits 10 counter) 0 = counter := Nat.ofDigitChars_ten_toDigits
  have hmatch := matchProof_of hc.payload_letters hnonempty (fun letter hletter => encode_letters hletter) hsigned
    (isCounter_toDigits hcounter)
  have htext : (c.id ++ '.' :: Nat.toDigits 10 counter).length ≤ 1024 := by
    rw [hid, idOf, List.length_append, List.length_append, List.length_cons, List.length_cons, hsigned]
    omega
  have hproof : c.id ++ '.' :: Nat.toDigits 10 counter ≠ [] := by
    intro h
    cases (List.append_eq_nil_iff.mp h).2
  have hpassed : Passed crypto secret service c.payload signed (Nat.toDigits 10 counter) now c.generation c.issuedAt
      c.expiresAt c.nonce := by
    obtain ⟨-, -, -, -, hday, hlifetime, ⟨hletters, hnonce⟩, -⟩ := hbounds
    refine ⟨?_, ?_, decode_encode _, ?_, ?_, ⟨List.all_eq_true.mpr hletters, hnonce⟩, ?_, ?_⟩
    · simp only [generationMs, maxProofTtlSeconds] at hday hlifetime ⊢
      omega
    · rw [decode_encode]
    · rw [hday]
      rfl
    · simp only [maxProofTtlSeconds] at hlifetime ⊢
      omega
    · rwa [hvalue]
    · rw [hvalue, ← hid, hdifficulty, hasLeadingZeroBits_iff]
      · exact hbits
      · rw [digest, hlaws.sha256_length]
        exact hc.bounds.difficulty.2.trans_lt (by decide)
  rw [check, if_neg hproof, if_neg (by omega)]
  rw [hid, hmatch]
  simp only [hc.parsed hlaws, challengeFields, List.map_cons, List.map_nil]
  apply checkFields_ok.2
  refine ⟨c.generation, c.issuedAt, c.expiresAt, c.nonce, ?_, ?_, ?_, ?_, ?_, ?_, ?_, hpassed, ?_⟩
  · exact safeInteger_integer (by decide)
  · exact safeInteger_integer hbounds.generation
  · exact stringField_text _
  · rw [hdifficulty]
    exact safeInteger_integer (hbounds.difficulty.2.trans (by decide))
  · exact safeInteger_integer hbounds.issuedAt
  · exact safeInteger_integer hbounds.expiresAt
  · exact stringField_text _
  · rw [hvalue]

end Complete

end AvenOS.Identity
