import AvenOS.Identity.ProofChecks
import Mathlib.Data.List.Nodup

/-! # Challenges redeemed once

An accepted proof has its row until the challenge has expired, and from then on no new proof for it passes. What may still
come is a proof that passed before: a second redemption takes one that waits for its insert while the row is removed. -/
namespace AvenOS.Identity
open Actors Base64url LabelledRun
open Json (Text)

section Runs
variable {crypto : Crypto} {secret : ProofSecret} {w w' : Proofs}

/-! ## What may happen -/

variable (crypto secret) in
/-- No proof comes in with a forged signature. -/
def Proofs.unforged (w : Proofs) : ProofAction → Bool
  | .verify _ proof now => Identity.unforged crypto secret w.issued proof now
  | _ => true

variable (crypto) in
/-- No redemption is removed while a proof with its id waits for its insert. -/
def Proofs.spared (w : Proofs) : ProofAction → Bool
  | .cleanup now ids =>
    w.tickets.all fun ticket => w.rows.all fun row =>
      !(row.id == crypto.sha256Hex ticket.id && (row.expiresAt ≤ now && ids.contains row.id))
  | _ => true

theorem redeem_cases (ticket : Ticket) (tickets : List Ticket) :
    (∃ row ∈ w.rows, row.id = crypto.sha256Hex ticket.id) ∧ w.redeem crypto ticket tickets = { w with tickets := tickets } ∨
      (∀ row ∈ w.rows, row.id ≠ crypto.sha256Hex ticket.id) ∧ w.redeem crypto ticket tickets =
        { w with
          rows := w.rows ++ [⟨crypto.sha256Hex ticket.id, ticket.expiresAt⟩]
          tickets := tickets
          accepted := w.accepted ++ [ticket] } := by
  rw [Proofs.redeem]
  by_cases hrow : (w.rows.any fun row => row.id == crypto.sha256Hex ticket.id) = true
  · rw [if_pos hrow]
    obtain ⟨row, hmem, hid⟩ := List.any_eq_true.mp hrow
    exact .inl ⟨⟨row, hmem, beq_iff_eq.mp hid⟩, rfl⟩
  · rw [if_neg hrow]
    refine .inr ⟨fun row hmem hid => hrow (List.any_eq_true.mpr ⟨row, hmem, beq_iff_eq.mpr hid⟩), rfl⟩

/-! ## What every run keeps -/

/-- All that is waiting or accepted is for issued challenges, and rows are of what was accepted. -/
structure Proofs.Genuine (crypto : Crypto) (secret : ProofSecret) (w : Proofs) : Prop where
  issued : ∀ c ∈ w.issued, Issued crypto secret c ∧ c.issuedAt ≤ w.clock
  tickets : ∀ ticket ∈ w.tickets, ∃ c ∈ w.issued, ticket.Redeems crypto c
  accepted : ∀ ticket ∈ w.accepted, ∃ c ∈ w.issued, ticket.Redeems crypto c
  rows : ∀ row ∈ w.rows, ∃ ticket ∈ w.accepted, row = ⟨crypto.sha256Hex ticket.id, ticket.expiresAt⟩

theorem Proofs.Genuine.start : Proofs.Genuine crypto secret Proofs.start :=
  ⟨fun _ h => absurd h List.not_mem_nil, fun _ h => absurd h List.not_mem_nil, fun _ h => absurd h List.not_mem_nil,
    fun _ h => absurd h List.not_mem_nil⟩

variable {action : ProofAction}

theorem Proofs.Genuine.step (hlaws : crypto.Lawful) (hunforged : w.unforged crypto secret action = true)
    (hw : w.Genuine crypto secret) (h : w.step crypto secret action = some w') : w'.Genuine crypto secret := by
  obtain ⟨hissued, htickets, haccepted, hrows⟩ := hw
  cases action with
  | issue service now random =>
    obtain ⟨⟨hclock, hnow, hrandom⟩, rfl⟩ := guarded_some h
    have hmore : ∀ ticket : Ticket, (∃ c ∈ w.issued, ticket.Redeems crypto c) →
        ∃ c ∈ w.issued ++ [issue crypto secret service now random], ticket.Redeems crypto c :=
      fun ticket ⟨c, hc, hredeems⟩ => ⟨c, List.mem_append_left _ hc, hredeems⟩
    refine ⟨fun c hc => ?_, fun ticket ht => hmore ticket (htickets ticket ht), fun ticket ht => hmore ticket (haccepted ticket ht),
      hrows⟩
    rcases List.mem_append.mp hc with hold | hnew
    · exact ⟨(hissued c hold).1, (hissued c hold).2.trans hclock⟩
    · cases List.mem_singleton.mp hnew
      exact ⟨⟨service, now, random, hnow, hrandom, rfl⟩, Nat.le_refl _⟩
  | verify service proof now =>
    obtain ⟨⟨hclock, -⟩, rfl⟩ := guarded_some h
    refine ⟨fun c hc => ⟨(hissued c hc).1, (hissued c hc).2.trans hclock⟩, fun ticket ht => ?_, haccepted, hrows⟩
    rcases List.mem_append.mp ht with hold | hnew
    · exact htickets ticket hold
    · cases hcheck : check crypto secret service proof now with
      | error e =>
        rw [hcheck] at hnew
        cases hnew
      | ok found =>
        rw [hcheck] at hnew
        cases List.mem_singleton.mp hnew
        exact (check_sound hlaws (fun c hc => (hissued c hc).1) hunforged hcheck).2
  | insert index =>
    obtain ⟨ticket, hticket, rfl⟩ := Option.map_eq_some_iff.mp h
    have hmem := List.mem_of_getElem? hticket
    have hleft : ∀ other ∈ w.tickets.eraseIdx index, ∃ c ∈ w.issued, other.Redeems crypto c :=
      fun other hother => htickets other (List.mem_of_mem_eraseIdx hother)
    rcases redeem_cases ticket (w.tickets.eraseIdx index) with ⟨-, hredeem⟩ | ⟨-, hredeem⟩
    · rw [hredeem]
      exact ⟨hissued, hleft, haccepted, hrows⟩
    · rw [hredeem]
      refine ⟨hissued, hleft, fun other hother => ?_, fun row hrow => ?_⟩
      · rcases List.mem_append.mp hother with hold | hnew
        · exact haccepted other hold
        · cases List.mem_singleton.mp hnew
          exact htickets ticket hmem
      · rcases List.mem_append.mp hrow with hold | hnew
        · obtain ⟨other, hother, hrow'⟩ := hrows row hold
          exact ⟨other, List.mem_append_left _ hother, hrow'⟩
        · exact ⟨ticket, List.mem_append_right _ List.mem_cons_self, List.mem_singleton.mp hnew⟩
  | fail index =>
    cases h
    exact ⟨hissued, fun other hother => htickets other (List.mem_of_mem_eraseIdx hother), haccepted, hrows⟩
  | cleanup now ids =>
    obtain ⟨⟨hclock, -, -⟩, rfl⟩ := guarded_some h
    exact ⟨fun c hc => ⟨(hissued c hc).1, (hissued c hc).2.trans hclock⟩, htickets, haccepted,
      fun row hrow => hrows row (List.mem_filter.mp hrow).1⟩

theorem Proofs.Genuine.expiry_unique (hlaws : crypto.Lawful) (hw : w.Genuine crypto secret) {one other : Ticket}
    (hone : ∃ c ∈ w.issued, one.Redeems crypto c) (hother : ∃ c ∈ w.issued, other.Redeems crypto c) (h : one.id = other.id) :
    one.expiresAt = other.expiresAt := by
  obtain ⟨c, hc, hc'⟩ := hone
  obtain ⟨d, hd, hd'⟩ := hother
  have hid : c.id = d.id := by rw [← hc'.id, h, hd'.id]
  rw [hc'.expiresAt, hd'.expiresAt, (hw.issued c hc).1.expiry_unique hlaws (hw.issued d hd).1 hid]

/-! ## What runs keep that spare the rows -/

structure Proofs.Single (crypto : Crypto) (w : Proofs) : Prop where
  once : (w.accepted.map Ticket.id).Nodup
  redeemed : ∀ ticket ∈ w.accepted, (∃ row ∈ w.rows, row.id = crypto.sha256Hex ticket.id) ∨
    ticket.expiresAt ≤ w.clock ∧ ∀ other ∈ w.tickets, other.id ≠ ticket.id

theorem Proofs.Single.start : Proofs.Single crypto Proofs.start :=
  ⟨List.nodup_nil, fun _ h => absurd h List.not_mem_nil⟩

theorem Proofs.Single.step (hlaws : crypto.Lawful) (hunforged : w.unforged crypto secret action = true)
    (hspared : w.spared crypto action = true) (hgenuine : w.Genuine crypto secret) (hw : w.Single crypto)
    (h : w.step crypto secret action = some w') : w'.Single crypto := by
  obtain ⟨honce, hredeemed⟩ := hw
  cases action with
  | issue service now random =>
    obtain ⟨⟨hclock, -, -⟩, rfl⟩ := guarded_some h
    refine ⟨honce, fun ticket ht => (hredeemed ticket ht).imp_right fun ⟨hexpired, hnone⟩ => ⟨?_, hnone⟩⟩
    exact Int.le_trans hexpired (Int.ofNat_le.mpr hclock)
  | verify service proof now =>
    obtain ⟨⟨hclock, -⟩, rfl⟩ := guarded_some h
    refine ⟨honce, fun ticket ht => (hredeemed ticket ht).imp_right fun ⟨hexpired, hnone⟩ => ?_⟩
    have hexpired' : ticket.expiresAt ≤ now := Int.le_trans hexpired (Int.ofNat_le.mpr hclock)
    refine ⟨hexpired', fun other hother => ?_⟩
    rcases List.mem_append.mp hother with hold | hnew
    · exact hnone other hold
    · cases hcheck : check crypto secret service proof now with
      | error e =>
        rw [hcheck] at hnew
        cases hnew
      | ok found =>
        rw [hcheck] at hnew
        cases List.mem_singleton.mp hnew
        -- what has just passed is not expired, and the accepted proof is
        intro hsame
        obtain ⟨hnow, c, hc, hredeems⟩ := check_sound hlaws (fun c hc => (hgenuine.issued c hc).1) hunforged hcheck
        have hexpiry := hgenuine.expiry_unique hlaws ⟨c, hc, hredeems⟩ (hgenuine.accepted ticket ht) hsame
        have halive := hredeems.lifetime.2
        rw [hredeems.expiresAt] at hexpiry
        omega
  | insert index =>
    obtain ⟨ticket, hticket, rfl⟩ := Option.map_eq_some_iff.mp h
    have hmem := List.mem_of_getElem? hticket
    have hleft : ∀ accepted ∈ w.accepted, (∀ other ∈ w.tickets, other.id ≠ accepted.id) →
        ∀ other ∈ w.tickets.eraseIdx index, other.id ≠ accepted.id :=
      fun accepted _ hnone other hother => hnone other (List.mem_of_mem_eraseIdx hother)
    rcases redeem_cases ticket (w.tickets.eraseIdx index) with ⟨-, hredeem⟩ | ⟨hfree, hredeem⟩
    · rw [hredeem]
      exact ⟨honce, fun accepted ha => (hredeemed accepted ha).imp_right fun ⟨hexpired, hnone⟩ =>
        ⟨hexpired, hleft accepted ha hnone⟩⟩
    · rw [hredeem]
      refine ⟨?_, fun accepted ha => ?_⟩
      · rw [List.map_append, List.map_singleton, List.nodup_append]
        refine ⟨honce, List.nodup_singleton _, fun id hid other hother => ?_⟩
        cases List.mem_singleton.mp hother
        obtain ⟨accepted, ha, rfl⟩ := List.mem_map.mp hid
        intro hsame
        rcases hredeemed accepted ha with ⟨row, hrow, hid'⟩ | ⟨-, hnone⟩
        · exact hfree row hrow (by rw [hid', hsame])
        · exact hnone ticket hmem hsame.symm
      · rcases List.mem_append.mp ha with hold | hnew
        · rcases hredeemed accepted hold with ⟨row, hrow, hid⟩ | ⟨hexpired, hnone⟩
          · exact .inl ⟨row, List.mem_append_left _ hrow, hid⟩
          · exact .inr ⟨hexpired, hleft accepted hold hnone⟩
        · cases List.mem_singleton.mp hnew
          exact .inl ⟨_, List.mem_append_right _ List.mem_cons_self, rfl⟩
  | fail index =>
    cases h
    exact ⟨honce, fun ticket ht => (hredeemed ticket ht).imp_right fun ⟨hexpired, hnone⟩ =>
      ⟨hexpired, fun other hother => hnone other (List.mem_of_mem_eraseIdx hother)⟩⟩
  | cleanup now ids =>
    obtain ⟨⟨hclock, -, -⟩, rfl⟩ := guarded_some h
    refine ⟨honce, fun ticket ht => ?_⟩
    rcases hredeemed ticket ht with ⟨row, hrow, hid⟩ | ⟨hexpired, hnone⟩
    · by_cases hremoved : (decide (row.expiresAt ≤ now) && ids.contains row.id) = true
      · right
        have hexpired : row.expiresAt ≤ now := of_decide_eq_true (Bool.and_eq_true_iff.mp hremoved).1
        obtain ⟨accepted, ha, rfl⟩ := hgenuine.rows row hrow
        have hexpiry := hgenuine.expiry_unique hlaws (hgenuine.accepted accepted ha) (hgenuine.accepted ticket ht)
          (hlaws.sha256Hex_injective hid)
        refine ⟨hexpiry ▸ hexpired, fun other hother hsame => ?_⟩
        have hkept := List.all_eq_true.mp (List.all_eq_true.mp hspared other hother) _ hrow
        rw [hremoved, Bool.and_true, Bool.not_eq_true', beq_eq_false_iff_ne] at hkept
        exact hkept (by rw [hid, hsame])
      · exact .inl ⟨row, List.mem_filter.mpr ⟨hrow, by rw [Bool.not_eq_true] at hremoved; rw [hremoved]; rfl⟩, hid⟩
    · exact .inr ⟨Int.le_trans hexpired (Int.ofNat_le.mpr hclock), hnone⟩

/-! ## Proofs presented first -/

theorem Proofs.Genuine.accepts (hlaws : crypto.Lawful) (hw : w.Genuine crypto secret) {ticket : Ticket}
    (hnew : ∀ accepted ∈ w.accepted, accepted.id ≠ ticket.id) (tickets : List Ticket) :
    (w.redeem crypto ticket tickets).accepted = w.accepted ++ [ticket] := by
  rcases redeem_cases ticket tickets with ⟨⟨row, hrow, hid⟩, -⟩ | ⟨-, hredeem⟩
  · obtain ⟨accepted, ha, rfl⟩ := hw.rows row hrow
    exact absurd (hlaws.sha256Hex_injective hid) (hnew accepted ha)
  · rw [hredeem]

theorem genuine_run (hlaws : crypto.Lawful) {actions : List ProofAction}
    (hunforged : along (Proofs.step crypto secret) (Proofs.unforged crypto secret) Proofs.start actions = true)
    (hrun : run (Proofs.step crypto secret) Proofs.start actions = some w) : w.Genuine crypto secret :=
  along_invariant (fun _ _ _ hallowed hw h => hw.step hlaws hallowed h) hunforged Proofs.Genuine.start hrun

end Runs

/-! ## A table that is cleared too early -/

namespace ClearedTable

def leaf : Json.Tree → Option JsValue
  | .number token => some (.num (Nat.ofDigitChars 10 token 0))
  | .string value => some (.str value)
  | _ => none

def leaves : Json.Tree → Option JsValue
  | .array values => (values.mapM leaf).map .arr
  | _ => none

/-- A checksum for a signature; proofs with a counter that ends in 7 are solved. -/
def crypto : Crypto where
  hmac key text := List.replicate 31 0 ++ [UInt8.ofNat ((key.map UInt8.toNat).sum + (text.map Char.toNat).sum)]
  sha256 text := if text.getLast? = some '7' then List.replicate 32 0 else List.replicate 32 255
  sha256Hex := id
  utf8 bytes := ((bytes.toByteArray.utf8Decode?).map Array.toList).getD []
  parse text := (Json.read (fun _ => false) text).bind fun document => leaves document.doc.tree

theorem field_leaf (field : Field) : leaf field.tree = some field.value := by
  cases field with
  | integer n => rw [Field.tree, leaf, Nat.ofDigitChars_ten_toDigits, Field.value]
  | text text => rfl

theorem fields_leaves (fields : List Field) : (fields.map Field.tree).mapM leaf = some (fields.map Field.value) := by
  induction fields with
  | nil => rfl
  | cons field fields ih =>
    rw [List.map_cons, List.mapM_cons, field_leaf, ih]
    rfl

theorem fields_ok (fields : List Field) : Json.Tree.OkEach (fields.map Field.tree) := by
  induction fields with
  | nil => exact trivial
  | cons field fields ih =>
    refine ⟨?_, ih⟩
    cases field with
    | integer n => exact Json.isNumber_toDigits n
    | text text => exact trivial

theorem lawful : crypto.Lawful where
  hmac_length key text := by simp [crypto]
  sha256_length text := by
    simp only [crypto]
    split <;> rfl
  sha256Hex_injective := Function.injective_id
  utf8_bytes text := by
    have hdecode : (utf8Bytes text).toByteArray.utf8Decode? = some text.toArray := List.utf8Decode?_utf8Encode
    simp only [crypto, hdecode, Option.map_some, Option.getD_some]
  parse_stringify fields _ := by
    have hspace : Json.Space fun _ => false := ⟨fun c hc => by cases hc⟩
    have hok : (Json.Tree.array (fields.map Field.tree)).Ok := fields_ok fields
    have hread := Json.Tree.read_compact hspace hok
    simp only [crypto, stringifyFields, hread, Option.bind_some, Json.Tree.tree_doc, leaves, fields_leaves, Option.map_some]

def secret : ProofSecret := ⟨"unit-test-only-proof-signing-key-32-bytes".toList, by decide +kernel⟩

def service : ProofService := ⟨8, 300, by decide, by decide⟩

def now : ℕ := 2000000000000

def challenge : Challenge := issue crypto secret service now (List.replicate 32 0)

def proof : Text := challenge.id ++ '.' :: Nat.toDigits 10 7

def ticket (time : ℕ) : Ticket := ⟨proof, challenge.id, challenge.nonce, 7, challenge.expiresAt, time⟩

def requests : List ProofAction :=
  [.issue service now (List.replicate 32 0), .verify service (some proof) (now + 1000),
    .verify service (some proof) (now + 299999), .insert 0]

/-- The row is removed when the challenge has expired. -/
def actions : List ProofAction := requests ++ [.cleanup (now + 300000) [challenge.id], .insert 0]

def row : Redemption := ⟨challenge.id, challenge.expiresAt⟩

theorem issued : Issued crypto secret challenge := ⟨service, now, List.replicate 32 0, by decide, rfl, rfl⟩

theorem solved : challenge.Solved crypto 7 := by
  have hdigest : digest crypto challenge.id challenge.nonce 7 = List.replicate 32 0 := by
    have hlast : ∀ text : Text, (text ++ Nat.toDigits 10 7).getLast? = some '7' := fun text => List.getLast?_concat
    simp only [digest, crypto, hlast, if_true]
  refine ⟨by decide, ?_⟩
  rw [hdigest]
  decide

theorem checked {time : ℕ} (hstart : now ≤ time) (hend : time < now + 300000) :
    check crypto secret service (some proof) time = .ok (ticket time) :=
  check_complete lawful issued rfl hstart hend solved

theorem issue_step : Proofs.step crypto secret Proofs.start (.issue service now (List.replicate 32 0)) =
    some ⟨now, [challenge], [], [], []⟩ := rfl

theorem first_step : Proofs.step crypto secret ⟨now, [challenge], [], [], []⟩ (.verify service (some proof) (now + 1000)) =
    some ⟨now + 1000, [challenge], [], [ticket (now + 1000)], []⟩ := by
  have htime : now ≤ now + 1000 ∧ now + 1000 < now + 300000 := by decide
  rw [Proofs.step, checked htime.1 htime.2]
  rfl

theorem second_step : Proofs.step crypto secret ⟨now + 1000, [challenge], [], [ticket (now + 1000)], []⟩
    (.verify service (some proof) (now + 299999)) =
    some ⟨now + 299999, [challenge], [], [ticket (now + 1000), ticket (now + 299999)], []⟩ := by
  have htime : now ≤ now + 299999 ∧ now + 299999 < now + 300000 := by decide
  rw [Proofs.step, checked htime.1 htime.2]
  rfl

theorem requests_run : run (Proofs.step crypto secret) Proofs.start requests =
    some ⟨now + 299999, [challenge], [row], [ticket (now + 299999)], [ticket (now + 1000)]⟩ := by
  rw [requests, run, issue_step, Option.bind_some, run, first_step, Option.bind_some, run, second_step, Option.bind_some]
  rfl

theorem requests_unforged : along (Proofs.step crypto secret) (Proofs.unforged crypto secret) Proofs.start requests = true := by
  have hfirst : Identity.unforged crypto secret [challenge] (some proof) (now + 1000) = true := by decide +kernel
  have hsecond : Identity.unforged crypto secret [challenge] (some proof) (now + 299999) = true := by decide +kernel
  have hlast : along (Proofs.step crypto secret) (Proofs.unforged crypto secret)
      ⟨now + 299999, [challenge], [], [ticket (now + 1000), ticket (now + 299999)], []⟩ [.insert 0] = true :=
    along_of_forall fun w action h => by
      cases List.mem_singleton.mp h
      rfl
  rw [requests, along, issue_step, Option.all_some, along, first_step, Option.all_some, along, second_step, Option.all_some]
  exact Bool.and_eq_true_iff.mpr ⟨rfl, Bool.and_eq_true_iff.mpr ⟨hfirst, Bool.and_eq_true_iff.mpr ⟨hsecond, hlast⟩⟩⟩

theorem cleanup_step : Proofs.step crypto secret
    ⟨now + 299999, [challenge], [row], [ticket (now + 299999)], [ticket (now + 1000)]⟩
    (.cleanup (now + 300000) [challenge.id]) =
    some ⟨now + 300000, [challenge], [], [ticket (now + 299999)], [ticket (now + 1000)]⟩ := by
  have hcontained : [challenge.id].contains challenge.id = true := by simp
  have hremoved : [row].filter (fun row =>
      !(decide (row.expiresAt ≤ ((now + 300000 : ℕ) : ℤ)) && [challenge.id].contains row.id)) = [] := by
    rw [List.filter_cons_of_neg, List.filter_nil]
    simp only [row, hcontained]
    decide
  simp only [Proofs.step, hremoved]
  rfl

theorem actions_run : run (Proofs.step crypto secret) Proofs.start actions =
    some ⟨now + 300000, [challenge], [row], [], [ticket (now + 1000), ticket (now + 299999)]⟩ := by
  rw [actions, run_append, requests_run, Option.bind_some, run, cleanup_step, Option.bind_some]
  rfl

theorem actions_unforged : along (Proofs.step crypto secret) (Proofs.unforged crypto secret) Proofs.start actions = true :=
  along_append requests_unforged fun _ _ => along_of_forall fun w action h => by
    rcases List.mem_cons.mp h with rfl | h
    · rfl
    · cases List.mem_singleton.mp h
      rfl

end ClearedTable

end AvenOS.Identity
