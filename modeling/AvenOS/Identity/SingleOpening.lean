import AvenOS.Identity.OpeningRequests
import Mathlib.Data.List.Pairwise

/-! # The setup credential opens an account once

Over all interleavings of the statements of any number of requests. -/
namespace AvenOS.Identity
open Transactions LabelledRun

def Entry.registers (userId : String) : Entry → Bool
  | (.createPasskey _ _ account _ _, .ok (.passkey _)) => account == userId
  | _ => false

/-- A setup session registered a passkey of the account. -/
def Entry.bootstraps (userId : String) : Entry → Bool
  | (.createPasskey _ _ account _ _, .ok (.passkey true)) => account == userId
  | _ => false

def Entry.sets (userId : String) : Entry → Bool
  | (.issueSetupLink account _ _ _, .ok (.issued (some _))) => account == userId
  | (.createSetupSession _ account _ _, .ok .session) => account == userId
  | _ => false

structure OpenedOnce (s : World) : Prop where
  closed : ∀ passkey ∈ s.db.passkeys, (∀ link ∈ s.db.setupLinks, link.userId ≠ passkey.userId) ∧
    ∀ session ∈ s.db.sessions, session.userId = passkey.userId → session.setupTokenHash = none
  current : ∀ session ∈ s.db.sessions, ∀ hash, session.setupTokenHash = some hash →
    ∃ link ∈ s.db.setupLinks, link.userId = session.userId ∧ link.tokenHash = hash ∧
      ∀ other ∈ s.db.setupLinks, other.userId = session.userId → other.tokenHash = hash
  once : ∀ userId, (s.journal.filter (Entry.bootstraps userId)).length ≤ 1
  closedAfter : ∀ userId before entry after, s.journal = before ++ entry :: after →
    Entry.registers userId entry = true → ∀ later ∈ after, Entry.sets userId later = false

/-! ## What the journal tells -/

/-- Once a passkey is registered the account has one, and nothing opens it again. -/
def Told (db : Tables) (journal : List Entry) : Prop :=
  ∀ userId before entry after, journal = before ++ entry :: after → Entry.registers userId entry = true →
    db.hasPasskey userId = true ∧ ∀ later ∈ after, Entry.sets userId later = false ∧ Entry.bootstraps userId later = false

variable {db next : Tables} {call : Call} {answer : Answer} {userId : String} {journal : List Entry}

theorem opens_noPasskey (h : Tells db next call answer)
    (hopens : Entry.sets userId (call, .ok answer) = true ∨ Entry.bootstraps userId (call, .ok answer) = true) :
    db.hasPasskey userId = false := by
  rcases hopens with hsets | hboots
  · unfold Entry.sets at hsets
    split at hsets
    next heq =>
      cases heq
      rw [← beq_iff_eq.mp hsets]
      exact h
    next heq =>
      cases heq
      rw [← beq_iff_eq.mp hsets]
      exact h
    next => cases hsets
  · unfold Entry.bootstraps at hboots
    split at hboots
    next heq =>
      cases heq
      rw [← beq_iff_eq.mp hboots]
      exact h.2 rfl
    next => cases hboots

theorem registers_hasPasskey (h : Tells db next call answer)
    (hregisters : Entry.registers userId (call, .ok answer) = true) : next.hasPasskey userId = true := by
  unfold Entry.registers at hregisters
  split at hregisters
  next heq =>
    cases heq
    rw [← beq_iff_eq.mp hregisters]
    exact h.1
  next => cases hregisters

theorem told_ended {db' : Tables} {journal' : List Entry} (hended : Ended post (db, journal) (db', journal'))
    (h : Told db journal) : Told db' journal' := by
  have hfailed : ∀ (call : Call) (error : Refusal) (userId : String), Entry.registers userId (call, .error error) = false ∧
      Entry.sets userId (call, .error error) = false ∧ Entry.bootstraps userId (call, .error error) = false := by
    intro call error userId
    cases call <;> exact ⟨rfl, rfl, rfl⟩
  cases hended with
  | none => exact h
  | failed db journal call error =>
    intro userId before entry after hsplit hregisters
    rcases concat_split hsplit with ⟨_, rfl, _⟩ | ⟨rest, rfl, hold⟩
    · rw [(hfailed call error userId).1] at hregisters
      cases hregisters
    · obtain ⟨hpasskey, hlater⟩ := h userId before entry rest hold hregisters
      refine ⟨hpasskey, fun later hmem => ?_⟩
      rcases List.mem_append.mp hmem with hrest | hlast
      · exact hlater later hrest
      · rw [List.mem_singleton.mp hlast]
        exact (hfailed call error userId).2
  | @committed db db' journal call answer hpost =>
    intro userId before entry after hsplit hregisters
    rcases concat_split hsplit with ⟨_, rfl, rfl⟩ | ⟨rest, rfl, hold⟩
    · exact ⟨registers_hasPasskey hpost.1 hregisters, fun later hmem => absurd hmem List.not_mem_nil⟩
    · obtain ⟨hpasskey, hlater⟩ := h userId before entry rest hold hregisters
      refine ⟨hpost.2 userId hpasskey, fun later hmem => ?_⟩
      rcases List.mem_append.mp hmem with hrest | hlast
      · exact hlater later hrest
      · rw [List.mem_singleton.mp hlast]
        constructor
        · by_contra hsets
          rw [opens_noPasskey hpost.1 (.inl (by simpa using hsets))] at hpasskey
          cases hpasskey
        · by_contra hboots
          rw [opens_noPasskey hpost.1 (.inr (by simpa using hboots))] at hpasskey
          cases hpasskey

theorem bootstraps_registers {entry : Entry} (h : Entry.bootstraps userId entry = true) :
    Entry.registers userId entry = true := by
  unfold Entry.bootstraps at h
  split at h
  · exact h
  · cases h

theorem Told.once (h : Told db journal) (userId : String) : (journal.filter (Entry.bootstraps userId)).length ≤ 1 := by
  induction journal with
  | nil => exact Nat.zero_le _
  | cons entry journal ih =>
    by_cases hboots : Entry.bootstraps userId entry = true
    · obtain ⟨_, hlater⟩ := h userId [] entry journal rfl (bootstraps_registers hboots)
      have hnone : journal.filter (Entry.bootstraps userId) = [] :=
        List.filter_eq_nil_iff.mpr fun later hmem => by simp [(hlater later hmem).2]
      rw [List.filter_cons_of_pos hboots, hnone]
      exact Nat.le_refl _
    · rw [List.filter_cons_of_neg hboots]
      exact ih fun userId before entry' after hsplit => h userId (entry :: before) entry' after (by rw [hsplit, List.cons_append])

theorem Closed.openedOnce {s : World} (hclosed : Closed s.db) (htold : Told s.db s.journal) : OpenedOnce s := by
  refine ⟨fun passkey hmem => ?_, fun session hmem hash hhash => ?_, htold.once,
    fun userId before entry after hsplit hregisters later hlater =>
      ((htold userId before entry after hsplit hregisters).2 later hlater).1⟩
  · have hpasskey : s.db.hasPasskey passkey.userId = true := List.any_eq_true.mpr ⟨passkey, hmem, beq_self_eq_true _⟩
    obtain ⟨hlink, hsessions⟩ := hclosed.once passkey.userId hpasskey
    refine ⟨fun link hmem' hsame => ?_, fun session hmem' hsame => ?_⟩
    · have hne := List.find?_eq_none.mp hlink link hmem'
      exact hne (beq_iff_eq.mpr hsame)
    · by_contra hset
      exact hsessions session hmem' ⟨hsame, hset⟩
  · obtain ⟨link, hlink, hlinkHash⟩ := Option.map_eq_some_iff.mp (hclosed.current session hmem hash hhash)
    have hmem' := List.mem_of_find?_eq_some hlink
    have huser : link.userId = session.userId := by simpa using List.find?_some hlink
    refine ⟨link, hmem', huser, hlinkHash, fun other hother hsame => ?_⟩
    by_contra hne
    have hdistinct : other ≠ link := by
      rintro rfl
      exact hne hlinkHash
    have hsymm : Std.Symm fun link other : SetupLink => link.userId ≠ other.userId := ⟨fun _ _ h => h.symm⟩
    exact hclosed.single.forall hother hmem' hdistinct (hsame.trans huser.symm)

theorem account_opened_once (sha256Hex : String → String) (users : List User) {actions : List (Action Call)} {s : World}
    (hrun : run (System.step engine (body sha256Hex)) (World.start users) actions = some s) : OpenedOnce s := by
  have hclosed : Closed (World.start users).db :=
    ⟨List.Pairwise.nil, fun _ h => (by cases h), fun _ h => absurd h List.not_mem_nil⟩
  have htold : Told (World.start users).db (World.start users).journal :=
    fun userId before entry after hsplit => absurd hsplit (by simp [World.start])
  obtain ⟨hreliable, htold⟩ := System.Reliable.run (I := Told) (body_guarantees sha256Hex)
    (fun _ _ _ _ _ _ hended => told_ended hended) (System.Reliable.idle hclosed) htold hrun
  exact hreliable.inv.openedOnce htold

/-! ## Two devices with one link -/

namespace TwoDevices

def token : String := "setup-token-of-thirty-two-letters"

def registration (sessionId : String) : Option Registration := some ⟨sessionId, "u1", true⟩

/-- A request by itself. -/
def alone (call : Call) (statements : ℕ) : List (Action Call) :=
  .begin 0 call :: List.replicate statements (.advance 0) ++ [.commit 0]

/-- Two sessions of one link; the second registration waits for the first and then finds no session. -/
def actions : List (Action Call) :=
  alone (.issueSetupLink "u1" token 0 none) 4 ++ alone (.verifySetupLink token 1) 3 ++
    alone (.createSetupSession "s1" "u1" token 1) 3 ++ alone (.createSetupSession "s2" "u1" token 2) 3 ++
    [.begin 1 (.createPasskey (registration "s1") "p1" "u1" "c1" 3), .begin 2 (.createPasskey (registration "s2") "p2" "u1" "c2" 3)] ++
    List.replicate 7 (.advance 1) ++ [.commit 1] ++ List.replicate 2 (.advance 2) ++
    alone (.issueSetupLink "u1" token 4 none) 2 ++ alone (.finalize true "u1" none true) 3

end TwoDevices

open TwoDevices in
theorem account_opened_once_raced :
    ∃ s, run (System.step engine (body id)) (World.start [⟨"u1", none⟩]) actions = some s ∧
      s.journal.map Prod.snd = [.ok (.issued (some token)), .ok (.verified (some ("u1", token))), .ok .session, .ok .session,
        .ok (.passkey true), .error .sessionUnavailable, .ok (.issued none), .ok .done] ∧ OpenedOnce s := by
  have hrun : ((run (System.step engine (body id)) (World.start [⟨"u1", none⟩]) actions).any fun s =>
      s.journal.map Prod.snd == [.ok (.issued (some token)), .ok (.verified (some ("u1", token))), .ok .session, .ok .session,
        .ok (.passkey true), .error .sessionUnavailable, .ok (.issued none), .ok .done]) = true := by
    decide +kernel
  obtain ⟨s, hs, hjournal⟩ := (Option.any_eq_true _ _).mp hrun
  exact ⟨s, hs, by simpa using hjournal, account_opened_once id [⟨"u1", none⟩] hs⟩

end AvenOS.Identity
