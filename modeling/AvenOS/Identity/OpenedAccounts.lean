import AvenOS.Identity.Enrollment

/-! # An account is opened once

Passkeys come and stay. As long as a transaction holds the row of an account nobody else gives it a passkey, a setup
session or another link; only a finalisation deletes a link without that lock, and then the account has a passkey and no
link is left. -/
namespace AvenOS.Identity
open Transactions

/-! ## What is in order -/

def Tables.linkHash (db : Tables) (userId : String) : Option String := (db.link? userId).map SetupLink.tokenHash

def SessionRow.SetsUp (session : SessionRow) (userId : String) : Prop :=
  session.userId = userId ∧ session.setupTokenHash ≠ none

structure Closed (db : Tables) : Prop where
  single : db.setupLinks.Pairwise fun link other => link.userId ≠ other.userId
  once : ∀ userId, db.hasPasskey userId = true →
    db.link? userId = none ∧ ∀ session ∈ db.sessions, ¬ session.SetsUp userId
  current : ∀ session ∈ db.sessions, ∀ hash, session.setupTokenHash = some hash → db.linkHash session.userId = some hash

structure Others (held : List Lock) (db next : Tables) : Prop where
  users : next.users = db.users
  passkeys : ∀ userId, db.hasPasskey userId = true → next.hasPasskey userId = true
  noPasskey : ∀ userId, .user userId ∈ held → next.hasPasskey userId = true → db.hasPasskey userId = true
  link : ∀ userId, .user userId ∈ held → next.linkHash userId = db.linkHash userId ∨ db.hasPasskey userId = true
  sessions : ∀ userId, .user userId ∈ held → ∀ session ∈ next.sessions, session.SetsUp userId → session ∈ db.sessions

def protocol : Protocol Tables Lock := ⟨Closed, Others⟩

/-- What an answer tells about the account before and after the commit. -/
def Tells (db next : Tables) : Call → Answer → Prop
  | .issueSetupLink userId _ _ _, .issued (some _) => db.hasPasskey userId = false
  | .createSetupSession _ userId _ _, .session => db.hasPasskey userId = false
  | .createPasskey _ _ userId _ _, .passkey bootstrap =>
    next.hasPasskey userId = true ∧ (bootstrap = true → db.hasPasskey userId = false)
  | _, _ => True

def post (call : Call) (db : Tables) (answer : Answer) (next : Tables) : Prop :=
  Tells db next call answer ∧ ∀ userId, db.hasPasskey userId = true → next.hasPasskey userId = true

/-! ## Single changes -/

section Changes
variable {db : Tables} {userId other : String}

theorem hasPasskey_congr {next : Tables} (h : next.passkeys.map Passkey.userId = db.passkeys.map Passkey.userId) :
    next.hasPasskey userId = db.hasPasskey userId := by
  have hany : ∀ passkeys : List Passkey, (passkeys.any fun passkey => passkey.userId == userId) =
      (passkeys.map Passkey.userId).any fun id => id == userId := fun passkeys => by
    rw [List.any_map]
    rfl
  rw [Tables.hasPasskey, Tables.hasPasskey, hany, hany, h]

theorem setPrf_users (ids : List String) (prfEnabled : Bool) :
    ((Change.setPrf ids prfEnabled).apply db).passkeys.map Passkey.userId = db.passkeys.map Passkey.userId := by
  show (db.passkeys.map _).map _ = _
  rw [List.map_map]
  refine List.map_congr_left fun passkey _ => ?_
  show Passkey.userId (if ids.contains passkey.id then _ else passkey) = _
  split <;> rfl

theorem hasPasskey_addPasskey (passkey : Passkey) :
    ((Change.addPasskey passkey).apply db).hasPasskey userId = (db.hasPasskey userId || passkey.userId == userId) := by
  show (db.passkeys ++ [passkey]).any _ = _
  rw [List.any_append, List.any_cons, List.any_nil, Bool.or_false]
  rfl

theorem find_others (links : List SetupLink) :
    ((links.filter fun link => link.userId != other).find? fun link => link.userId == userId) =
      if other = userId then none else links.find? fun link => link.userId == userId := by
  induction links with
  | nil => simp
  | cons link links ih =>
    by_cases hother : link.userId = other
    · subst hother
      rw [List.filter_cons_of_neg (by simp), ih]
      split
      next => rfl
      next hne => rw [List.find?_cons_of_neg (by simpa using hne)]
    · rw [List.filter_cons_of_pos (by simpa using hother)]
      by_cases huser : link.userId = userId
      · have hne : other ≠ userId := fun hsame => hother (huser.trans hsame.symm)
        rw [List.find?_cons_of_pos (by simpa using huser), List.find?_cons_of_pos (by simpa using huser), if_neg hne]
      · rw [List.find?_cons_of_neg (by simpa using huser), List.find?_cons_of_neg (by simpa using huser), ih]

theorem link_putLink (link : SetupLink) :
    ((Change.putLink link).apply db).link? userId = if link.userId = userId then some link else db.link? userId := by
  show (db.setupLinks.filter (fun old => old.userId != link.userId) ++ [link]).find? _ = _
  rw [List.find?_append, find_others]
  by_cases hsame : link.userId = userId
  · rw [if_pos hsame, if_pos hsame, List.find?_cons_of_pos (by simpa using hsame), Option.none_or]
  · rw [if_neg hsame, if_neg hsame, List.find?_cons_of_neg (by simpa using hsame), List.find?_nil, Option.or_none]
    rfl

theorem link_unlink :
    ((Change.unlink other).apply db).link? userId = if other = userId then none else db.link? userId :=
  find_others db.setupLinks

theorem linkHash_touch (now : ℕ) : ((Change.touch other now).apply db).linkHash userId = db.linkHash userId := by
  obtain ⟨users, links, sessions, passkeys⟩ := db
  induction links with
  | nil => rfl
  | cons link links ih =>
    have hkept : SetupLink.userId (if link.userId == other then { link with lastUsedAt := some now } else link) = link.userId ∧
        SetupLink.tokenHash (if link.userId == other then { link with lastUsedAt := some now } else link) =
          link.tokenHash := by
      split <;> exact ⟨rfl, rfl⟩
    unfold Tables.linkHash Tables.link? Change.apply at ih ⊢
    dsimp only at ih ⊢
    rw [List.map_cons]
    generalize (if link.userId == other then { link with lastUsedAt := some now } else link) = touched at hkept ⊢
    by_cases huser : link.userId = userId
    · rw [List.find?_cons_of_pos (by simpa [hkept.1] using huser), List.find?_cons_of_pos (by simpa using huser),
        Option.map_some, Option.map_some, hkept.2]
    · rw [List.find?_cons_of_neg (by simpa [hkept.1] using huser), List.find?_cons_of_neg (by simpa using huser), ih]

theorem single_putLink (h : db.setupLinks.Pairwise fun link other => link.userId ≠ other.userId) (link : SetupLink) :
    ((Change.putLink link).apply db).setupLinks.Pairwise fun link other => link.userId ≠ other.userId := by
  show (db.setupLinks.filter (fun old => old.userId != link.userId) ++ [link]).Pairwise _
  rw [List.pairwise_append]
  refine ⟨h.filter _, List.pairwise_singleton _ _, fun old hold new hnew => ?_⟩
  rw [List.mem_singleton.mp hnew]
  simpa using (List.mem_filter.mp hold).2

theorem single_touch (h : db.setupLinks.Pairwise fun link other => link.userId ≠ other.userId) (now : ℕ) :
    ((Change.touch other now).apply db).setupLinks.Pairwise fun link other => link.userId ≠ other.userId := by
  refine List.Pairwise.map _ (fun a b hne => ?_) h
  show SetupLink.userId (if a.userId == other then { a with lastUsedAt := some now } else a) ≠
    SetupLink.userId (if b.userId == other then { b with lastUsedAt := some now } else b)
  split <;> split <;> exact hne

variable {session : SessionRow} {hash : String}

theorem mem_setupSessions (hmem : session ∈ db.sessions) (hsetup : session.SetsUp userId) :
    session.id ∈ db.setupSessions userId := by
  refine List.mem_map_of_mem (List.mem_filter.mpr ⟨hmem, ?_⟩)
  have hsome := Option.isSome_iff_ne_none.mpr hsetup.2
  simp [hsetup.1, hsome]

theorem pending_linkHash {now : ℕ} (h : db.pending userId hash now = true) : db.linkHash userId = some hash := by
  obtain ⟨link, hlink, hboth⟩ := (Option.any_eq_true _ _).mp h
  have hhash : link.tokenHash = hash := by simpa using (Bool.and_eq_true_iff.mp hboth).1
  rw [Tables.linkHash, hlink, Option.map_some, hhash]

theorem Closed.noPasskey (h : Closed db) (hlink : db.linkHash userId = some hash) : db.hasPasskey userId = false := by
  by_contra hpasskey
  have hnone := (h.once userId (by simpa using hpasskey)).1
  rw [Tables.linkHash, hnone] at hlink
  cases hlink

theorem Closed.noPasskey_of_setup (h : Closed db) (hmem : session ∈ db.sessions) (hsetup : session.SetsUp userId) :
    db.hasPasskey userId = false := by
  by_contra hpasskey
  exact (h.once userId (by simpa using hpasskey)).2 session hmem hsetup

end Changes

/-! ## Facts that others keep -/

section Facts
variable {held : List Lock} {userId : String}

theorem keeps_users (fact : List User → Prop) : protocol.Keeps held fun db => fact db.users :=
  fun _ _ _ _ hothers hfact => (congrArg fact hothers.users).mpr hfact

theorem keeps_noPasskey (hheld : .user userId ∈ held) : protocol.Keeps held fun db => db.hasPasskey userId = false := by
  intro db next _ _ hothers hfact
  by_contra hpasskey
  have hbefore := hothers.noPasskey userId hheld (by simpa using hpasskey)
  rw [hfact] at hbefore
  cases hbefore

theorem keeps_passkey : protocol.Keeps held fun db => db.hasPasskey userId = true :=
  fun _ _ _ _ hothers hfact => hothers.passkeys userId hfact

theorem keeps_linkHash {hash : String} (hheld : .user userId ∈ held) :
    protocol.Keeps held fun db => db.linkHash userId = some hash := by
  intro db next hclosed _ hothers hfact
  rcases hothers.link userId hheld with hsame | hpasskey
  · rw [hsame]
    exact hfact
  · rw [hclosed.noPasskey hfact] at hpasskey
    cases hpasskey

theorem keeps_noLink (hheld : .user userId ∈ held) : protocol.Keeps held fun db => db.link? userId = none := by
  intro db next _ hclosed hothers hfact
  rcases hothers.link userId hheld with hsame | hpasskey
  · rw [Tables.linkHash, Tables.linkHash, hfact] at hsame
    exact Option.map_eq_none_iff.mp hsame
  · exact (hclosed.once userId (hothers.passkeys userId hpasskey)).1

/-- Among the sessions of an account, these ids are all that set it up. -/
def Covers (userId : String) (ids : List String) (db : Tables) : Prop :=
  ∀ session ∈ db.sessions, session.SetsUp userId → session.id ∈ ids

theorem keeps_covers {ids : List String} (hheld : .user userId ∈ held) : protocol.Keeps held (Covers userId ids) :=
  fun _ _ _ _ hothers hfact session hmem hsetup => hfact session (hothers.sessions userId hheld session hmem hsetup) hsetup

theorem keeps_and {fact other : Tables → Prop} (h : protocol.Keeps held fact) (h' : protocol.Keeps held other) :
    protocol.Keeps held fun db => fact db ∧ other db :=
  fun db next hdb hnext hothers hboth => ⟨h db next hdb hnext hothers hboth.1, h' db next hdb hnext hothers hboth.2⟩

end Facts

end AvenOS.Identity
