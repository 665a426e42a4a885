import AvenOS.Foundations.RelyGuarantee

/-! # Setup links, setup sessions and passkeys

An account is opened with a setup link, a session that the link signs in and a first passkey. The requests are separate
transactions at read committed; those that decide take the row of the account first. -/
namespace AvenOS.Identity
open Transactions

/-! ## Tables -/

structure User where
  id : String
  notificationChannel : Option String
deriving DecidableEq, Repr

structure SetupLink where
  userId : String
  tokenHash : String
  createdAt : ℕ
  expiresAt : ℕ
  lastUsedAt : Option ℕ
deriving DecidableEq, Repr

structure SessionRow where
  id : String
  userId : String
  setupTokenHash : Option String
  expiresAt : ℕ
deriving DecidableEq, Repr

structure Passkey where
  id : String
  userId : String
  credentialId : String
  createdAt : ℕ
  prfEnabled : Bool
deriving DecidableEq, Repr

structure Tables where
  users : List User
  setupLinks : List SetupLink
  sessions : List SessionRow
  passkeys : List Passkey

namespace Tables
variable (db : Tables)

def hasUser (userId : String) : Bool := db.users.any fun user => user.id == userId

def hasPasskey (userId : String) : Bool := db.passkeys.any fun passkey => passkey.userId == userId

/-- `user_id` is the primary key. -/
def link? (userId : String) : Option SetupLink := db.setupLinks.find? fun link => link.userId == userId

def session? (id userId : String) : Option SessionRow :=
  db.sessions.find? fun session => session.id == id && session.userId == userId

def pending (userId tokenHash : String) (now : ℕ) : Bool :=
  (db.link? userId).any fun link => link.tokenHash == tokenHash && now < link.expiresAt

def setupSessions (userId : String) : List String :=
  (db.sessions.filter fun session => session.userId == userId && session.setupTokenHash.isSome).map SessionRow.id

end Tables

inductive Lock
  | user (id : String)
  | link (userId : String)
  | tokenHash (hash : String)
  | session (id : String)
  | credential (id : String)
deriving DecidableEq, Repr

inductive Change
  | putLink (link : SetupLink)
  | touch (userId : String) (now : ℕ)
  | unlink (userId : String)
  | addSession (session : SessionRow)
  | dropSessions (ids : List String)
  | addPasskey (passkey : Passkey)
  | setPrf (ids : List String) (prfEnabled : Bool)

def Change.apply : Change → Tables → Tables
  | .putLink link, db => { db with setupLinks := db.setupLinks.filter (fun old => old.userId != link.userId) ++ [link] }
  | .touch userId now, db =>
    { db with setupLinks := db.setupLinks.map fun link =>
        if link.userId == userId then { link with lastUsedAt := some now } else link }
  | .unlink userId, db => { db with setupLinks := db.setupLinks.filter fun link => link.userId != userId }
  | .addSession session, db => { db with sessions := db.sessions ++ [session] }
  | .dropSessions ids, db => { db with sessions := db.sessions.filter fun session => !ids.contains session.id }
  | .addPasskey passkey, db => { db with passkeys := db.passkeys ++ [passkey] }
  | .setPrf ids prfEnabled, db =>
    { db with passkeys := db.passkeys.map fun passkey =>
        if ids.contains passkey.id then { passkey with prfEnabled := prfEnabled } else passkey }

/-- Rows and keys are locked against each other; waits for a row that is referenced only delay. -/
def engine : Transactions.Engine Tables Lock Change where
  apply := Change.apply
  needs _ := []
  conflicts l l' := l = l'
  symm _ _ h := h.symm

instance : DecidableRel engine.conflicts := fun l l' => inferInstanceAs (Decidable (l = l'))

inductive Refusal
  | unknownUser
  | duplicate
  | mailUnavailable
  | waitOneMinute
  | enrollmentContext
  | sessionUnavailable
  | linkUnavailable
  | passkeyNotFound
  | prfRequired
deriving DecidableEq, Repr

inductive Answer
  /-- No token where the account has a passkey. -/
  | issued (token : Option String)
  | verified (link : Option (String × String))
  | session
  /-- Whether a setup session registered the passkey. -/
  | passkey (bootstrap : Bool)
  | done
deriving DecidableEq, Repr

abbrev Transaction (α : Type) := Body Tables Lock Change Refusal α

def setupSessionSeconds : ℕ := 1800
def setupLinkSeconds : ℕ := 7 * 86400

def isToken (value : String) : Bool :=
  value.toList.all (fun c => c.isAlphanum || c == '_' || c == '-') && 32 ≤ value.length && value.length ≤ 256

section Requests
variable (sha256Hex : String → String)

/-! ## Statements -/

/-- `SELECT id FROM "user" WHERE id=$1 FOR UPDATE`: an account that does not exist is not locked. -/
def lockUser (userId : String) : Transaction Unit :=
  Body.query (fun db => if db.hasUser userId then [.user userId] else []) (fun _ => []) fun _ => .ok ()

def putLink (link : SetupLink) : Transaction Unit :=
  Body.query (fun _ => [.link link.userId, .tokenHash link.tokenHash]) (fun _ => [.putLink link]) fun db =>
    if !db.hasUser link.userId then .error .unknownUser
    else if db.setupLinks.any fun other => other.tokenHash == link.tokenHash && other.userId != link.userId then
      .error .duplicate
    else .ok ()

/-- `DELETE FROM setup_links WHERE user_id=$1`. -/
def unlink (userId : String) : Transaction Unit :=
  Body.query (fun db => if (db.link? userId).isSome then [.link userId] else [])
    (fun db => if (db.link? userId).isSome then [.unlink userId] else []) fun _ => .ok ()

/-- `DELETE FROM session WHERE user_id=$1 AND setup_token_hash IS NOT NULL`: the sessions the statement sees. -/
def dropSetupSessions (userId : String) : Transaction Unit :=
  Body.query (fun _ => []) (fun db => [.dropSessions (db.setupSessions userId)]) fun _ => .ok ()

def insertSession (session : SessionRow) : Transaction Unit :=
  Body.query (fun _ => [.session session.id]) (fun _ => [.addSession session]) fun db =>
    if !db.hasUser session.userId then .error .unknownUser
    else if db.sessions.any fun other => other.id == session.id then .error .duplicate
    else .ok ()

def insertPasskey (passkey : Passkey) : Transaction Unit :=
  Body.query (fun _ => [.credential passkey.credentialId]) (fun _ => [.addPasskey passkey]) fun db =>
    if !db.hasUser passkey.userId then .error .unknownUser
    else if db.passkeys.any fun other => other.credentialId == passkey.credentialId || other.id == passkey.id then
      .error .duplicate
    else .ok ()

def setPrf (which : Passkey → Bool) (prfEnabled : Bool) : Transaction Unit :=
  Body.query (fun _ => []) (fun db => [.setPrf ((db.passkeys.filter which).map Passkey.id) prfEnabled]) fun _ => .ok ()

/-! ## Issuing and verifying links -/

/-- A link that is sent by mail needs a channel, and the last one is a minute old. -/
def checkDelivery (userId : String) (now : ℕ) : Option (List String) → Transaction Unit
  | none => pure ()
  | some origins => do
    let channel ← Body.select fun db : Tables => (db.users.find? fun user => user.id == userId).bind User.notificationChannel
    Body.require (channel.any origins.contains) .mailUnavailable
    let recent ← Body.select fun db : Tables => (db.link? userId).any fun link => now < link.createdAt + 60
    Body.require (recent = false) .waitOneMinute

def issueSetupLink (userId token : String) (now : ℕ) (delivery : Option (List String)) : Transaction Answer := do
  lockUser userId
  let registered ← Body.select fun db : Tables => db.hasPasskey userId
  if registered then pure (.issued none)
  else do
    checkDelivery userId now delivery
    putLink ⟨userId, sha256Hex token, now, now + setupLinkSeconds, none⟩
    dropSetupSessions userId
    pure (.issued (some token))

def verifySetupLink (token : String) (now : ℕ) : Transaction Answer :=
  if !isToken token then pure (.verified none)
  else do
    let row ← Body.select fun db : Tables =>
      db.setupLinks.find? fun link => link.tokenHash == sha256Hex token && now < link.expiresAt
    match row with
    | none => pure (.verified none)
    | some row => do
      let active ← Body.select fun db : Tables => db.hasUser row.userId
      if !active then pure (.verified none)
      else do
        Body.query (fun db => if (db.link? row.userId).isSome then [.link row.userId] else [])
          (fun db => if (db.link? row.userId).isSome then [.touch row.userId now] else []) fun _ => .ok ()
        pure (.verified (some (row.userId, sha256Hex token)))

/-! ## What the adapter creates -/

def createSetupSession (id userId setupHash : String) (now : ℕ) : Transaction Answer := do
  lockUser userId
  let pending ← Body.select fun db : Tables => db.pending userId setupHash now
  Body.require (pending = true) .linkUnavailable
  insertSession ⟨id, userId, some setupHash, now + setupSessionSeconds⟩
  pure .session

def createSession (id userId : String) (expiresAt : ℕ) : Transaction Answer := do
  insertSession ⟨id, userId, none, expiresAt⟩
  pure .session

/-- What the verified registration of a request says. -/
structure Registration where
  sessionId : String
  userId : String
  prfEnabled : Bool
deriving DecidableEq, Repr

/-- The session is one of the account; a setup session needs its link pending still. Whether it is one is answered. -/
def enrollingSession (registration : Registration) (userId : String) (now : ℕ) : Transaction Bool := do
  let session ← Body.query (fun _ => []) (fun _ => []) fun db : Tables =>
    match (db.session? registration.sessionId userId).filter fun session => now < session.expiresAt with
    | some session => .ok session
    | none => .error .sessionUnavailable
  match session.setupTokenHash with
  | none => pure false
  | some hash => do
    let pending ← Body.select fun db : Tables => db.pending userId hash now
    Body.require (pending = true) .linkUnavailable
    pure true

/-- The passkey is inserted, and with it the setup link and the setup sessions of the account are gone. -/
def createPasskey (registration : Option Registration) (id userId credentialId : String) (now : ℕ) :
    Transaction Answer := do
  lockUser userId
  match registration.filter fun registration => registration.userId == userId with
  | none => .fail .enrollmentContext
  | some registration => do
    let bootstrap ← enrollingSession registration userId now
    insertPasskey ⟨id, userId, credentialId, now, false⟩
    setPrf (fun passkey => passkey.userId == userId && passkey.credentialId == credentialId) registration.prfEnabled
    unlink userId
    dropSetupSessions userId
    pure (.passkey bootstrap)

/-- `ORDER BY created_at DESC LIMIT 1`. -/
def newest (passkeys : List Passkey) : Option Passkey :=
  passkeys.foldl (fun best passkey =>
    match best with
    | none => some passkey
    | some other => if other.createdAt < passkey.createdAt then some passkey else best) none

def registered (db : Tables) (userId : String) : Option String → Option Passkey
  | some credentialId =>
    db.passkeys.find? fun passkey => passkey.userId == userId && passkey.credentialId == credentialId
  | none => newest (db.passkeys.filter fun passkey => passkey.userId == userId)

def finalize (requirePrf : Bool) (userId : String) (credentialId : Option String) (prfEnabled : Bool) :
    Transaction Answer := do
  let passkey ← Body.query (fun _ => []) (fun _ => []) fun db : Tables =>
    match registered db userId credentialId with
    | some passkey => .ok passkey
    | none => .error .passkeyNotFound
  Body.require (requirePrf = true → prfEnabled = true) .prfRequired
  setPrf (fun other => other.id == passkey.id) prfEnabled
  unlink userId
  pure .done

/-- A session ends when its holder signs out, or is removed once it has expired. -/
def endSession (id : String) : Transaction Answer := do
  Body.query (fun _ => []) (fun _ => [.dropSessions [id]]) fun _ => .ok ()
  pure .done

/-! ## Requests -/

/-- `now` is the start of the transaction. -/
inductive Call
  | issueSetupLink (userId token : String) (now : ℕ) (delivery : Option (List String))
  | verifySetupLink (token : String) (now : ℕ)
  | createSetupSession (id userId setupHash : String) (now : ℕ)
  | createSession (id userId : String) (expiresAt : ℕ)
  | createPasskey (registration : Option Registration) (id userId credentialId : String) (now : ℕ)
  | finalize (requirePrf : Bool) (userId : String) (credentialId : Option String) (prfEnabled : Bool)
  | endSession (id : String)
deriving DecidableEq, Repr

def body : Call → Transaction Answer
  | .issueSetupLink userId token now delivery => issueSetupLink sha256Hex userId token now delivery
  | .verifySetupLink token now => verifySetupLink sha256Hex token now
  | .createSetupSession id userId setupHash now => createSetupSession id userId setupHash now
  | .createSession id userId expiresAt => createSession id userId expiresAt
  | .createPasskey registration id userId credentialId now => createPasskey registration id userId credentialId now
  | .finalize requirePrf userId credentialId prfEnabled => finalize requirePrf userId credentialId prfEnabled
  | .endSession id => endSession id

abbrev World := System Tables Lock Change Refusal Call Answer

abbrev Entry := Call × Except Refusal Answer

/-- Accounts that nobody has opened yet. -/
def World.start (users : List User) : World := ⟨⟨users, [], [], []⟩, [], []⟩

end Requests

end AvenOS.Identity
