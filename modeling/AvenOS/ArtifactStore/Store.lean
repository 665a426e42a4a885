import Mathlib
import AvenOS.ArtifactStore.Contract
import AvenOS.Foundations.Transactions

/-! # The tables of the store

The rows of `0001_core.sql` that the modelled functions read or write, the changes their statements make,
the locks these stand under, and what a transaction that holds locks can rely on. -/
namespace AvenOS.ArtifactStore
open Transactions

/-! ## Values of the protocol -/

/-- Nanoseconds. -/
abbrev Timestamp := ℤ

structure ArtifactResult where
  localKey : LocalKey
  artifactId : Uuid
  artifactSha256 : String
  typeDefinitionSha256 : String
deriving DecidableEq, Repr

structure PublicationResult where
  scopeId : Uuid
  publicationId : Uuid
  publicationRequestSha256 : String
  committedStoreEpoch : Uuid
  scopeSequence : ℤ
  committedAt : Timestamp
  runId : Option Uuid
  artifacts : List ArtifactResult
  replayed : Bool
deriving DecidableEq, Repr

structure UploadDeclaration where
  sha256 : String
  length : UInt64
  declaredMediaType : String
deriving DecidableEq, Repr

structure UploadClaimResult where
  claimId : Uuid
  scopeId : Uuid
  sha256 : String
  length : UInt64
  declaredMediaType : String
  expiresAt : Timestamp
  replayed : Bool
deriving DecidableEq, Repr

inductive StoreError
  | database
  | reconciling
  | epochChanged (expected actual : Uuid)
  | publicationConflict
  | publicationDataLost
  | uploadConflict
  | uploadExpired
  | uploadDigestMismatch
  | stagingQuotaExceeded
  | storageQuotaExceeded
  | inputUnavailable
  | integrity (text : String)
deriving DecidableEq, Repr

structure UploadAdmission where
  maxLiveClaimsPerScope : ℤ
  maxStagedBytesPerScope : ℤ
  maxLogicalBytesPerScope : ℤ
deriving DecidableEq, Repr

/-! ## SQL integers -/

def maxBigint : ℤ := 9223372036854775807
def maxInteger : ℤ := 2147483647

def toI64 (value : UInt64) (label : String) : Except StoreError ℤ :=
  if (value.toNat : ℤ) ≤ maxBigint then .ok value.toNat
  else .error (.integrity (label ++ " exceeds SQL bigint"))

/-- `i32::try_from(value).unwrap_or(i32::MAX)`. -/
def toInteger (value : UInt32) : ℤ := min value.toNat maxInteger

/-- `i64::checked_add` of values that are not negative. -/
def checkedAdd (one other : ℤ) : Option ℤ := if one + other ≤ maxBigint then some (one + other) else none

/-! ## Rows -/

inductive WriteMode
  | normal
  | reconciling
deriving DecidableEq, Repr

inductive PublicationKind
  | roots
  | run
deriving DecidableEq, Repr

structure ScopeRow where
  id : Uuid
  nextSequence : ℤ
deriving DecidableEq, Repr

structure TypeRow where
  typeKey : TypeKey
  version : ℤ
  typeDefinitionSha256 : String
deriving DecidableEq, Repr

structure BlobRow where
  sha256 : String
  length : ℤ
  bytes : ByteArray
deriving DecidableEq

structure ClaimRow where
  claimId : Uuid
  scopeId : Uuid
  publisher : StablePublisher
  blobSha256 : String
  blobLength : ℤ
  declaredMediaType : String
  expiresAt : Timestamp
  consumedPublicationId : Option Uuid
deriving DecidableEq, Repr

structure PublicationRow where
  scopeId : Uuid
  publicationId : Uuid
  scopeSequence : ℤ
  committedStoreEpoch : Uuid
  kind : PublicationKind
  publisher : StablePublisher
  publicationRequestSha256 : String
  resultMapping : PublicationResult
  runId : Option Uuid
  committedAt : Timestamp
deriving DecidableEq, Repr

structure RunRow where
  id : Uuid
  scopeId : Uuid
  publicationId : Uuid
deriving DecidableEq, Repr

structure RunInputRow where
  scopeId : Uuid
  runId : Uuid
  role : Role
  ordinal : ℤ
  inputArtifactId : Uuid
deriving DecidableEq, Repr

/-- The columns of `artifact_records` and `artifact_contents` of one occurrence. -/
structure ArtifactRow where
  id : Uuid
  scopeId : Uuid
  publicationId : Uuid
  publicationOrdinal : ℤ
  localKey : LocalKey
  producerRunId : Option Uuid
  output : Option (Role × ℤ)
  createdAt : Timestamp
  typeKey : TypeKey
  typeVersion : ℤ
  typeDefinitionSha256 : String
  payload : CanonicalValue
  blob : Option (String × ℤ)
  artifactSha256 : String

structure ReferenceRow where
  scopeId : Uuid
  sourceArtifactId : Uuid
  targetArtifactId : Uuid
  role : Role
  ordinal : ℤ
  attributes : CanonicalValue
  targetArtifactSha256 : String

structure EvidenceRow where
  scopeId : Uuid
  runId : Uuid
  outputArtifactId : Uuid
  outputLocator : Locator
  inputRole : Role
  inputOrdinal : ℤ
  inputLocator : Locator
  ordinal : ℤ
deriving DecidableEq, Repr

/-- What is committed, and the clock of the database. -/
structure Db where
  storeEpoch : Uuid
  writeMode : WriteMode
  clock : Timestamp
  types : List TypeRow
  exclusions : List (Uuid × Uuid)
  scopes : List ScopeRow
  blobs : List BlobRow
  claims : List ClaimRow
  publications : List PublicationRow
  runs : List RunRow
  runInputs : List RunInputRow
  artifacts : List ArtifactRow
  references : List ReferenceRow
  evidence : List EvidenceRow

namespace Db

def scope? (db : Db) (scopeId : Uuid) : Option ScopeRow := db.scopes.find? fun row => row.id = scopeId

def blob? (db : Db) (sha256 : String) : Option BlobRow := db.blobs.find? fun row => row.sha256 = sha256

def claim? (db : Db) (claimId : Uuid) : Option ClaimRow := db.claims.find? fun row => row.claimId = claimId

def publication? (db : Db) (scopeId publicationId : Uuid) : Option PublicationRow :=
  db.publications.find? fun row => row.scopeId = scopeId ∧ row.publicationId = publicationId

def artifact? (db : Db) (scopeId artifactId : Uuid) : Option ArtifactRow :=
  db.artifacts.find? fun row => row.scopeId = scopeId ∧ row.id = artifactId

end Db

/-! ## Changes -/

inductive Change
  | insertBlob (row : BlobRow)
  | deleteBlob (sha256 : String)
  | insertClaim (row : ClaimRow)
  | deleteClaim (claimId : Uuid)
  | consumeClaim (claimId publicationId : Uuid)
  | setSequence (scopeId : Uuid) (sequence : ℤ)
  | insertPublication (row : PublicationRow)
  | insertRun (row : RunRow)
  | insertRunInput (row : RunInputRow)
  | insertArtifact (row : ArtifactRow)
  | insertReference (row : ReferenceRow)
  | insertEvidence (row : EvidenceRow)
  /-- The clock goes on. -/
  | tick (time : Timestamp)

def ClaimRow.consume (publicationId claimId : Uuid) (row : ClaimRow) : ClaimRow :=
  if row.claimId = claimId ∧ row.consumedPublicationId = none then
    { row with consumedPublicationId := some publicationId }
  else row

def ScopeRow.set (scopeId : Uuid) (sequence : ℤ) (row : ScopeRow) : ScopeRow :=
  if row.id = scopeId then { row with nextSequence := sequence } else row

def Change.apply : Change → Db → Db
  | insertBlob row, db => { db with blobs := db.blobs ++ [row] }
  | deleteBlob sha256, db => { db with blobs := db.blobs.filter fun row => row.sha256 ≠ sha256 }
  | insertClaim row, db => { db with claims := db.claims ++ [row] }
  | deleteClaim claimId, db => { db with claims := db.claims.filter fun row => row.claimId ≠ claimId }
  | consumeClaim claimId publicationId, db =>
    { db with claims := db.claims.map (ClaimRow.consume publicationId claimId) }
  | setSequence scopeId sequence, db => { db with scopes := db.scopes.map (ScopeRow.set scopeId sequence) }
  | insertPublication row, db => { db with publications := db.publications ++ [row] }
  | insertRun row, db => { db with runs := db.runs ++ [row] }
  | insertRunInput row, db => { db with runInputs := db.runInputs ++ [row] }
  | insertArtifact row, db => { db with artifacts := db.artifacts ++ [row] }
  | insertReference row, db => { db with references := db.references ++ [row] }
  | insertEvidence row, db => { db with evidence := db.evidence ++ [row] }
  | tick time, db => { db with clock := max db.clock time }

/-! ## Locks -/

inductive Lock
  /-- `pg_advisory_xact_lock` of the hash of a text. -/
  | advisory (text : String)
  | scopeRow (scopeId : Uuid)
  | claimRow (claimId : Uuid)
  /-- The index entry of a blob that is being inserted. -/
  | blobKey (sha256 : String)
  | blobRow (sha256 : String) (exclusive : Bool)
deriving DecidableEq, Repr

def publicationIdentity (scopeId publicationId : Uuid) : String :=
  scopeId.text ++ ":" ++ publicationId.text

/-- What excludes what; only the key share locks of blobs that are referred to go together. -/
def Lock.conflicts : Lock → Lock → Prop
  | blobRow sha256 exclusive, blobRow sha256' exclusive' =>
    sha256 = sha256' ∧ (exclusive = true ∨ exclusive' = true)
  | one, other => one = other

/-- The locks a change stands under: rows of the graph of a scope under the row of the scope. -/
def Change.needs : Change → List Lock
  | insertBlob row => [.blobKey row.sha256, .blobRow row.sha256 true]
  | deleteBlob sha256 => [.blobRow sha256 true]
  | insertClaim row => [.advisory row.claimId.text, .scopeRow row.scopeId, .claimRow row.claimId]
  | deleteClaim claimId => [.claimRow claimId]
  | consumeClaim claimId _ => [.claimRow claimId]
  | setSequence scopeId _ => [.scopeRow scopeId]
  | insertPublication row =>
    [.advisory (publicationIdentity row.scopeId row.publicationId), .scopeRow row.scopeId]
  | insertRun row => [.scopeRow row.scopeId]
  | insertRunInput row => [.scopeRow row.scopeId]
  | insertArtifact row => [.scopeRow row.scopeId]
  | insertReference row => [.scopeRow row.scopeId]
  | insertEvidence row => [.scopeRow row.scopeId]
  | tick _ => []

theorem Lock.conflicts_symm (one other : Lock) (h : one.conflicts other) : other.conflicts one := by
  cases one <;> cases other
  case blobRow.blobRow sha256 exclusive sha256' exclusive' => exact ⟨h.1.symm, h.2.symm⟩
  all_goals exact Eq.symm h

def postgres : Engine Db Lock Change where
  apply := Change.apply
  needs := Change.needs
  conflicts := Lock.conflicts
  symm := Lock.conflicts_symm

abbrev Transaction := Body Db Lock Change StoreError

/-! ## What locks protect -/

structure ScopeTables where
  scope : Option ScopeRow
  publications : List PublicationRow
  runs : List RunRow
  runInputs : List RunInputRow
  artifacts : List ArtifactRow
  references : List ReferenceRow
  evidence : List EvidenceRow

def Db.tables (db : Db) (scopeId : Uuid) : ScopeTables where
  scope := db.scope? scopeId
  publications := db.publications.filter fun row => row.scopeId = scopeId
  runs := db.runs.filter fun row => row.scopeId = scopeId
  runInputs := db.runInputs.filter fun row => row.scopeId = scopeId
  artifacts := db.artifacts.filter fun row => row.scopeId = scopeId
  references := db.references.filter fun row => row.scopeId = scopeId
  evidence := db.evidence.filter fun row => row.scopeId = scopeId

/-- Two databases are alike in what the locks protect, and in what nothing changes. -/
structure Agrees (held : List Lock) (db other : Db) : Prop where
  storeEpoch : other.storeEpoch = db.storeEpoch
  writeMode : other.writeMode = db.writeMode
  types : other.types = db.types
  exclusions : other.exclusions = db.exclusions
  tables : ∀ scopeId, Lock.scopeRow scopeId ∈ held → other.tables scopeId = db.tables scopeId
  publication : ∀ scopeId publicationId, Lock.advisory (publicationIdentity scopeId publicationId) ∈ held →
    other.publication? scopeId publicationId = db.publication? scopeId publicationId
  claim : ∀ claimId, Lock.claimRow claimId ∈ held → other.claim? claimId = db.claim? claimId
  blob : ∀ sha256 exclusive, Lock.blobRow sha256 exclusive ∈ held → other.blob? sha256 = db.blob? sha256

end AvenOS.ArtifactStore
