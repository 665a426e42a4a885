import AvenOS.ArtifactStore.Publish

/-! # Staged uploads

`stage_upload` and the cleanup it begins with, as the statements of their transactions. A `DELETE` looks for
its rows first and looks again at each of them when it has the row. -/
namespace AvenOS.ArtifactStore
open Transactions

/-! ## Cleanup -/

/-- `interval '24 hours'` -/
def cleanupDelay : Timestamp := 24 * 60 * 60 * 1000000000

def Db.stale (db : Db) (row : ClaimRow) : Prop :=
  row.consumedPublicationId = none ∧ row.expiresAt + cleanupDelay ≤ db.clock

instance (db : Db) (row : ClaimRow) : Decidable (db.stale row) := inferInstanceAs (Decidable (_ ∧ _))

def deleteStaleClaim (claimId : Uuid) : Transaction Unit :=
  Body.query (fun db => if (db.claim? claimId).isSome then [.claimRow claimId] else [])
    (fun db => if (db.claim? claimId).any fun row => db.stale row then [.deleteClaim claimId] else [])
    fun _ => .ok ()

def Db.blobUsed (db : Db) (sha256 : String) : Prop :=
  (∃ row ∈ db.artifacts, row.blob.map Prod.fst = some sha256) ∨ ∃ row ∈ db.claims, row.blobSha256 = sha256

instance (db : Db) (sha256 : String) : Decidable (db.blobUsed sha256) := inferInstanceAs (Decidable (_ ∨ _))

def deleteUnusedBlob (sha256 : String) : Transaction Unit :=
  Body.query (fun db => if (db.blob? sha256).isSome then [.blobRow sha256 true] else [])
    (fun _ => [.deleteBlob sha256]) fun db => unlessDb (db.blobUsed sha256)

def cleanupExpiredUploads : Transaction Unit := do
  let claims ← Body.select fun db => (db.claims.filter fun row => db.stale row).map ClaimRow.claimId
  claims.forM deleteStaleClaim
  let blobs ← Body.select fun db => (db.blobs.filter fun row => ¬db.blobUsed row.sha256).map BlobRow.sha256
  blobs.forM deleteUnusedBlob

/-! ## Staging -/

def replayUploadClaim (now : Timestamp) (publisher : StablePublisher) (scopeId claimId : Uuid)
    (declaration : UploadDeclaration) (row : ClaimRow) : Except StoreError UploadClaimResult := do
  if ¬(row.scopeId = scopeId ∧ row.publisher = publisher ∧ row.blobSha256 = declaration.sha256) then
    .error .uploadConflict
  else
    let length ← toI64 declaration.length "blob length"
    if ¬(row.blobLength = length ∧ row.declaredMediaType = declaration.declaredMediaType) then
      .error .uploadConflict
    else if row.expiresAt ≤ now ∨ row.consumedPublicationId ≠ none then .error .uploadExpired
    else
      .ok
        { claimId := claimId
          scopeId := scopeId
          sha256 := declaration.sha256
          length := declaration.length
          declaredMediaType := declaration.declaredMediaType
          expiresAt := row.expiresAt
          replayed := true }

def ClaimRow.Live (now : Timestamp) (scopeId : Uuid) (row : ClaimRow) : Prop :=
  row.scopeId = scopeId ∧ row.consumedPublicationId = none ∧ now < row.expiresAt

instance (now : Timestamp) (scopeId : Uuid) (row : ClaimRow) : Decidable (row.Live now scopeId) :=
  inferInstanceAs (Decidable (_ ∧ _))

def Db.liveClaims (db : Db) (now : Timestamp) (scopeId : Uuid) : List ClaimRow :=
  db.claims.filter fun row => row.Live now scopeId

def stagedQuota (now : Timestamp) (scopeId : Uuid) (db : Db) : Except StoreError (ℤ × ℤ) :=
  (sumBigint ((db.liveClaims now scopeId).map ClaimRow.blobLength)).map fun staged =>
    ((db.liveClaims now scopeId).length, staged)

def admitStagedUpload (now : Timestamp) (scopeId : Uuid) (length : UInt64) (admission : UploadAdmission) :
    Transaction Unit := do
  let quota ← Body.query (fun _ => []) (fun _ => []) (stagedQuota now scopeId)
  let declared ← Body.ofExcept (toI64 length "blob length")
  Body.require (quota.1 < admission.maxLiveClaimsPerScope ∧
    sumWithin quota.2 declared admission.maxStagedBytesPerScope) .stagingQuotaExceeded

/-- `INSERT INTO artifact_blobs .. ON CONFLICT (sha256) DO NOTHING` -/
def insertBlobRow (row : BlobRow) : Transaction Unit :=
  Body.query
    (fun db => if (db.blob? row.sha256).isSome then [] else [.blobKey row.sha256, .blobRow row.sha256 true])
    (fun db => if (db.blob? row.sha256).isSome then [] else [.insertBlob row]) fun _ => .ok ()

def storedBlob (row : BlobRow) (db : Db) : Except StoreError Unit := do
  let stored ← found (db.blob? row.sha256) .database
  if stored.length = row.length ∧ stored.bytes = row.bytes then .ok ()
  else .error (.integrity "deduplicated blob bytes do not match their digest binding")

def insertClaimRow (row : ClaimRow) : Transaction Unit :=
  Body.query (fun db => .claimRow row.claimId :: sharedBlob (some row.blobSha256) db)
    (fun _ => [.insertClaim row]) fun db =>
      unlessDb ((db.claim? row.claimId).isSome ∨
        (db.blob? row.blobSha256).map BlobRow.length ≠ some row.blobLength)

def stageClaim (now : Timestamp) (publisher : StablePublisher) (scopeId claimId : Uuid)
    (declaration : UploadDeclaration) (bytes : ByteArray) (lifetime : Timestamp) (admission : UploadAdmission) :
    Transaction UploadClaimResult := do
  admitStagedUpload now scopeId declaration.length admission
  let length ← Body.ofExcept (toI64 declaration.length "blob length")
  insertBlobRow { sha256 := declaration.sha256, length := length, bytes := bytes }
  Body.query (fun _ => []) (fun _ => [])
    (storedBlob { sha256 := declaration.sha256, length := length, bytes := bytes })
  insertClaimRow
    { claimId := claimId
      scopeId := scopeId
      publisher := publisher
      blobSha256 := declaration.sha256
      blobLength := length
      declaredMediaType := declaration.declaredMediaType
      expiresAt := now + lifetime
      consumedPublicationId := none }
  pure
    { claimId := claimId
      scopeId := scopeId
      sha256 := declaration.sha256
      length := declaration.length
      declaredMediaType := declaration.declaredMediaType
      expiresAt := now + lifetime
      replayed := false }

/-- What an upload does once its scope is locked and its claim looked up. -/
def stageFound (now : Timestamp) (publisher : StablePublisher) (scopeId claimId : Uuid)
    (declaration : UploadDeclaration) (bytes : ByteArray) (lifetime : Timestamp) (admission : UploadAdmission) :
    Option ClaimRow → Transaction UploadClaimResult
  | some row => Body.ofExcept (replayUploadClaim now publisher scopeId claimId declaration row)
  | none => stageClaim now publisher scopeId claimId declaration bytes lifetime admission

section Stage
variable (sha256 : ByteArray → ByteArray)

def stageUpload (now : Timestamp) (publisher : StablePublisher) (scopeId claimId : Uuid)
    (declaration : UploadDeclaration) (bytes : ByteArray) (lifetime : Timestamp) (admission : UploadAdmission) :
    Transaction UploadClaimResult := do
  Body.require (bytes.size = declaration.length.toNat ∧ sha256Hex sha256 bytes = declaration.sha256)
    .uploadDigestMismatch
  let _ ← assertStoreNormal none
  advisoryLock claimId.text
  cleanupExpiredUploads
  lockScope scopeId
  let row ← Body.select fun db => db.claim? claimId
  stageFound now publisher scopeId claimId declaration bytes lifetime admission row

end Stage

end AvenOS.ArtifactStore
