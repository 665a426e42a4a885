import AvenOS.ArtifactStore.Prepare

/-! # Publishing

`publish` as the statements of its transaction. A statement fails with a database error where a row it
needs is missing or a constraint of `0001_core.sql` is violated. -/
namespace AvenOS.ArtifactStore
open Transactions

/-! ## Statements -/

def advisoryLock (text : String) : Transaction Unit :=
  Body.query (fun _ => [.advisory text]) (fun _ => []) fun _ => .ok ()

def found {α : Type} (row : Option α) (error : StoreError) : Except StoreError α :=
  match row with
  | some row => .ok row
  | none => .error error

def unlessDb (condition : Prop) [Decidable condition] : Except StoreError Unit :=
  if condition then .error .database else .ok ()

/-- `SELECT id FROM artifact_scopes WHERE id=$1 FOR UPDATE` -/
def lockScope (scopeId : Uuid) : Transaction Unit :=
  Body.query (fun _ => [.scopeRow scopeId]) (fun _ => []) fun db =>
    (found (db.scope? scopeId) .database).map fun _ => ()

def storeNormal (expected : Option Uuid) (db : Db) : Except StoreError Uuid :=
  if db.writeMode ≠ .normal then .error .reconciling
  else
    match expected with
    | none => .ok db.storeEpoch
    | some epoch =>
      if epoch = db.storeEpoch then .ok db.storeEpoch else .error (.epochChanged epoch db.storeEpoch)

def assertStoreNormal (expected : Option Uuid) : Transaction Uuid :=
  Body.query (fun _ => []) (fun _ => []) (storeNormal expected)

/-! ## Admission -/

/-- `COALESCE(SUM(..),0)::bigint` -/
def sumBigint (lengths : List ℤ) : Except StoreError ℤ :=
  if lengths.sum ≤ maxBigint then .ok lengths.sum else .error .database

def ArtifactRow.blobLength (row : ArtifactRow) : ℤ := (row.blob.map Prod.snd).getD 0

def Db.logicalLengths (db : Db) (scopeId : Uuid) : List ℤ :=
  (db.artifacts.filter fun row => row.scopeId = scopeId).map ArtifactRow.blobLength

def PreparedArtifact.blobLength (artifact : PreparedArtifact) : Except StoreError ℤ :=
  match artifact.blob with
  | some blob => toI64 blob.length "blob length"
  | none => .ok 0

def addLength (total : ℤ) (artifact : PreparedArtifact) : Except StoreError ℤ := do
  let length ← artifact.blobLength
  match checkedAdd total length with
  | some total => .ok total
  | none => .error (.integrity "logical byte total overflowed")

def addedBytes (artifacts : List PreparedArtifact) : Except StoreError ℤ := artifacts.foldlM addLength 0

def sumWithin (one other bound : ℤ) : Bool :=
  match checkedAdd one other with
  | some total => total ≤ bound
  | none => false

def admitPublication (scopeId : Uuid) (prepared : PreparedPublication) (admission : UploadAdmission) :
    Transaction Unit := do
  lockScope scopeId
  let logical ← Body.query (fun _ => []) (fun _ => []) fun db => sumBigint (db.logicalLengths scopeId)
  let added ← Body.ofExcept (addedBytes prepared.artifacts)
  Body.require (sumWithin logical added admission.maxLogicalBytesPerScope) .storageQuotaExceeded

/-! ## Authorities of blobs -/

/-- `SELECT .. FROM upload_claims WHERE claim_id=$1 FOR UPDATE` -/
def lockClaim (claimId : Uuid) : Transaction ClaimRow :=
  Body.query (fun db => if (db.claim? claimId).isSome then [.claimRow claimId] else []) (fun _ => [])
    fun db => found (db.claim? claimId) .uploadExpired

def validateClaim (now : Timestamp) (prepared : PreparedPublication) (blob : DeclaredBlob) (claimId : Uuid) :
    Transaction Unit := do
  let row ← lockClaim claimId
  Body.require (row.scopeId = prepared.context.scopeId ∧ row.publisher = prepared.context.publisher ∧
    row.blobSha256 = blob.sha256) .inputUnavailable
  let length ← Body.ofExcept (toI64 blob.length "blob length")
  Body.require (row.blobLength = length ∧ now < row.expiresAt) .inputUnavailable
  Body.require (row.consumedPublicationId = none ∨
    row.consumedPublicationId = some prepared.submission.intent.publicationId) .uploadExpired

def validateSource (prepared : PreparedPublication) (blob : DeclaredBlob) (artifactId : Uuid) :
    Transaction Unit := do
  let row ← Body.query (fun _ => []) (fun _ => []) fun db =>
    found (db.artifact? prepared.context.scopeId artifactId) .inputUnavailable
  Body.require (row.blob.map Prod.fst = some blob.sha256) .inputUnavailable
  let length ← Body.ofExcept (toI64 blob.length "blob length")
  Body.require (row.blob.map Prod.snd = some length) .inputUnavailable

def validateBlobAuthority (now : Timestamp) (prepared : PreparedPublication) (artifact : PreparedArtifact) :
    Transaction Unit :=
  match artifact.blob with
  | none => pure ()
  | some blob =>
    match prepared.submission.authority? artifact.localKey with
    | none => .fail .inputUnavailable
    | some (.uploadClaim claimId) => validateClaim now prepared blob claimId
    | some (.sourceArtifact artifactId) => validateSource prepared blob artifactId

def validateBlobAuthorities (now : Timestamp) (prepared : PreparedPublication) : Transaction Unit :=
  prepared.artifacts.forM (validateBlobAuthority now prepared)

/-! ## Rows of a publication -/

/-- `UPDATE artifact_scopes SET next_sequence=next_sequence+1 .. RETURNING next_sequence` -/
def takeSequence (scopeId : Uuid) : Transaction ℤ :=
  Body.query (fun _ => [.scopeRow scopeId])
    (fun db => ((db.scope? scopeId).map fun row => Change.setSequence scopeId (row.nextSequence + 1)).toList)
    fun db =>
      match db.scope? scopeId with
      | some row => if row.nextSequence + 1 ≤ maxBigint then .ok (row.nextSequence + 1) else .error .database
      | none => .error .database

def publicationResult (now : Timestamp) (epoch : Uuid) (sequence : ℤ) (prepared : PreparedPublication) :
    PublicationResult where
  scopeId := prepared.submission.intent.scopeId
  publicationId := prepared.submission.intent.publicationId
  publicationRequestSha256 := prepared.publicationRequestSha256
  committedStoreEpoch := epoch
  scopeSequence := sequence
  committedAt := now
  runId := prepared.runId
  artifacts := prepared.artifacts.map fun artifact =>
    { localKey := artifact.localKey
      artifactId := artifact.id
      artifactSha256 := artifact.artifactSha256
      typeDefinitionSha256 := artifact.typeDefinitionSha256 }
  replayed := false

def publicationRow (prepared : PreparedPublication) (result : PublicationResult) : PublicationRow where
  scopeId := prepared.submission.intent.scopeId
  publicationId := prepared.submission.intent.publicationId
  scopeSequence := result.scopeSequence
  committedStoreEpoch := result.committedStoreEpoch
  kind := if prepared.submission.intent.body.isRun then .run else .roots
  publisher := prepared.context.publisher
  publicationRequestSha256 := prepared.publicationRequestSha256
  resultMapping := result
  runId := prepared.runId
  committedAt := result.committedAt

def insertPublicationRow (row : PublicationRow) : Transaction Unit :=
  Body.query (fun _ => []) (fun _ => [.insertPublication row]) fun db =>
    unlessDb (∃ other ∈ db.publications, other.scopeId = row.scopeId ∧
      (other.publicationId = row.publicationId ∨ other.scopeSequence = row.scopeSequence))

def insertRunRow (row : RunRow) : Transaction Unit :=
  Body.query (fun _ => []) (fun _ => [.insertRun row]) fun db =>
    unlessDb (∃ other ∈ db.runs, other.scopeId = row.scopeId ∧
      (other.id = row.id ∨ other.publicationId = row.publicationId))

def insertRunInputRow (row : RunInputRow) : Transaction Unit :=
  Body.query (fun _ => []) (fun _ => [.insertRunInput row]) fun db =>
    unlessDb ((∃ other ∈ db.runInputs, other.scopeId = row.scopeId ∧ other.runId = row.runId ∧
      other.role = row.role ∧ other.ordinal = row.ordinal) ∨
      (db.artifact? row.scopeId row.inputArtifactId).isNone)

def runRow (prepared : PreparedPublication) (runId : Uuid) : RunRow where
  id := runId
  scopeId := prepared.submission.intent.scopeId
  publicationId := prepared.submission.intent.publicationId

def runInputRow (prepared : PreparedPublication) (runId : Uuid) (input : RunInput) : RunInputRow where
  scopeId := prepared.submission.intent.scopeId
  runId := runId
  role := input.role
  ordinal := toInteger input.ordinal
  inputArtifactId := input.artifactId

def PreparedPublication.run? (prepared : PreparedPublication) : Option (RunIntent × Uuid) :=
  match prepared.submission.intent.body, prepared.runId with
  | .run intent, some runId => some (intent, runId)
  | _, _ => none

def insertPublication (prepared : PreparedPublication) (result : PublicationResult) : Transaction Unit := do
  insertPublicationRow (publicationRow prepared result)
  match prepared.run? with
  | some (run, runId) => do
    insertRunRow (runRow prepared runId)
    run.inputs.forM fun input => insertRunInputRow (runInputRow prepared runId input)
  | none => pure ()

def artifactRow (now : Timestamp) (prepared : PreparedPublication) (artifact : PreparedArtifact) :
    ArtifactRow where
  id := artifact.id
  scopeId := prepared.context.scopeId
  publicationId := prepared.submission.intent.publicationId
  publicationOrdinal := toInteger artifact.publicationOrdinal
  localKey := artifact.localKey
  producerRunId := prepared.runId
  output := artifact.output.map fun output => (output.role, toInteger output.ordinal)
  createdAt := now
  typeKey := artifact.typeKey
  typeVersion := toInteger artifact.typeVersion
  typeDefinitionSha256 := artifact.typeDefinitionSha256
  payload := artifact.payload
  blob := artifact.blob.map fun blob => (blob.sha256, blob.length.toNat)
  artifactSha256 := artifact.artifactSha256

/-- Rows of one scope that a unique key keeps apart. -/
def ArtifactRow.Clashes (row other : ArtifactRow) : Prop :=
  other.scopeId = row.scopeId ∧
    (other.id = row.id ∨
      other.publicationId = row.publicationId ∧
        (other.localKey = row.localKey ∨ other.publicationOrdinal = row.publicationOrdinal) ∨
      row.producerRunId.isSome ∧ other.producerRunId = row.producerRunId ∧ row.output.isSome ∧
        other.output = row.output)

instance (row other : ArtifactRow) : Decidable (row.Clashes other) :=
  inferInstanceAs (Decidable (_ ∧ _))

def sharedBlob (sha256 : Option String) (db : Db) : List Lock :=
  match sha256 with
  | some sha256 => if (db.blob? sha256).isSome then [.blobRow sha256 false] else []
  | none => []

def Db.hasBlob (db : Db) (sha256 : Option String) : Prop :=
  match sha256 with
  | some sha256 => (db.blob? sha256).isSome
  | none => True

instance (db : Db) (sha256 : Option String) : Decidable (db.hasBlob sha256) :=
  match sha256 with
  | some sha256 => inferInstanceAs (Decidable ((db.blob? sha256).isSome = true))
  | none => inferInstanceAs (Decidable True)

def insertArtifactRow (row : ArtifactRow) : Transaction Unit :=
  Body.query (sharedBlob (row.blob.map Prod.fst)) (fun _ => [.insertArtifact row]) fun db =>
    unlessDb ((∃ other ∈ db.artifacts, row.Clashes other) ∨
      row.producerRunId.isSome ≠ row.output.isSome ∨
      (⟨row.typeKey, row.typeVersion, row.typeDefinitionSha256⟩ : TypeRow) ∉ db.types ∨
      ¬db.hasBlob (row.blob.map Prod.fst))

def insertReferenceRow (row : ReferenceRow) : Transaction Unit :=
  Body.query (fun _ => []) (fun _ => [.insertReference row]) fun db =>
    unlessDb ((∃ other ∈ db.references, other.scopeId = row.scopeId ∧
        other.sourceArtifactId = row.sourceArtifactId ∧ other.role = row.role ∧
        other.ordinal = row.ordinal) ∨
      (db.artifact? row.scopeId row.targetArtifactId).map (·.artifactSha256) ≠ some row.targetArtifactSha256)

def insertEvidenceRow (row : EvidenceRow) : Transaction Unit :=
  Body.query (fun _ => []) (fun _ => [.insertEvidence row]) fun db =>
    unlessDb ((∃ other ∈ db.evidence, other.scopeId = row.scopeId ∧ other.runId = row.runId ∧
        other.ordinal = row.ordinal) ∨
      (db.artifact? row.scopeId row.outputArtifactId).isNone ∨
      ∀ input ∈ db.runInputs, ¬(input.scopeId = row.scopeId ∧ input.runId = row.runId ∧
        input.role = row.inputRole ∧ input.ordinal = row.inputOrdinal))

def referenceRow (scopeId sourceArtifactId : Uuid) (reference : PreparedReference) : ReferenceRow where
  scopeId := scopeId
  sourceArtifactId := sourceArtifactId
  targetArtifactId := reference.targetArtifactId
  role := reference.role
  ordinal := toInteger reference.ordinal
  attributes := reference.attributes
  targetArtifactSha256 := reference.targetArtifactSha256

def insertArtifact (now : Timestamp) (prepared : PreparedPublication) (artifact : PreparedArtifact) :
    Transaction Unit := do
  let _ ← Body.ofExcept artifact.blobLength
  insertArtifactRow (artifactRow now prepared artifact)
  artifact.references.forM fun reference =>
    insertReferenceRow (referenceRow prepared.context.scopeId artifact.id reference)

def evidenceRow (prepared : PreparedPublication) (runId outputArtifactId : Uuid) (evidence : EvidenceIntent) :
    EvidenceRow where
  scopeId := prepared.context.scopeId
  runId := runId
  outputArtifactId := outputArtifactId
  outputLocator := evidence.outputLocator
  inputRole := evidence.inputRole
  inputOrdinal := toInteger evidence.inputOrdinal
  inputLocator := evidence.inputLocator
  ordinal := toInteger evidence.ordinal

/-- One piece of evidence; `prepare_publication` has made sure that its output is there. -/
def insertEvidence (prepared : PreparedPublication) (runId : Uuid) (evidence : EvidenceIntent) :
    Transaction Unit :=
  match prepared.artifacts.find? fun artifact => artifact.localKey = evidence.outputLocalKey with
  | some artifact => insertEvidenceRow (evidenceRow prepared runId artifact.id evidence)
  | none => .fail (.integrity "no entry found for key")

def insertArtifacts (now : Timestamp) (prepared : PreparedPublication) : Transaction Unit := do
  prepared.artifacts.forM (insertArtifact now prepared)
  match prepared.run? with
  | some (_, runId) => prepared.submission.intent.evidence.forM (insertEvidence prepared runId)
  | none => pure ()

/-! ## Consumption -/

def Db.unconsumed (db : Db) (claimId : Uuid) : Bool :=
  (db.claim? claimId).any fun row => row.consumedPublicationId = none

/-- `UPDATE upload_claims SET consumed_publication_id=$1 WHERE claim_id=$2 AND consumed_publication_id IS NULL` -/
def consumeUploadClaim (publicationId : Uuid) (authority : BlobAuthority) : Transaction Unit :=
  match authority with
  | .uploadClaim claimId =>
    Body.query (fun db => if db.unconsumed claimId then [.claimRow claimId] else [])
      (fun db => if db.unconsumed claimId then [.consumeClaim claimId publicationId] else []) fun _ => .ok ()
  | .sourceArtifact _ => pure ()

def consumeUploadClaims (prepared : PreparedPublication) : Transaction Unit :=
  (prepared.submission.blobAuthorities.map Prod.snd).forM
    (consumeUploadClaim prepared.submission.intent.publicationId)

/-! ## The transaction -/

/-- The answer to a publication that is committed already. -/
def replayPublication (prepared : PreparedPublication) (row : PublicationRow) :
    Except StoreError PublicationResult :=
  if row.publisher = prepared.context.publisher ∧
      row.publicationRequestSha256 = prepared.publicationRequestSha256 then
    .ok { row.resultMapping with replayed := true }
  else .error .publicationConflict

def notExcluded (scopeId publicationId : Uuid) : Transaction Unit :=
  Body.query (fun _ => []) (fun _ => []) fun db =>
    if (scopeId, publicationId) ∈ db.exclusions then .error .publicationDataLost else .ok ()

/-- Everything a new publication does before it consumes its claims. -/
def recordPublication (now : Timestamp) (epoch : Uuid) (prepared : PreparedPublication)
    (admission : UploadAdmission) : Transaction PublicationResult := do
  admitPublication prepared.submission.intent.scopeId prepared admission
  notExcluded prepared.submission.intent.scopeId prepared.submission.intent.publicationId
  validateBlobAuthorities now prepared
  let sequence ← takeSequence prepared.submission.intent.scopeId
  insertPublication prepared (publicationResult now epoch sequence prepared)
  insertArtifacts now prepared
  pure (publicationResult now epoch sequence prepared)

/-- What a publication does once its identity is locked and looked up. -/
def publishFound (now : Timestamp) (epoch : Uuid) (prepared : PreparedPublication) (admission : UploadAdmission) :
    Option PublicationRow → Transaction PublicationResult
  | some row => Body.ofExcept (replayPublication prepared row)
  | none => do
    let result ← recordPublication now epoch prepared admission
    consumeUploadClaims prepared
    pure result

def publish (now : Timestamp) (expectedEpoch : Uuid) (prepared : PreparedPublication)
    (admission : UploadAdmission) : Transaction PublicationResult := do
  let intent := prepared.submission.intent
  let epoch ← assertStoreNormal (some expectedEpoch)
  advisoryLock (publicationIdentity intent.scopeId intent.publicationId)
  let row ← Body.select fun db => db.publication? intent.scopeId intent.publicationId
  publishFound now epoch prepared admission row

end AvenOS.ArtifactStore
