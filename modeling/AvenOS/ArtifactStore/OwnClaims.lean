import AvenOS.ArtifactStore.PrepareRun
import AvenOS.ArtifactStore.PublishRun

/-! # The claims a publication consumes

The authorities are validated for the artifacts that declare a blob and consumed for every entry of the map.
A publication consumes only its own claims exactly where no other claim that is free is named. -/
namespace AvenOS.ArtifactStore
open Transactions

def DeclaredAuthority (submission : PublicationSubmission) (blob : DeclaredBlob) (claimId : Uuid) : Prop :=
  ∃ artifact ∈ submission.intent.artifacts, artifact.blob = some blob ∧
    submission.authority? artifact.localKey = some (.uploadClaim claimId)

/-- Consumption as it is meant: of declared authorities of the same scope and publisher, unexpired and of
the declared digest and length, and once. -/
structure ConsumesOwn (now : Timestamp) (context : RequestContext) (submission : PublicationSubmission)
    (db last : Db) : Prop where
  own : ∀ claimId row row', db.claim? claimId = some row → last.claim? claimId = some row' →
    row'.consumedPublicationId ≠ row.consumedPublicationId →
      ∃ blob, DeclaredAuthority submission blob claimId ∧ row.scopeId = submission.intent.scopeId ∧
        row.publisher = context.publisher ∧ now < row.expiresAt ∧ row.blobSha256 = blob.sha256 ∧
        row.blobLength = blob.length.toNat
  foreign : ∀ claimId row, db.claim? claimId = some row →
    row.scopeId ≠ submission.intent.scopeId ∨ row.publisher ≠ context.publisher →
      last.claim? claimId = some row
  once : ∀ claimId row, db.claim? claimId = some row → row.consumedPublicationId ≠ none →
    last.claim? claimId = some row

def NamesOwn (submission : PublicationSubmission) (db : Db) : Prop :=
  (db.publication? submission.intent.scopeId submission.intent.publicationId).isSome ∨
    ∀ claimId ∈ submission.claimIds, db.unconsumed claimId →
      ∃ blob, DeclaredAuthority submission blob claimId

/-! ## Consumption -/

section Consumption
variable {kernel : Kernel} {newId : ℕ → Uuid} {now : Timestamp} {expectedEpoch : Uuid}
  {context : RequestContext} {submission : PublicationSubmission} {catalog : TypeCatalog}
  {existing : Uuid → Option ExistingArtifact} {prepared : PreparedPublication} {admission : UploadAdmission}
  {db last : Db} {result : PublicationResult}

theorem Recorded.claims (h : Recorded now expectedEpoch prepared admission db result last)
    (hscope : prepared.context.scopeId = prepared.submission.intent.scopeId) : last.claims = db.claims := by
  rw [h.last]
  refine after_same (fun change hchange db => ?_) db
  exact (graph_uploads (by rw [recordedChanges_scope hscope change hchange]; rfl) db).1

theorem Recorded.claim? (h : Recorded now expectedEpoch prepared admission db result last)
    (hscope : prepared.context.scopeId = prepared.submission.intent.scopeId) (claimId : Uuid) :
    last.claim? claimId = db.claim? claimId := by
  rw [Db.claim?, h.claims hscope, Db.claim?]

theorem DeclaredAuthority.authorized
    (hprepared : Prepared kernel newId context submission catalog existing prepared)
    (hauthorized : Authorized now prepared db) {blob : DeclaredBlob} {claimId : Uuid}
    (hdeclared : DeclaredAuthority submission blob claimId) {row : ClaimRow}
    (hrow : db.claim? claimId = some row) : ClaimAuthorizes now prepared blob row := by
  obtain ⟨artifact, hartifact, hblob, hauthority⟩ := hdeclared
  obtain ⟨p, hp, hkey, hsame⟩ := hprepared.prepared hartifact
  obtain ⟨authority, hfound, hauthorizes⟩ := hauthorized p hp blob (hsame.trans hblob)
  rw [hprepared.asked.2, hkey, hauthority] at hfound
  cases hfound
  cases hauthorizes with
  | uploadClaim hrow' hclaim =>
    rw [hrow] at hrow'
    cases hrow'
    exact hclaim

theorem ConsumesOwn.same (now : Timestamp) (context : RequestContext) (submission : PublicationSubmission)
    (db : Db) : ConsumesOwn now context submission db db where
  own := fun claimId row row' hrow hrow' hchanged => by
    rw [hrow] at hrow'
    cases hrow'
    exact absurd rfl hchanged
  foreign := fun _ _ hrow _ => hrow
  once := fun _ _ hrow _ => hrow

theorem Consumed.row {claimIds : List Uuid} {publicationId claimId : Uuid} {row : ClaimRow}
    (h : Consumed claimIds publicationId db last) (hrow : db.claim? claimId = some row) :
    last.claim? claimId = some row ∨ claimId ∈ claimIds ∧ row.consumedPublicationId = none ∧
      last.claim? claimId = some { row with consumedPublicationId := some publicationId } := by
  have hclaim := h.claim claimId
  rw [hrow, Option.map_some] at hclaim
  split_ifs at hclaim with hnamed
  · exact .inr ⟨hnamed.1, hnamed.2, hclaim⟩
  · exact .inl hclaim

theorem consumesOwn_committed (hprepared : Prepared kernel newId context submission catalog existing prepared)
    (hauthorized : Authorized now prepared db)
    (hconsumed : Consumed submission.claimIds submission.intent.publicationId db last) :
    ConsumesOwn now context submission db last ↔ ∀ claimId ∈ submission.claimIds, db.unconsumed claimId →
      ∃ blob, DeclaredAuthority submission blob claimId := by
  constructor
  · intro hown claimId hnamed hfree
    rw [Db.unconsumed, Option.any_eq_true] at hfree
    obtain ⟨row, hrow, hnone⟩ := hfree
    have hnone := of_decide_eq_true hnone
    have hclaim := hconsumed.claim claimId
    rw [hrow, Option.map_some, if_pos ⟨hnamed, hnone⟩] at hclaim
    obtain ⟨blob, hdeclared, -⟩ := hown.own claimId row _ hrow hclaim (by rw [hnone]; exact Option.some_ne_none _)
    exact ⟨blob, hdeclared⟩
  · intro hnames
    -- a claim that is consumed is a declared authority, so it was validated
    have hvalid : ∀ claimId row, db.claim? claimId = some row → claimId ∈ submission.claimIds →
        row.consumedPublicationId = none → ∃ blob, DeclaredAuthority submission blob claimId ∧
          ClaimAuthorizes now prepared blob row := by
      intro claimId row hrow hnamed hnone
      have hfree : db.unconsumed claimId := by
        rw [Db.unconsumed, hrow]
        exact decide_eq_true hnone
      obtain ⟨blob, hdeclared⟩ := hnames claimId hnamed hfree
      exact ⟨blob, hdeclared, hdeclared.authorized hprepared hauthorized hrow⟩
    have hscope : prepared.context.scopeId = submission.intent.scopeId := by
      rw [hprepared.asked.1]
      exact hprepared.scope
    refine ⟨fun claimId row row' hrow hrow' hchanged => ?_, fun claimId row hrow hforeign => ?_,
      fun claimId row hrow hconsumer => ?_⟩
    · rcases hconsumed.row hrow with hkept | ⟨hnamed, hnone, -⟩
      · rw [hkept] at hrow'
        cases hrow'
        exact absurd rfl hchanged
      · obtain ⟨blob, hdeclared, hclaim⟩ := hvalid claimId row hrow hnamed hnone
        exact ⟨blob, hdeclared, hclaim.scope.trans hscope, hclaim.publisher.trans (by rw [hprepared.asked.1]),
          hclaim.unexpired, hclaim.sha256, hclaim.length⟩
    · rcases hconsumed.row hrow with hkept | ⟨hnamed, hnone, -⟩
      · exact hkept
      · obtain ⟨blob, -, hclaim⟩ := hvalid claimId row hrow hnamed hnone
        rcases hforeign with hother | hother
        · exact absurd (hclaim.scope.trans hscope) hother
        · exact absurd (hclaim.publisher.trans (by rw [hprepared.asked.1])) hother
    · rcases hconsumed.row hrow with hkept | ⟨-, hnone, -⟩
      · exact hkept
      · exact absurd hnone hconsumer

end Consumption

/-- A publication that is answered consumes only its own claims exactly where it was committed before or
names no other claim that is free. -/
theorem consumes_own {kernel : Kernel} {newId : ℕ → Uuid} {prepareTime now : Timestamp} {expectedEpoch : Uuid}
    {context : RequestContext} {submission : PublicationSubmission} {catalog : TypeCatalog}
    {existing : Uuid → Option ExistingArtifact} {limits : Limits} {prepared : PreparedPublication}
    {admission : UploadAdmission} {db last : Db} {result : PublicationResult}
    (hprepare : preparePublication kernel newId prepareTime context submission catalog existing limits =
      .ok prepared)
    (hpublish : (publish now expectedEpoch prepared admission).run postgres db = .ok (result, last)) :
    ConsumesOwn now context submission db last ↔ NamesOwn submission db := by
  have hprepared := preparePublication_ok hprepare
  obtain ⟨-, -, hpublished⟩ := publish_ok hpublish
  have hsubmission := hprepared.asked.2
  cases hpublished with
  | replayed hrow =>
    rw [hsubmission] at hrow
    refine ⟨fun _ => Or.inl (by rw [hrow]; rfl), fun _ => .same _ _ _ _⟩
  | @committed _ recorded _ hnone hrecorded hconsumed =>
    rw [hsubmission] at hnone hconsumed
    have hscope : prepared.context.scopeId = prepared.submission.intent.scopeId := by
      rw [hprepared.asked.1, hsubmission]
      exact hprepared.scope
    have hclaim := hrecorded.claim? hscope
    have hmoved : Consumed submission.claimIds submission.intent.publicationId db
        { db with claims := last.claims } := by
      refine ⟨rfl, ?_, fun claimId => ?_⟩
      · rw [← hrecorded.claims hscope]
        exact hconsumed.rows
      · rw [← hclaim]
        exact hconsumed.claim claimId
    have hiff := consumesOwn_committed hprepared hrecorded.authorized hmoved
    have hsame : ConsumesOwn now context submission db last ↔
        ConsumesOwn now context submission db { db with claims := last.claims } :=
      ⟨fun h => ⟨h.own, h.foreign, h.once⟩, fun h => ⟨h.own, h.foreign, h.once⟩⟩
    rw [hsame, hiff, NamesOwn, hnone]
    simp only [Option.isSome_none, Bool.false_eq_true, false_or]

/-! ## A stray authority

A note without a blob, and beside it an authority for a key that no artifact has: the claim of another
publisher in another scope. -/

def emptyValue : CanonicalValue := ⟨.object [], ⟨List.Pairwise.nil, trivial⟩⟩

def noteType : TypeKey := ⟨"core.note", by decide⟩

def noteDefinition : RegisteredTypeDefinition where
  definition :=
    { typeKey := noteType
      version := 1
      schemaProfileId := "artifact-json-schema-profile-v1"
      payloadSchema := emptyValue
      blobPolicy := .optional
      referenceRules := [] }
  typeDefinitionSha256 := "d"

def plainKernel : Kernel where
  sha256 := id
  validator := fun _ _ => .ok ()

def numberedId (n : ℕ) : Uuid := ⟨toString n⟩

def alice : StablePublisher where
  issuer := "test"
  subject := "alice"

def noteArtifact : IntentArtifact where
  localKey := ⟨"note", by decide⟩
  typeKey := noteType
  typeVersion := 1
  payload := emptyValue
  blob := none
  references := []
  output := none

def strayIntent : PublicationIntent where
  commandVersion := 1
  publicationId := ⟨"p"⟩
  scopeId := ⟨"s"⟩
  body := .roots { kind := ⟨"user", by decide⟩, id := "user-1" }
  artifacts := [noteArtifact]
  evidence := []

def straySubmission : PublicationSubmission where
  intent := strayIntent
  blobAuthorities := [(⟨"other", by decide⟩, .uploadClaim ⟨"c"⟩)]
  distinct := by decide

def strayContext : RequestContext where
  publisher := alice
  scopeId := ⟨"s"⟩
  decisionExpiresAt := 1

def strayClaim : ClaimRow where
  claimId := ⟨"c"⟩
  scopeId := ⟨"t"⟩
  publisher := { issuer := "test", subject := "bob" }
  blobSha256 := "b"
  blobLength := 1
  declaredMediaType := "text/plain"
  expiresAt := 10
  consumedPublicationId := none

/-- A store that knows the type of a note and two scopes. -/
def noteDb (blobs : List BlobRow) (claims : List ClaimRow) : Db where
  storeEpoch := ⟨"e"⟩
  writeMode := .normal
  clock := 0
  types := [{ typeKey := noteType, version := 1, typeDefinitionSha256 := "d" }]
  exclusions := []
  scopes := [{ id := ⟨"s"⟩, nextSequence := 0 }, { id := ⟨"t"⟩, nextSequence := 0 }]
  blobs := blobs
  claims := claims
  publications := []
  runs := []
  runInputs := []
  artifacts := []
  references := []
  evidence := []

def strayDb : Db := noteDb [{ sha256 := "b", length := 1, bytes := ⟨#[0]⟩ }] [strayClaim]

def amplyAdmitted : UploadAdmission where
  maxLiveClaimsPerScope := 10
  maxStagedBytesPerScope := 1000
  maxLogicalBytesPerScope := 1000

def strayArtifact (sha256 : String) : PreparedArtifact where
  id := numberedId 0
  publicationOrdinal := 0
  localKey := ⟨"note", by decide⟩
  typeKey := noteType
  typeVersion := 1
  typeDefinitionSha256 := "d"
  payload := emptyValue
  blob := none
  artifactSha256 := sha256
  output := none
  references := []

def strayPrepared (digest sha256 : String) : PreparedPublication where
  context := strayContext
  submission := straySubmission
  publicationRequestSha256 := digest
  runId := none
  artifacts := [strayArtifact sha256]

theorem stray_prepared : ∃ digest sha256, preparePublication plainKernel numberedId 0 strayContext
    straySubmission ⟨[noteDefinition]⟩ (fun _ => none) Limits.default = .ok (strayPrepared digest sha256) := by
  have hrequest : ∃ digest, requestSha256 plainKernel alice strayIntent = .ok digest :=
    requestSha256_total (by decide +kernel) (by decide +kernel)
  have hpreimage : ∃ sha256, artifactSha256 plainKernel ⟨noteType, 1, "d", emptyValue, none, []⟩ = .ok sha256 :=
    artifactSha256_total (by decide +kernel) (by decide +kernel)
  obtain ⟨digest, hdigest⟩ := hrequest
  obtain ⟨sha256, hsha⟩ := hpreimage
  have hget : TypeCatalog.get ⟨[noteDefinition]⟩ noteType 1 = some noteDefinition := rfl
  have hartifact : prepareArtifact plainKernel ⟨[noteDefinition]⟩ (fun _ => none) Limits.default straySubmission
      numberedId [] noteArtifact = .ok (strayArtifact sha256) :=
    @prepareArtifact_of plainKernel numberedId straySubmission ⟨[noteDefinition]⟩ (fun _ => none) Limits.default
      noteArtifact [] noteDefinition [] sha256 (by decide) (by decide) (by decide +kernel) hget rfl rfl rfl rfl
      rfl hsha (by decide)
  have hartifacts : prepareArtifacts plainKernel ⟨[noteDefinition]⟩ (fun _ => none) Limits.default
      straySubmission numberedId [] [noteArtifact] = .ok [strayArtifact sha256] := by
    rw [prepareArtifacts, hartifact, ok_bind]
    rfl
  have hsize : ¬([noteArtifact] = [] ∨ Limits.default.maxArtifactsPerPublication < [noteArtifact].length) := by
    rintro (hnil | hmany)
    · cases hnil
    · exact absurd hmany (by decide)
  exact ⟨digest, sha256, preparePublication_of (by decide) rfl (by decide) (by decide) hsize (by decide) rfl
    hdigest hartifacts rfl⟩

def strayResult (digest sha256 : String) : PublicationResult :=
  publicationResult 0 ⟨"e"⟩ 1 (strayPrepared digest sha256)

section Published
variable (digest sha256 : String) (blobs : List BlobRow) (claims : List ClaimRow)

def strayRecorded : Db :=
  postgres.after (recordedChanges 0 (strayPrepared digest sha256) (strayResult digest sha256))
    (noteDb blobs claims)

theorem stray_recorded :
    (recordPublication 0 ⟨"e"⟩ (strayPrepared digest sha256) amplyAdmitted).run postgres (noteDb blobs claims) =
      .ok (strayResult digest sha256, strayRecorded digest sha256 blobs claims) := rfl

theorem stray_published : ∃ result last,
    (publish 0 ⟨"e"⟩ (strayPrepared digest sha256) amplyAdmitted).run postgres (noteDb blobs claims) =
      .ok (result, last) ∧ last.artifacts ≠ [] ∧
    Consumed [⟨"c"⟩] ⟨"p"⟩ (strayRecorded digest sha256 blobs claims) last := by
  have hstore : (assertStoreNormal (some ⟨"e"⟩)).run postgres (noteDb blobs claims) =
      .ok (⟨"e"⟩, noteDb blobs claims) := rfl
  have hlock : (advisoryLock (publicationIdentity ⟨"s"⟩ ⟨"p"⟩)).run postgres (noteDb blobs claims) =
      .ok (⟨⟩, noteDb blobs claims) := rfl
  have hfound : (Body.select fun db => db.publication? ⟨"s"⟩ ⟨"p"⟩ : Transaction _).run postgres
      (noteDb blobs claims) = .ok (none, noteDb blobs claims) := rfl
  obtain ⟨last, hconsume, hconsumed⟩ :=
    consumeUploadClaims_run (strayPrepared digest sha256) (strayRecorded digest sha256 blobs claims)
  refine ⟨strayResult digest sha256, last, ?_, ?_, hconsumed⟩
  · refine (Body.run_bind_of hstore).trans ?_
    refine (Body.run_bind_of hlock).trans ?_
    refine (Body.run_bind_of hfound).trans ?_
    refine (Body.run_bind_of (stray_recorded digest sha256 blobs claims)).trans ?_
    exact Body.run_bind_of hconsume
  · rw [hconsumed.frame]
    exact List.cons_ne_nil _ _

end Published

theorem consumes_own_stray : ∃ prepared result last,
    preparePublication plainKernel numberedId 0 strayContext straySubmission ⟨[noteDefinition]⟩ (fun _ => none)
      Limits.default = .ok prepared ∧
    (publish 0 ⟨"e"⟩ prepared amplyAdmitted).run postgres strayDb = .ok (result, last) ∧
    (ConsumesOwn 0 strayContext straySubmission strayDb last ↔ NamesOwn straySubmission strayDb) := by
  obtain ⟨digest, sha256, hprepare⟩ := stray_prepared
  obtain ⟨result, last, hpublish, -⟩ := stray_published digest sha256 strayDb.blobs strayDb.claims
  exact ⟨_, result, last, hprepare, hpublish, consumes_own hprepare hpublish⟩

/-- The claim of the other publisher is consumed. -/
theorem stray_claim_consumed : ∃ prepared result last,
    preparePublication plainKernel numberedId 0 strayContext straySubmission ⟨[noteDefinition]⟩ (fun _ => none)
      Limits.default = .ok prepared ∧
    (publish 0 ⟨"e"⟩ prepared amplyAdmitted).run postgres strayDb = .ok (result, last) ∧
    ¬ConsumesOwn 0 strayContext straySubmission strayDb last := by
  obtain ⟨digest, sha256, hprepare⟩ := stray_prepared
  obtain ⟨result, last, hpublish, -, hconsumed⟩ :=
    stray_published digest sha256 strayDb.blobs strayDb.claims
  have hclaim : last.claim? ⟨"c"⟩ = some { strayClaim with consumedPublicationId := some ⟨"p"⟩ } :=
    hconsumed.claim ⟨"c"⟩
  refine ⟨_, result, last, hprepare, hpublish, fun hown => ?_⟩
  have hkept := hown.foreign ⟨"c"⟩ strayClaim rfl (Or.inl (by decide))
  rw [hclaim, Option.some.injEq] at hkept
  exact absurd (congrArg ClaimRow.consumedPublicationId hkept) (by decide)

end AvenOS.ArtifactStore
