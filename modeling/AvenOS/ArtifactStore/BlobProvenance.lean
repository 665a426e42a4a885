import AvenOS.ArtifactStore.GraphRun

/-! # Where the bytes of an artifact come from

Blobs are shared by all scopes. What is read of an artifact was uploaded into its own scope all the same, and
no cleanup removes it. -/
namespace AvenOS.ArtifactStore

/-- `get_content` -/
def Db.getContent (db : Db) (scopeId artifactId : Uuid) : Option ByteArray := do
  let row ← db.artifact? scopeId artifactId
  let blob ← row.blob
  let stored ← db.blob? blob.1
  return stored.bytes

/-- The bytes stored under a digest have it and the length, and were uploaded into the scope. -/
def Sourced (kernel : Kernel) (db : Db) (events : List StoreEvent) (scopeId : Uuid) (sha256 : String) (length : ℤ) : Prop :=
  ∃ row, db.blob? sha256 = some row ∧ sha256Hex kernel.sha256 row.bytes = sha256 ∧ row.bytes.size = length ∧
    ∃ publisher claimId, .uploaded publisher scopeId claimId row.bytes ∈ events

structure Provenance (kernel : Kernel) (db : Db) (events : List StoreEvent) : Prop where
  claims : ∀ row ∈ db.claims, Sourced kernel db events row.scopeId row.blobSha256 row.blobLength
  artifacts : ∀ row ∈ db.artifacts, ∀ blob, row.blob = some blob → Sourced kernel db events row.scopeId blob.1 blob.2

section Steps
variable {kernel : Kernel} {catalogs : TypeCatalog → Prop} {start db last : Db} {past : List Db}
  {events added : List StoreEvent} {prepared : PreparedPublication} {now lifetime : Timestamp} {publisher : StablePublisher}
  {scopeId claimId : Uuid} {declaration : UploadDeclaration} {bytes : ByteArray} {admission : UploadAdmission}
  {sha256 : String} {length : ℤ}

theorem Sourced.mono (h : Sourced kernel db events scopeId sha256 length) (hblob : last.blob? sha256 = db.blob? sha256)
    (added : List StoreEvent) : Sourced kernel last (added ++ events) scopeId sha256 length := by
  obtain ⟨row, hrow, hdigest, hlength, publisher, claimId, hupload⟩ := h
  exact ⟨row, hblob.trans hrow, hdigest, hlength, publisher, claimId, List.mem_append_right _ hupload⟩

theorem Cleaned.blob_used (h : Cleaned db last) (hused : last.blobUsed sha256) : last.blob? sha256 = db.blob? sha256 := by
  rcases h.blob sha256 with hsame | ⟨-, hunused⟩
  · exact hsame
  · exact absurd hused hunused

theorem Cleaned.provenance (hcleaned : Cleaned db last) (h : Provenance kernel db events) :
    Provenance kernel last events := by
  have hartifacts : last.artifacts = db.artifacts := hcleaned.sameGraph.artifacts
  refine ⟨fun row hrow => ?_, fun row hrow blob hblob => ?_⟩
  · exact (h.claims row (hcleaned.claims.subset hrow)).mono (hcleaned.blob_used (.inr ⟨row, hrow, rfl⟩)) []
  · refine (h.artifacts row (hartifacts ▸ hrow) blob hblob).mono (hcleaned.blob_used (.inl ⟨row, hrow, ?_⟩)) []
    rw [hblob, Option.map_some]

theorem Sourced.stored (hstored : Stored declaration bytes db last) (h : Sourced kernel db events scopeId sha256 length)
    (added : List StoreEvent) : Sourced kernel last (added ++ events) scopeId sha256 length := by
  obtain ⟨row, hrow, -⟩ := id h
  refine h.mono ?_ added
  rcases hstored.blobs with ⟨-, hadded⟩ | hsame
  · rw [Db.blob?, hadded, List.find?_append, ← Db.blob?, hrow, Option.some_or]
  · rw [Db.blob?, hsame, ← Db.blob?]

variable {result : UploadClaimResult}

theorem replayUploadClaim_replayed {row : ClaimRow}
    (h : replayUploadClaim now publisher scopeId claimId declaration row = .ok result) : result.replayed = true := by
  rw [replayUploadClaim] at h
  split at h
  · cases h
  · obtain ⟨length, -, hrest⟩ := ExceptLoop.bind_eq_ok h
    split_ifs at hrest
    cases hrest
    rfl

theorem Staged.provenance (hsize : bytes.size = declaration.length.toNat)
    (hdigest : sha256Hex kernel.sha256 bytes = declaration.sha256)
    (hstaged : Staged now publisher scopeId claimId declaration bytes lifetime admission db result last)
    (h : Provenance kernel db events) : Provenance kernel last
      ((if result.replayed then [] else [.uploaded publisher scopeId claimId bytes]) ++ events) := by
  cases hstaged with
  | replayed hrow hreplay =>
    rw [replayUploadClaim_replayed hreplay]
    exact h
  | claimed hnone hstored hfresh =>
    rw [hfresh]
    have hclaims := congrArg Db.claims hstored.frame
    have hartifacts := congrArg Db.artifacts hstored.frame
    refine ⟨fun row hrow => ?_, fun row hrow blob hblob => ?_⟩
    · rcases List.mem_append.mp hrow with hold | hnew
      · exact (h.claims row (hclaims ▸ hold)).stored hstored _
      · obtain rfl := List.mem_singleton.mp hnew
        obtain ⟨row, hfound, -, rfl⟩ := hstored.stored
        exact ⟨row, hfound, hdigest, congrArg Nat.cast hsize, publisher, claimId, List.mem_cons_self⟩
    · exact (h.artifacts row (hartifacts ▸ hrow) blob hblob).stored hstored _

/-- The blob of a new artifact stands under an authority of its scope. -/
theorem Authorizes.sourced {blob : DeclaredBlob} {authority : BlobAuthority}
    (h : Authorizes now prepared db blob authority) (hprovenance : Provenance kernel db events) :
    Sourced kernel db events prepared.context.scopeId blob.sha256 blob.length.toNat := by
  cases h with
  | uploadClaim hrow hclaim =>
    rw [← hclaim.scope, ← hclaim.sha256, ← hclaim.length]
    exact hprovenance.claims _ (List.mem_of_find?_eq_some hrow)
  | sourceArtifact hrow hblob =>
    obtain ⟨hmem, hscope, -⟩ := artifact?_some hrow
    rw [← hscope]
    exact hprovenance.artifacts _ hmem _ hblob

theorem Commits.provenance (h : Commits kernel catalogs past db prepared last) (hprovenance : Provenance kernel db events) :
    Provenance kernel last ([.published prepared] ++ events) := by
  cases h with
  | @intro _ now _ _ _ prepared _ recorded last result _ _ hprepared _ hrecorded hconsumed =>
    have hblobs : recorded.blobs = db.blobs := by
      rw [hrecorded.last]
      refine after_same (fun change hchange db => ?_) db
      exact (graph_uploads (by rw [recordedChanges_scope hprepared.scope change hchange]; rfl) db).2.1
    have hblob : ∀ sha256, last.blob? sha256 = db.blob? sha256 := by
      intro sha256
      rw [hconsumed.frame, Db.blob?, Db.blob?, ← hblobs]
    have hartifacts : last.artifacts = db.artifacts ++ newArtifacts now prepared := by
      rw [hconsumed.sameGraph.artifacts, hrecorded.grown.artifacts]
    refine ⟨fun row hrow => ?_, fun row hrow blob hrowBlob => ?_⟩
    · obtain ⟨old, hold, hrow⟩ := ExceptLoop.forall₂_right hconsumed.rows hrow
      rw [hrecorded.claims hprepared.scope] at hold
      have hsourced := (hprovenance.claims old hold).mono (hblob _) [.published prepared]
      rcases hrow with rfl | ⟨-, rfl⟩
      · exact hsourced
      · exact hsourced
    · rw [hartifacts] at hrow
      rcases List.mem_append.mp hrow with hold | hnew
      · exact (hprovenance.artifacts row hold blob hrowBlob).mono (hblob _) _
      · obtain ⟨p, hp, rfl⟩ := List.mem_map.mp hnew
        obtain ⟨declared, hdeclared, rfl⟩ := Option.map_eq_some_iff.mp hrowBlob
        obtain ⟨authority, -, hauthorizes⟩ := hrecorded.authorized p hp declared hdeclared
        exact (hauthorizes.sourced hprovenance).mono (hblob _) _

theorem StoreStep.provenance (hstep : StoreStep kernel catalogs past db last added) (h : Provenance kernel db events) :
    Provenance kernel last (added ++ events) := by
  cases hstep with
  | publish hcatalog hread hprepare hpublish =>
    have hprepared := preparePublication_ok hprepare
    obtain ⟨rfl, rfl⟩ := hprepared.asked
    obtain ⟨-, -, hpublished⟩ := publish_ok hpublish
    cases hpublished with
    | replayed => exact h
    | committed hnone hrecorded hconsumed =>
      rw [hrecorded.replayed]
      exact (Commits.intro hcatalog hread hprepared hnone hrecorded hconsumed).provenance h
  | stage hstage =>
    obtain ⟨hsize, hdigest, cleaned, hcleaned, hstaged⟩ := stageUpload_ok hstage
    exact hstaged.provenance hsize hdigest (hcleaned.provenance h)
  | cleanup hcleanup => exact (cleanupExpiredUploads_ok hcleanup).provenance h
  | tick time => exact ⟨h.claims, h.artifacts⟩

theorem StoreRun.provenance (hblank : start.Blank) (hrun : StoreRun kernel catalogs start db past events) :
    Provenance kernel db events := by
  induction hrun with
  | start => exact ⟨by simp [hblank.claims], by simp [hblank.artifacts]⟩
  | step _ hstep ih => exact hstep.provenance ih

end Steps

/-- In every state of every run the content of an artifact can be read, has its digest and length, and was uploaded into
its scope; what a claim holds was too. -/
theorem content_provenance {kernel : Kernel} {catalogs : TypeCatalog → Prop} {start db : Db} {past : List Db}
    {events : List StoreEvent} (hblank : start.Blank) (hrun : StoreRun kernel catalogs start db past events) :
    (∀ row ∈ db.artifacts, ∀ blob, row.blob = some blob → ∃ bytes, db.getContent row.scopeId row.id = some bytes ∧
      sha256Hex kernel.sha256 bytes = blob.1 ∧ bytes.size = blob.2 ∧
        ∃ publisher claimId, .uploaded publisher row.scopeId claimId bytes ∈ events) ∧
    ∀ row ∈ db.claims, Sourced kernel db events row.scopeId row.blobSha256 row.blobLength := by
  have hprovenance := hrun.provenance hblank
  refine ⟨fun row hrow blob hblob => ?_, hprovenance.claims⟩
  obtain ⟨stored, hstored, hdigest, hlength, huploaded⟩ := hprovenance.artifacts row hrow blob hblob
  refine ⟨stored.bytes, ?_, hdigest, hlength, huploaded⟩
  have hrow : db.artifact? row.scopeId row.id = some row := (hrun.graph hblank).1.artifact? hrow
  rw [Db.getContent, hrow, Option.bind_eq_bind, Option.bind_some, hblob, Option.bind_eq_bind, Option.bind_some, hstored]
  rfl

def zeroDeclared : UploadDeclaration where
  sha256 := "00"
  length := 1
  declaredMediaType := "text/plain"

theorem content_provenance_claimed : ∃ db past events,
    StoreRun plainKernel (· = ⟨[noteDefinition]⟩) (noteDb [] []) db past events ∧ db.claims ≠ [] ∧
      ∀ row ∈ db.claims, Sourced plainKernel db events row.scopeId row.blobSha256 row.blobLength := by
  have hstage : ∃ result, (stageUpload plainKernel.sha256 0 alice ⟨"s"⟩ ⟨"c"⟩ zeroDeclared ⟨#[0]⟩ 10 amplyAdmitted).run
      postgres (noteDb [] []) = .ok (result, noteDb [stagedBlob zeroDeclared ⟨#[0]⟩]
        [stagedClaim 0 alice ⟨"s"⟩ ⟨"c"⟩ zeroDeclared 10]) := ⟨_, rfl⟩
  obtain ⟨_, hstage⟩ := hstage
  have hrun : StoreRun plainKernel (· = ⟨[noteDefinition]⟩) (noteDb [] []) _ _ _ := .step .start (.stage hstage)
  have hblank : (noteDb [] []).Blank := ⟨by decide, rfl, rfl, rfl, rfl, rfl, rfl, rfl, rfl⟩
  exact ⟨_, _, _, hrun, List.cons_ne_nil _ _, (content_provenance hblank hrun).2⟩

end AvenOS.ArtifactStore
