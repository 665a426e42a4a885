import AvenOS.ArtifactStore.PrepareRun
import AvenOS.ArtifactStore.UploadsRun

/-! # Runs of the store

Uploads, publications and the cleanup one after another. A publication is prepared with artifacts that were
read from the store at any earlier time. -/
namespace AvenOS.ArtifactStore
open Transactions

/-! ## Reading artifacts -/

def toU32 (value : ℤ) (label : String) : Except StoreError UInt32 :=
  if 0 ≤ value then .ok (UInt32.ofNat value.toNat) else .error (.integrity ("negative " ++ label))

def toU64 (value : ℤ) (label : String) : Except StoreError UInt64 :=
  if 0 ≤ value then .ok (UInt64.ofNat value.toNat) else .error (.integrity ("negative " ++ label))

def existingBlob : Option (String × ℤ) → Except StoreError (Option (String × UInt64))
  | none => .ok none
  | some (sha256, length) => (toU64 length "blob length").map fun length => some (sha256, length)

def existingFromRow (row : ArtifactRow) : Except StoreError ExistingArtifact := do
  let typeVersion ← toU32 row.typeVersion "type version"
  let blob ← existingBlob row.blob
  .ok
    { id := row.id
      scopeId := row.scopeId
      typeKey := row.typeKey
      typeVersion := typeVersion
      artifactSha256 := row.artifactSha256
      blob := blob }

/-- What `existing_artifacts` finds under one identifier. -/
def existingArtifact (scopeId artifactId : Uuid) (db : Db) : Except StoreError (Option ExistingArtifact) :=
  match db.artifact? scopeId artifactId with
  | some row => (existingFromRow row).map some
  | none => .ok none

/-! ## Runs -/

/-- What becomes part of the store for good. -/
inductive StoreEvent
  | uploaded (publisher : StablePublisher) (scopeId claimId : Uuid) (bytes : ByteArray)
  | published (prepared : PreparedPublication)

section Run
variable (kernel : Kernel) (catalogs : TypeCatalog → Prop)

inductive StoreStep (past : List Db) (db : Db) : Db → List StoreEvent → Prop
  | publish {newId : ℕ → Uuid} {prepareTime now : Timestamp} {expectedEpoch : Uuid} {context : RequestContext}
      {submission : PublicationSubmission} {catalog : TypeCatalog} {existing : Uuid → Option ExistingArtifact}
      {limits : Limits} {prepared : PreparedPublication} {admission : UploadAdmission} {last : Db}
      {result : PublicationResult} (hcatalog : catalogs catalog)
      (hread : ∀ artifactId artifact, existing artifactId = some artifact → ∃ earlier ∈ db :: past,
        existingArtifact submission.intent.scopeId artifactId earlier = .ok (some artifact))
      (hprepare : preparePublication kernel newId prepareTime context submission catalog existing limits =
        .ok prepared)
      (hpublish : (publish now expectedEpoch prepared admission).run postgres db = .ok (result, last)) :
      StoreStep past db last (if result.replayed then [] else [.published prepared])
  | stage {now : Timestamp} {publisher : StablePublisher} {scopeId claimId : Uuid}
      {declaration : UploadDeclaration} {bytes : ByteArray} {lifetime : Timestamp} {admission : UploadAdmission}
      {last : Db} {result : UploadClaimResult}
      (hstage : (stageUpload kernel.sha256 now publisher scopeId claimId declaration bytes lifetime
        admission).run postgres db = .ok (result, last)) :
      StoreStep past db last (if result.replayed then [] else [.uploaded publisher scopeId claimId bytes])
  | cleanup {last : Db} {u : Unit} (hcleanup : cleanupExpiredUploads.run postgres db = .ok (u, last)) :
      StoreStep past db last []
  | tick (time : Timestamp) : StoreStep past db (Change.apply (.tick time) db) []

/-- The states a store has been in, the latest apart and first, and what was added on the way. -/
inductive StoreRun (start : Db) : Db → List Db → List StoreEvent → Prop
  | start : StoreRun start start [] []
  | step {db last : Db} {past : List Db} {events added : List StoreEvent} (hrun : StoreRun start db past events)
      (hstep : StoreStep kernel catalogs past db last added) : StoreRun start last (db :: past) (added ++ events)

end Run

/-- A store in which nothing has been published or uploaded yet. -/
structure Db.Blank (db : Db) : Prop where
  scopes : ∀ row ∈ db.scopes, row.nextSequence = 0
  blobs : db.blobs = []
  claims : db.claims = []
  publications : db.publications = []
  runs : db.runs = []
  runInputs : db.runInputs = []
  artifacts : db.artifacts = []
  references : db.references = []
  evidence : db.evidence = []

/-! ## What a publication adds -/

section Rows
variable (now : Timestamp) (prepared : PreparedPublication)

def newRuns : List RunRow :=
  match prepared.run? with
  | some (_, runId) => [runRow prepared runId]
  | none => []

def newRunInputs : List RunInputRow :=
  match prepared.run? with
  | some (run, runId) => run.inputs.map (runInputRow prepared runId)
  | none => []

def newArtifacts : List ArtifactRow := prepared.artifacts.map (artifactRow now prepared)

def newReferences : List ReferenceRow :=
  prepared.artifacts.flatMap fun artifact =>
    artifact.references.map (referenceRow prepared.context.scopeId artifact.id)

def newEvidence : List EvidenceRow :=
  match prepared.run? with
  | some (_, runId) => prepared.submission.intent.evidence.filterMap (evidenceRow? prepared runId)
  | none => []

end Rows

/-- The tables of the graph, those of a scope and the new rows behind them. -/
structure Grown (now : Timestamp) (prepared : PreparedPublication) (result : PublicationResult) (db last : Db) :
    Prop where
  scopes : last.scopes =
    db.scopes.map (ScopeRow.set prepared.submission.intent.scopeId result.scopeSequence)
  publications : last.publications = db.publications ++ [publicationRow prepared result]
  runs : last.runs = db.runs ++ newRuns prepared
  runInputs : last.runInputs = db.runInputs ++ newRunInputs prepared
  artifacts : last.artifacts = db.artifacts ++ newArtifacts now prepared
  references : last.references = db.references ++ newReferences prepared
  evidence : last.evidence = db.evidence ++ newEvidence prepared

variable {α : Type} {row? : Change → Option α} {db last : Db}

variable {now : Timestamp} {prepared : PreparedPublication} {result : PublicationResult} {β γ : Type}
  {admission : UploadAdmission}

theorem recordedChanges_rows {first run artifacts evidence : List α}
    (hfirst : [.setSequence prepared.submission.intent.scopeId result.scopeSequence,
      .insertPublication (publicationRow prepared result)].filterMap row? = first)
    (hrun : (runChanges prepared).filterMap row? = run)
    (hartifacts : (prepared.artifacts.flatMap (artifactChanges now prepared)).filterMap row? = artifacts)
    (hevidence : (evidenceChanges prepared).filterMap row? = evidence) :
    (recordedChanges now prepared result).filterMap row? = first ++ (run ++ artifacts ++ evidence) := by
  rw [← hfirst, ← hrun, ← hartifacts, ← hevidence, ← List.filterMap_append, ← List.filterMap_append,
    ← List.filterMap_append]
  rfl

theorem filterMap_wrapped {wrap : α → β} {row? : β → Option γ} {f : α → γ} (h : ∀ a, row? (wrap a) = some (f a))
    (rows : List α) : (rows.map wrap).filterMap row? = rows.map f := by
  rw [List.filterMap_map, ← List.filterMap_eq_map]
  exact congrArg (fun g => rows.filterMap g) (funext h)

theorem filterMap_other {wrap : α → β} {row? : β → Option γ} (h : ∀ a, row? (wrap a) = none) (rows : List α) :
    (rows.map wrap).filterMap row? = [] := by
  rw [List.filterMap_map]
  exact List.filterMap_eq_nil_iff.mpr fun a _ => h a

theorem runChanges_other (hrun : ∀ row, row? (.insertRun row) = none)
    (hinput : ∀ row, row? (.insertRunInput row) = none) (prepared : PreparedPublication) :
    (runChanges prepared).filterMap row? = [] := by
  rw [runChanges]
  cases prepared.run? with
  | none => rfl
  | some pair =>
    exact (List.filterMap_cons_none (hrun _)).trans (filterMap_other (fun input => hinput _) _)

theorem runChanges_run (prepared : PreparedPublication) :
    (runChanges prepared).filterMap Change.run? = newRuns prepared := by
  rw [runChanges, newRuns]
  cases prepared.run? with
  | none => rfl
  | some pair =>
    have hrow : Change.run? (.insertRun (runRow prepared pair.2)) = some (runRow prepared pair.2) := rfl
    refine (List.filterMap_cons_some hrow).trans (congrArg _ ?_)
    exact filterMap_other (fun input => rfl) _

theorem runChanges_runInput (prepared : PreparedPublication) :
    (runChanges prepared).filterMap Change.runInput? = newRunInputs prepared := by
  rw [runChanges, newRunInputs]
  cases prepared.run? with
  | none => rfl
  | some pair =>
    have hrow : ∀ input, Change.runInput? (.insertRunInput (runInputRow prepared pair.2 input)) =
        some (runInputRow prepared pair.2 input) := fun input => rfl
    exact (List.filterMap_cons_none rfl).trans (filterMap_wrapped hrow _)

theorem artifactChanges_other (hartifact : ∀ row, row? (.insertArtifact row) = none)
    (hreference : ∀ row, row? (.insertReference row) = none) (now : Timestamp)
    (prepared : PreparedPublication) (artifacts : List PreparedArtifact) :
    (artifacts.flatMap (artifactChanges now prepared)).filterMap row? = [] := by
  rw [List.filterMap_flatMap]
  refine List.flatMap_eq_nil_iff.mpr fun artifact _ => ?_
  exact (List.filterMap_cons_none (hartifact _)).trans (filterMap_other (fun reference => hreference _) _)

theorem artifactChanges_artifact (now : Timestamp) (prepared : PreparedPublication)
    (artifacts : List PreparedArtifact) :
    (artifacts.flatMap (artifactChanges now prepared)).filterMap Change.artifact? =
      artifacts.map (artifactRow now prepared) := by
  rw [List.filterMap_flatMap, List.map_eq_flatMap]
  refine congrArg (fun f => artifacts.flatMap f) (funext fun artifact => ?_)
  have hrow : Change.artifact? (.insertArtifact (artifactRow now prepared artifact)) =
      some (artifactRow now prepared artifact) := rfl
  refine (List.filterMap_cons_some hrow).trans (congrArg _ ?_)
  exact filterMap_other (fun reference => rfl) _

theorem artifactChanges_reference (now : Timestamp) (prepared : PreparedPublication)
    (artifacts : List PreparedArtifact) :
    (artifacts.flatMap (artifactChanges now prepared)).filterMap Change.reference? = artifacts.flatMap fun artifact =>
        artifact.references.map (referenceRow prepared.context.scopeId artifact.id) := by
  rw [List.filterMap_flatMap]
  refine congrArg (fun f => artifacts.flatMap f) (funext fun artifact => ?_)
  have hrow : ∀ reference, Change.reference?
      (.insertReference (referenceRow prepared.context.scopeId artifact.id reference)) =
        some (referenceRow prepared.context.scopeId artifact.id reference) := fun reference => rfl
  exact (List.filterMap_cons_none rfl).trans (filterMap_wrapped hrow _)

theorem evidenceChanges_eq (prepared : PreparedPublication) :
    evidenceChanges prepared = (newEvidence prepared).map Change.insertEvidence := by
  rw [evidenceChanges, newEvidence]
  cases prepared.run? with
  | none => rfl
  | some pair =>
    show (prepared.submission.intent.evidence.flatMap _) = (List.filterMap _ _).map _
    induction prepared.submission.intent.evidence with
    | nil => rfl
    | cons evidence rest ih =>
      rw [List.flatMap_cons, ih]
      cases hrow : evidenceRow? prepared pair.2 evidence with
      | none => rw [List.filterMap_cons_none hrow]; rfl
      | some row => rw [List.filterMap_cons_some hrow]; rfl

theorem evidenceChanges_other (hevidence : ∀ row, row? (.insertEvidence row) = none) (prepared : PreparedPublication) :
    (evidenceChanges prepared).filterMap row? = [] := by
  rw [evidenceChanges_eq]
  exact filterMap_other hevidence _

theorem evidenceChanges_evidence (prepared : PreparedPublication) :
    (evidenceChanges prepared).filterMap Change.evidence? = newEvidence prepared := by
  have hrow : ∀ row, Change.evidence? (.insertEvidence row) = some (id row) := fun row => rfl
  rw [evidenceChanges_eq, filterMap_wrapped hrow, List.map_id]

theorem after_scopes {changes : List Change} (h : ∀ change ∈ changes, ∀ scopeId sequence,
    change ≠ .setSequence scopeId sequence) (db : Db) : (postgres.after changes db).scopes = db.scopes := by
  refine after_same (fun change hchange db => ?_) db
  cases change
  case setSequence scopeId sequence => exact absurd rfl (h _ hchange scopeId sequence)
  all_goals rfl

theorem recordedChanges_grown (now : Timestamp) (prepared : PreparedPublication) (result : PublicationResult)
    (db : Db) : Grown now prepared result db (postgres.after (recordedChanges now prepared result) db) := by
  refine ⟨?_, ?_, ?_, ?_, ?_, ?_, ?_⟩
  · rw [recordedChanges, postgres.after_cons]
    refine (after_scopes ?_ _).trans rfl
    intro change hchange scopeId sequence hset
    have hnone : (Change.insertPublication (publicationRow prepared result) ::
        (runChanges prepared ++ prepared.artifacts.flatMap (artifactChanges now prepared) ++
          evidenceChanges prepared)).filterMap (fun change : Change =>
        match change with
        | .setSequence _ _ => some ()
        | _ => none) = [] := by
      rw [List.filterMap_cons_none rfl, List.filterMap_append, List.filterMap_append,
        runChanges_other (fun _ => rfl) (fun _ => rfl), artifactChanges_other (fun _ => rfl) (fun _ => rfl) _ _ _,
        evidenceChanges_other fun _ => rfl]
      rfl
    have hother := List.filterMap_eq_nil_iff.mp hnone change hchange
    rw [hset] at hother
    cases hother
  · rw [after_publications, recordedChanges_rows rfl (runChanges_other (fun _ => rfl) (fun _ => rfl) _)
      (artifactChanges_other (fun _ => rfl) (fun _ => rfl) _ _ _) (evidenceChanges_other (fun _ => rfl) _)]
    rfl
  · rw [after_runs, recordedChanges_rows rfl (runChanges_run prepared)
      (artifactChanges_other (fun _ => rfl) (fun _ => rfl) _ _ _) (evidenceChanges_other (fun _ => rfl) _),
      List.append_nil, List.append_nil]
    rfl
  · rw [after_runInputs, recordedChanges_rows rfl (runChanges_runInput prepared)
      (artifactChanges_other (fun _ => rfl) (fun _ => rfl) _ _ _) (evidenceChanges_other (fun _ => rfl) _),
      List.append_nil, List.append_nil]
    rfl
  · rw [after_artifacts, recordedChanges_rows rfl (runChanges_other (fun _ => rfl) (fun _ => rfl) _)
      (artifactChanges_artifact now prepared _) (evidenceChanges_other (fun _ => rfl) _), List.append_nil]
    rfl
  · rw [after_references, recordedChanges_rows rfl (runChanges_other (fun _ => rfl) (fun _ => rfl) _)
      (artifactChanges_reference now prepared _) (evidenceChanges_other (fun _ => rfl) _), List.append_nil]
    rfl
  · rw [after_evidence, recordedChanges_rows rfl (runChanges_other (fun _ => rfl) (fun _ => rfl) _)
      (artifactChanges_other (fun _ => rfl) (fun _ => rfl) _ _ _) (evidenceChanges_evidence prepared)]
    rfl

/-! ## Steps -/

structure SameGraph (db last : Db) : Prop where
  scopes : last.scopes = db.scopes
  publications : last.publications = db.publications
  runs : last.runs = db.runs
  runInputs : last.runInputs = db.runInputs
  artifacts : last.artifacts = db.artifacts
  references : last.references = db.references
  evidence : last.evidence = db.evidence

theorem Cleaned.sameGraph (h : Cleaned db last) : SameGraph db last := by
  rw [h.frame]
  exact ⟨rfl, rfl, rfl, rfl, rfl, rfl, rfl⟩

theorem SameGraph.trans {next : Db} (h : SameGraph db next) (h' : SameGraph next last) : SameGraph db last :=
  ⟨h'.scopes.trans h.scopes, h'.publications.trans h.publications, h'.runs.trans h.runs,
    h'.runInputs.trans h.runInputs, h'.artifacts.trans h.artifacts, h'.references.trans h.references,
    h'.evidence.trans h.evidence⟩

theorem Staged.sameGraph {publisher : StablePublisher} {scopeId claimId : Uuid} {declaration : UploadDeclaration}
    {bytes : ByteArray} {lifetime : Timestamp} {cleaned : Db} {result : UploadClaimResult}
    (h : Staged now publisher scopeId claimId declaration bytes lifetime admission cleaned result last) :
    SameGraph cleaned last := by
  cases h with
  | replayed => exact ⟨rfl, rfl, rfl, rfl, rfl, rfl, rfl⟩
  | claimed _ hstored _ =>
    rw [hstored.frame]
    exact ⟨rfl, rfl, rfl, rfl, rfl, rfl, rfl⟩

theorem Consumed.sameGraph {claimIds : List Uuid} {publicationId : Uuid}
    (h : Consumed claimIds publicationId db last) : SameGraph db last := by
  rw [h.frame]
  exact ⟨rfl, rfl, rfl, rfl, rfl, rfl, rfl⟩

/-- A publication that is committed: how it was prepared, what it recorded and what it consumed. -/
inductive Commits (kernel : Kernel) (catalogs : TypeCatalog → Prop) (past : List Db) (db : Db) :
    PreparedPublication → Db → Prop
  | intro {newId : ℕ → Uuid} {now : Timestamp} {epoch : Uuid} {catalog : TypeCatalog}
      {existing : Uuid → Option ExistingArtifact} {prepared : PreparedPublication} {admission : UploadAdmission}
      {recorded last : Db} {result : PublicationResult} (hcatalog : catalogs catalog)
      (hread : ∀ artifactId artifact, existing artifactId = some artifact → ∃ earlier ∈ db :: past,
        existingArtifact prepared.submission.intent.scopeId artifactId earlier = .ok (some artifact))
      (hprepared : Prepared kernel newId prepared.context prepared.submission catalog existing prepared)
      (hnone : db.publication? prepared.submission.intent.scopeId prepared.submission.intent.publicationId =
        none)
      (hrecorded : Recorded now epoch prepared admission db result recorded)
      (hconsumed : Consumed prepared.submission.claimIds prepared.submission.intent.publicationId recorded
        last) : Commits kernel catalogs past db prepared last

theorem Recorded.replayed {epoch : Uuid} (h : Recorded now epoch prepared admission db result last) :
    result.replayed = false := by
  obtain ⟨row, -, hresult⟩ := h.sequence
  rw [hresult, publicationResult]

theorem StoreStep.commits {kernel : Kernel} {catalogs : TypeCatalog → Prop} {past : List Db}
    {added : List StoreEvent} (h : StoreStep kernel catalogs past db last added) :
    (SameGraph db last ∧ ∀ prepared, .published prepared ∉ added) ∨
      ∃ prepared, added = [.published prepared] ∧ Commits kernel catalogs past db prepared last := by
  cases h with
  | @publish newId prepareTime now expectedEpoch context submission catalog existing limits prepared admission
      _ result hcatalog hread hprepare hpublish =>
    have hprepared := preparePublication_ok hprepare
    obtain ⟨hcontext, hsubmission⟩ := hprepared.asked
    subst hcontext hsubmission
    obtain ⟨-, -, hpublished⟩ := publish_ok hpublish
    cases hpublished with
    | replayed => exact .inl ⟨⟨rfl, rfl, rfl, rfl, rfl, rfl, rfl⟩, fun _ => List.not_mem_nil⟩
    | committed hnone hrecorded hconsumed =>
      right
      rw [hrecorded.replayed]
      exact ⟨prepared, rfl, .intro hcatalog hread hprepared hnone hrecorded hconsumed⟩
  | @stage _ _ _ _ _ _ _ _ _ result hstage =>
    obtain ⟨-, -, cleaned, hcleaned, hstaged⟩ := stageUpload_ok hstage
    refine .inl ⟨hcleaned.sameGraph.trans hstaged.sameGraph, fun prepared hmem => ?_⟩
    split_ifs at hmem
    · cases hmem
    · cases List.mem_singleton.mp hmem
  | cleanup hcleanup =>
    exact .inl ⟨(cleanupExpiredUploads_ok hcleanup).sameGraph, fun _ => List.not_mem_nil⟩
  | tick time => exact .inl ⟨⟨rfl, rfl, rfl, rfl, rfl, rfl, rfl⟩, fun _ => List.not_mem_nil⟩

end AvenOS.ArtifactStore
