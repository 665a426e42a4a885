import AvenOS.ArtifactStore.Publish

/-! # What a publication does

One specification for each part of `publish` run alone: what it has found in the store and which changes it
makes. The graph of a scope only grows. -/
namespace AvenOS.ArtifactStore
open Transactions

/-! ## Tables that only grow -/

namespace Change

def publication? : Change → Option PublicationRow
  | insertPublication row => some row
  | _ => none

def run? : Change → Option RunRow
  | insertRun row => some row
  | _ => none

def runInput? : Change → Option RunInputRow
  | insertRunInput row => some row
  | _ => none

def artifact? : Change → Option ArtifactRow
  | insertArtifact row => some row
  | _ => none

def reference? : Change → Option ReferenceRow
  | insertReference row => some row
  | _ => none

def evidence? : Change → Option EvidenceRow
  | insertEvidence row => some row
  | _ => none

def scope? : Change → Option Uuid
  | setSequence scopeId _ => some scopeId
  | insertPublication row => some row.scopeId
  | insertRun row => some row.scopeId
  | insertRunInput row => some row.scopeId
  | insertArtifact row => some row.scopeId
  | insertReference row => some row.scopeId
  | insertEvidence row => some row.scopeId
  | _ => none

end Change

variable {α : Type} {length : ℤ} {artifacts : List PreparedArtifact} {db last : Db} {u : Unit} {blob : DeclaredBlob}
  {claimId epoch : Uuid}

theorem after_added {table : Db → List α} {added : Change → Option α}
    (hadded : ∀ change db, table (change.apply db) = table db ++ (added change).toList) (changes : List Change)
    (db : Db) : table (postgres.after changes db) = table db ++ changes.filterMap added := by
  induction changes generalizing db with
  | nil => rw [List.filterMap_nil, List.append_nil]; rfl
  | cons change changes ih =>
    rw [postgres.after_cons, ih]
    show table (change.apply db) ++ _ = _
    rw [hadded, List.append_assoc]
    cases h : added change with
    | none => rw [List.filterMap_cons_none h]; rfl
    | some row => rw [List.filterMap_cons_some h]; rfl

section Tables
variable (changes : List Change) (db : Db)

theorem after_publications : (postgres.after changes db).publications =
    db.publications ++ changes.filterMap Change.publication? :=
  after_added (fun change db => by cases change <;> simp [Change.apply, Change.publication?]) changes db

theorem after_runs : (postgres.after changes db).runs = db.runs ++ changes.filterMap Change.run? :=
  after_added (fun change db => by cases change <;> simp [Change.apply, Change.run?]) changes db

theorem after_runInputs : (postgres.after changes db).runInputs = db.runInputs ++ changes.filterMap Change.runInput? :=
  after_added (fun change db => by cases change <;> simp [Change.apply, Change.runInput?]) changes db

theorem after_artifacts : (postgres.after changes db).artifacts = db.artifacts ++ changes.filterMap Change.artifact? :=
  after_added (fun change db => by cases change <;> simp [Change.apply, Change.artifact?]) changes db

theorem after_references : (postgres.after changes db).references =
    db.references ++ changes.filterMap Change.reference? :=
  after_added (fun change db => by cases change <;> simp [Change.apply, Change.reference?]) changes db

theorem after_evidence : (postgres.after changes db).evidence = db.evidence ++ changes.filterMap Change.evidence? :=
  after_added (fun change db => by cases change <;> simp [Change.apply, Change.evidence?]) changes db

end Tables

theorem after_same {table : Db → α} {changes : List Change}
    (hsame : ∀ change ∈ changes, ∀ db, table (change.apply db) = table db) (db : Db) :
    table (postgres.after changes db) = table db := by
  induction changes generalizing db with
  | nil => rfl
  | cons change changes ih =>
    rw [postgres.after_cons, ih fun other hother => hsame other (List.mem_cons_of_mem _ hother)]
    exact hsame change List.mem_cons_self db

theorem graph_uploads {change : Change} (h : change.scope?.isSome) (db : Db) :
    (change.apply db).claims = db.claims ∧ (change.apply db).blobs = db.blobs ∧ (change.apply db).clock = db.clock := by
  cases change
  case insertBlob => cases h
  case deleteBlob => cases h
  case insertClaim => cases h
  case deleteClaim => cases h
  case consumeClaim => cases h
  case tick => cases h
  all_goals exact ⟨rfl, rfl, rfl⟩

/-! ## Statements -/

section Statements
variable {db last : Db} {u : Unit}

variable {α : Type} {expected : Option Uuid} {epoch : Uuid}

theorem run_ofExcept_ok {result : Except StoreError α} {a : α}
    (h : (Body.ofExcept result : Transaction α).run postgres db = .ok (a, last)) : result = .ok a ∧ last = db := by
  cases result with
  | error error => cases h
  | ok value =>
    cases h
    exact ⟨rfl, rfl⟩

theorem unlessDb_ok {condition : Prop} [Decidable condition] : unlessDb condition = .ok u ↔ ¬condition := by
  rw [unlessDb]
  split_ifs with hcondition
  · exact ⟨fun h => (by cases h), fun h => absurd hcondition h⟩
  · exact ⟨fun _ => hcondition, fun _ => rfl⟩

theorem found_ok {row : Option α} {error : StoreError} {a : α} : found row error = .ok a ↔ row = some a := by
  cases row with
  | none => exact ⟨fun h => (by cases h), fun h => (by cases h)⟩
  | some row =>
    rw [found, Except.ok.injEq, Option.some.injEq]

theorem storeNormal_ok (h : storeNormal expected db = .ok epoch) :
    db.writeMode = .normal ∧ epoch = db.storeEpoch ∧ ∀ wanted ∈ expected, wanted = db.storeEpoch := by
  unfold storeNormal at h
  split_ifs at h with hmode
  have hnormal : db.writeMode = .normal := by
    cases hwrite : db.writeMode with
    | normal => rfl
    | reconciling => exact absurd (by rw [hwrite]; decide) hmode
  cases expected with
  | none =>
    cases h
    exact ⟨hnormal, rfl, fun wanted hwanted => by cases hwanted⟩
  | some wanted =>
    dsimp only at h
    split_ifs at h with hepoch
    cases h
    refine ⟨hnormal, rfl, fun other hother => ?_⟩
    cases hother
    exact hepoch

theorem assertStoreNormal_ok (h : (assertStoreNormal expected).run postgres db = .ok (epoch, last)) :
    storeNormal expected db = .ok epoch ∧ last = db := Body.run_query_ok h

theorem advisoryLock_ok {text : String} (h : (advisoryLock text).run postgres db = .ok (u, last)) :
    last = db := (Body.run_query_ok h).2

theorem lockScope_ok {scopeId : Uuid} (h : (lockScope scopeId).run postgres db = .ok (u, last)) :
    (∃ row, db.scope? scopeId = some row) ∧ last = db := by
  obtain ⟨hfound, hlast⟩ := Body.run_query_ok h
  obtain ⟨row, hrow, -⟩ := ExceptLoop.map_eq_ok hfound
  exact ⟨⟨row, found_ok.1 hrow⟩, hlast⟩

end Statements

/-! ## Admission -/

theorem toI64_ok {value : UInt64} {label : String} (h : toI64 value label = .ok length) :
    length = value.toNat ∧ length ≤ maxBigint := by
  rw [toI64] at h
  split_ifs at h with hbound
  cases h
  exact ⟨rfl, hbound⟩

variable {total : ℤ} {artifact : PreparedArtifact} {prepared : PreparedPublication} {now : Timestamp}

theorem sumBigint_ok {lengths : List ℤ} (h : sumBigint lengths = .ok total) :
    total = lengths.sum ∧ lengths.sum ≤ maxBigint := by
  rw [sumBigint] at h
  split_ifs at h with hbound
  cases h
  exact ⟨rfl, hbound⟩

theorem sumWithin_iff {one other bound : ℤ} :
    sumWithin one other bound = true ↔ one + other ≤ maxBigint ∧ one + other ≤ bound := by
  rw [sumWithin, checkedAdd]
  split_ifs with h
  · simp [h]
  · simp [h]

def PreparedArtifact.bytes (artifact : PreparedArtifact) : ℤ :=
  (artifact.blob.map fun blob => (blob.length.toNat : ℤ)).getD 0

theorem blobLength_ok (h : artifact.blobLength = .ok length) : length = artifact.bytes := by
  rw [PreparedArtifact.blobLength] at h
  cases hblob : artifact.blob with
  | none =>
    rw [hblob] at h
    cases h
    rw [PreparedArtifact.bytes, hblob]
    rfl
  | some blob =>
    rw [hblob] at h
    rw [PreparedArtifact.bytes, hblob, (toI64_ok h).1]
    rfl

theorem addLength_ok {next : ℤ} (h : addLength total artifact = .ok next) : next = total + artifact.bytes := by
  obtain ⟨length, hlength, h⟩ := ExceptLoop.bind_eq_ok h
  rw [checkedAdd] at h
  split_ifs at h with hbound
  cases h
  rw [blobLength_ok hlength]

theorem addedBytes_from {last : ℤ} (h : artifacts.foldlM addLength total = .ok last) :
    last = total + (artifacts.map PreparedArtifact.bytes).sum := by
  induction artifacts generalizing total with
  | nil =>
    cases h
    simp
  | cons artifact artifacts ih =>
    obtain ⟨next, hnext, hrest⟩ := ExceptLoop.foldlM_cons_ok h
    rw [ih hrest, addLength_ok hnext, List.map_cons, List.sum_cons]
    omega

theorem addedBytes_ok (h : addedBytes artifacts = .ok total) : total = (artifacts.map PreparedArtifact.bytes).sum := by
  rw [addedBytes_from h]
  omega

theorem admitPublication_ok {scopeId : Uuid} {admission : UploadAdmission}
    (h : (admitPublication scopeId prepared admission).run postgres db = .ok (u, last)) :
    last = db ∧ (∃ row, db.scope? scopeId = some row) ∧
      (db.logicalLengths scopeId).sum + (prepared.artifacts.map PreparedArtifact.bytes).sum ≤
        admission.maxLogicalBytesPerScope := by
  obtain ⟨_, next, hlock, h₁⟩ := Body.run_bind_ok h
  obtain ⟨hscope, rfl⟩ := lockScope_ok hlock
  obtain ⟨logical, next, hsum, h₂⟩ := Body.run_bind_ok h₁
  obtain ⟨hlogical, hnext⟩ := Body.run_query_ok hsum
  obtain ⟨added, next', hadded, h₃⟩ := Body.run_bind_ok h₂
  obtain ⟨hbytes, rfl⟩ := run_ofExcept_ok hadded
  obtain ⟨hwithin, rfl⟩ := Body.run_require_ok h₃
  refine ⟨hnext, hscope, ?_⟩
  rw [← (sumBigint_ok hlogical).1, ← addedBytes_ok hbytes]
  exact (sumWithin_iff.1 hwithin).2

/-! ## Authorities -/

/-- A claim stands for a blob: it is of this scope and publisher, unexpired, of the declared digest and
length, and consumed by no other publication. -/
structure ClaimAuthorizes (now : Timestamp) (prepared : PreparedPublication) (blob : DeclaredBlob)
    (row : ClaimRow) : Prop where
  scope : row.scopeId = prepared.context.scopeId
  publisher : row.publisher = prepared.context.publisher
  unexpired : now < row.expiresAt
  sha256 : row.blobSha256 = blob.sha256
  length : row.blobLength = blob.length.toNat
  consumer : row.consumedPublicationId = none ∨
    row.consumedPublicationId = some prepared.submission.intent.publicationId

/-- What stands for the blob of an artifact in the store. -/
inductive Authorizes (now : Timestamp) (prepared : PreparedPublication) (db : Db) (blob : DeclaredBlob) :
    BlobAuthority → Prop
  | uploadClaim {claimId : Uuid} {row : ClaimRow} (hrow : db.claim? claimId = some row)
      (hclaim : ClaimAuthorizes now prepared blob row) : Authorizes now prepared db blob (.uploadClaim claimId)
  | sourceArtifact {artifactId : Uuid} {row : ArtifactRow}
      (hrow : db.artifact? prepared.context.scopeId artifactId = some row)
      (hblob : row.blob = some (blob.sha256, (blob.length.toNat : ℤ))) :
      Authorizes now prepared db blob (.sourceArtifact artifactId)

theorem validateClaim_ok (h : (validateClaim now prepared blob claimId).run postgres db = .ok (u, last)) :
    last = db ∧ Authorizes now prepared db blob (.uploadClaim claimId) := by
  obtain ⟨row, next, hlock, h₁⟩ := Body.run_bind_ok h
  obtain ⟨hfound, rfl⟩ := Body.run_query_ok hlock
  obtain ⟨_, next, hsame, h₂⟩ := Body.run_bind_ok h₁
  obtain ⟨⟨hscope, hpublisher, hsha⟩, rfl⟩ := Body.run_require_ok hsame
  obtain ⟨length, next, hlength, h₃⟩ := Body.run_bind_ok h₂
  obtain ⟨hi64, rfl⟩ := run_ofExcept_ok hlength
  obtain ⟨_, next, hlive, h₄⟩ := Body.run_bind_ok h₃
  obtain ⟨⟨hrowLength, hunexpired⟩, rfl⟩ := Body.run_require_ok hlive
  obtain ⟨hconsumer, rfl⟩ := Body.run_require_ok h₄
  exact ⟨rfl, .uploadClaim (found_ok.1 hfound)
    ⟨hscope, hpublisher, hunexpired, hsha, hrowLength.trans (toI64_ok hi64).1, hconsumer⟩⟩

theorem validateSource_ok {artifactId : Uuid}
    (h : (validateSource prepared blob artifactId).run postgres db = .ok (u, last)) :
    last = db ∧ Authorizes now prepared db blob (.sourceArtifact artifactId) := by
  obtain ⟨row, next, hselect, h₁⟩ := Body.run_bind_ok h
  obtain ⟨hfound, rfl⟩ := Body.run_query_ok hselect
  obtain ⟨_, next, hsha, h₂⟩ := Body.run_bind_ok h₁
  obtain ⟨hdigest, rfl⟩ := Body.run_require_ok hsha
  obtain ⟨length, next, hlength, h₃⟩ := Body.run_bind_ok h₂
  obtain ⟨hi64, rfl⟩ := run_ofExcept_ok hlength
  obtain ⟨hrowLength, rfl⟩ := Body.run_require_ok h₃
  refine ⟨rfl, .sourceArtifact (found_ok.1 hfound) ?_⟩
  obtain ⟨pair, hpair, hfirst⟩ := Option.map_eq_some_iff.mp hdigest
  rw [hpair, Option.map_some, Option.some.injEq, (toI64_ok hi64).1] at hrowLength
  rw [hpair, ← hfirst, ← hrowLength]

def Authorized (now : Timestamp) (prepared : PreparedPublication) (db : Db) : Prop :=
  ∀ artifact ∈ prepared.artifacts, ∀ blob, artifact.blob = some blob →
    ∃ authority, prepared.submission.authority? artifact.localKey = some authority ∧
      Authorizes now prepared db blob authority

theorem validateBlobAuthority_ok (h : (validateBlobAuthority now prepared artifact).run postgres db = .ok (u, last)) :
    last = db ∧ ∀ blob, artifact.blob = some blob →
      ∃ authority, prepared.submission.authority? artifact.localKey = some authority ∧
        Authorizes now prepared db blob authority := by
  rw [validateBlobAuthority] at h
  cases hblob : artifact.blob with
  | none =>
    rw [hblob] at h
    cases h
    exact ⟨rfl, fun blob hnone => by cases hnone⟩
  | some blob =>
    rw [hblob] at h
    dsimp only at h
    cases hauthority : prepared.submission.authority? artifact.localKey with
    | none =>
      rw [hauthority] at h
      cases h
    | some authority =>
      rw [hauthority] at h
      cases authority with
      | uploadClaim claimId =>
        obtain ⟨hlast, hauthorizes⟩ := validateClaim_ok h
        refine ⟨hlast, fun other hother => ?_⟩
        cases hother
        exact ⟨_, rfl, hauthorizes⟩
      | sourceArtifact artifactId =>
        have hsource : last = db ∧ Authorizes now prepared db blob (.sourceArtifact artifactId) := validateSource_ok h
        obtain ⟨hlast, hauthorizes⟩ := hsource
        refine ⟨hlast, fun other hother => ?_⟩
        cases hother
        exact ⟨_, rfl, hauthorizes⟩

theorem validateBlobAuthorities_ok (h : (validateBlobAuthorities now prepared).run postgres db = .ok (u, last)) :
    last = db ∧ Authorized now prepared db := by
  obtain ⟨hlast, heach⟩ := Body.run_forM_each (fun artifact _ db u next h => (validateBlobAuthority_ok h).1) h
  refine ⟨hlast, fun artifact hartifact blob hblob => ?_⟩
  obtain ⟨_, hrun⟩ := heach artifact hartifact
  exact (validateBlobAuthority_ok hrun).2 blob hblob

/-! ## Rows -/

section Rows
variable {now : Timestamp} {prepared : PreparedPublication} {db last : Db} {u : Unit}

theorem insert_ok {takes : Db → List Lock} {change : Change} {violated : Db → Prop} [∀ db, Decidable (violated db)]
    (h : (Body.query takes (fun _ => [change]) (fun db => unlessDb (violated db)) : Transaction Unit).run
      postgres db = .ok (u, last)) : last = postgres.after [change] db ∧ ¬violated db := by
  obtain ⟨hunless, hlast⟩ := Body.run_query_ok h
  exact ⟨hlast, unlessDb_ok.1 hunless⟩

theorem takeSequence_ok {scopeId : Uuid} {sequence : ℤ}
    (h : (takeSequence scopeId).run postgres db = .ok (sequence, last)) :
    ∃ row, db.scope? scopeId = some row ∧ sequence = row.nextSequence + 1 ∧
      last = postgres.after [.setSequence scopeId sequence] db := by
  obtain ⟨hanswer, hlast⟩ := Body.run_query_ok h
  cases hrow : db.scope? scopeId with
  | none =>
    simp only [hrow] at hanswer
    cases hanswer
  | some row =>
    simp only [hrow] at hanswer hlast
    split_ifs at hanswer
    cases hanswer
    exact ⟨row, rfl, rfl, hlast⟩

/-- A row of a run that names an artifact of its scope under a free key. -/
structure RunInputFits (row : RunInputRow) (db : Db) : Prop where
  unique : ∀ other ∈ db.runInputs, ¬(other.scopeId = row.scopeId ∧ other.runId = row.runId ∧
    other.role = row.role ∧ other.ordinal = row.ordinal)
  input : ∃ artifact, db.artifact? row.scopeId row.inputArtifactId = some artifact

structure ArtifactFits (row : ArtifactRow) (db : Db) : Prop where
  unique : ∀ other ∈ db.artifacts, ¬row.Clashes other
  bound : row.producerRunId.isSome = row.output.isSome
  typed : (⟨row.typeKey, row.typeVersion, row.typeDefinitionSha256⟩ : TypeRow) ∈ db.types
  blob : db.hasBlob (row.blob.map Prod.fst)

structure ReferenceFits (row : ReferenceRow) (db : Db) : Prop where
  unique : ∀ other ∈ db.references, ¬(other.scopeId = row.scopeId ∧
    other.sourceArtifactId = row.sourceArtifactId ∧ other.role = row.role ∧ other.ordinal = row.ordinal)
  target : ∃ artifact, db.artifact? row.scopeId row.targetArtifactId = some artifact ∧
    artifact.artifactSha256 = row.targetArtifactSha256

structure EvidenceFits (row : EvidenceRow) (db : Db) : Prop where
  output : ∃ artifact, db.artifact? row.scopeId row.outputArtifactId = some artifact
  input : ∃ input ∈ db.runInputs, input.scopeId = row.scopeId ∧ input.runId = row.runId ∧
    input.role = row.inputRole ∧ input.ordinal = row.inputOrdinal

theorem insertPublicationRow_ok {row : PublicationRow}
    (h : (insertPublicationRow row).run postgres db = .ok (u, last)) :
    last = postgres.after [.insertPublication row] db ∧ ∀ other ∈ db.publications, other.scopeId = row.scopeId →
        other.publicationId ≠ row.publicationId ∧ other.scopeSequence ≠ row.scopeSequence := by
  obtain ⟨hlast, hfits⟩ := insert_ok h
  refine ⟨hlast, fun other hother hscope => ⟨fun hid => ?_, fun hsequence => ?_⟩⟩
  · exact hfits ⟨other, hother, hscope, .inl hid⟩
  · exact hfits ⟨other, hother, hscope, .inr hsequence⟩

theorem insertRunRow_ok {row : RunRow} (h : (insertRunRow row).run postgres db = .ok (u, last)) :
    last = postgres.after [.insertRun row] db ∧ ∀ other ∈ db.runs, other.scopeId = row.scopeId → other.id ≠ row.id := by
  obtain ⟨hlast, hfits⟩ := insert_ok h
  exact ⟨hlast, fun other hother hscope hid => hfits ⟨other, hother, hscope, .inl hid⟩⟩

theorem insertRunInputRow_ok {row : RunInputRow} (h : (insertRunInputRow row).run postgres db = .ok (u, last)) :
    last = postgres.after [.insertRunInput row] db ∧ RunInputFits row db := by
  obtain ⟨hlast, hfits⟩ := insert_ok h
  refine ⟨hlast, fun other hother hsame => hfits (.inl ⟨other, hother, hsame⟩), ?_⟩
  cases hinput : db.artifact? row.scopeId row.inputArtifactId with
  | none => exact absurd (.inr (by rw [hinput]; rfl)) hfits
  | some artifact => exact ⟨artifact, rfl⟩

theorem insertArtifactRow_ok {row : ArtifactRow} (h : (insertArtifactRow row).run postgres db = .ok (u, last)) :
    last = postgres.after [.insertArtifact row] db ∧ ArtifactFits row db := by
  obtain ⟨hlast, hfits⟩ := insert_ok h
  refine ⟨hlast, fun other hother hclash => hfits (.inl ⟨other, hother, hclash⟩), ?_, ?_, ?_⟩
  · exact by_contra fun hbound => hfits (.inr (.inl hbound))
  · exact by_contra fun htyped => hfits (.inr (.inr (.inl htyped)))
  · exact by_contra fun hblob => hfits (.inr (.inr (.inr hblob)))

theorem insertReferenceRow_ok {row : ReferenceRow} (h : (insertReferenceRow row).run postgres db = .ok (u, last)) :
    last = postgres.after [.insertReference row] db ∧ ReferenceFits row db := by
  obtain ⟨hlast, hfits⟩ := insert_ok h
  refine ⟨hlast, fun other hother hsame => hfits (.inl ⟨other, hother, hsame⟩), ?_⟩
  have htarget : (db.artifact? row.scopeId row.targetArtifactId).map (·.artifactSha256) =
      some row.targetArtifactSha256 := by_contra fun hother => hfits (.inr hother)
  exact Option.map_eq_some_iff.mp htarget

theorem insertEvidenceRow_ok {row : EvidenceRow} (h : (insertEvidenceRow row).run postgres db = .ok (u, last)) :
    last = postgres.after [.insertEvidence row] db ∧ EvidenceFits row db := by
  obtain ⟨hlast, hfits⟩ := insert_ok h
  refine ⟨hlast, ?_, by_contra fun hinput => hfits (.inr (.inr fun input hmem hsame => ?_))⟩
  · cases houtput : db.artifact? row.scopeId row.outputArtifactId with
    | none => exact absurd (.inr (.inl (by rw [houtput]; rfl))) hfits
    | some artifact => exact ⟨artifact, rfl⟩
  · exact hinput ⟨input, hmem, hsame⟩

/-! ## Parts of a publication -/

def runChanges (prepared : PreparedPublication) : List Change :=
  match prepared.run? with
  | some (run, runId) =>
    .insertRun (runRow prepared runId) ::
      run.inputs.map fun input => .insertRunInput (runInputRow prepared runId input)
  | none => []

def artifactChanges (now : Timestamp) (prepared : PreparedPublication) (artifact : PreparedArtifact) :
    List Change :=
  .insertArtifact (artifactRow now prepared artifact) ::
    artifact.references.map fun reference =>
      .insertReference (referenceRow prepared.context.scopeId artifact.id reference)

def evidenceRow? (prepared : PreparedPublication) (runId : Uuid) (evidence : EvidenceIntent) :
    Option EvidenceRow :=
  (prepared.artifacts.find? fun artifact => artifact.localKey = evidence.outputLocalKey).map
    fun artifact => evidenceRow prepared runId artifact.id evidence

def evidenceChanges (prepared : PreparedPublication) : List Change :=
  match prepared.run? with
  | some (_, runId) =>
    prepared.submission.intent.evidence.flatMap fun evidence =>
      ((evidenceRow? prepared runId evidence).map Change.insertEvidence).toList
  | none => []

/-- Everything a new publication writes before it consumes its claims. -/
def recordedChanges (now : Timestamp) (prepared : PreparedPublication) (result : PublicationResult) :
    List Change :=
  .setSequence prepared.submission.intent.scopeId result.scopeSequence ::
    .insertPublication (publicationRow prepared result) ::
      (runChanges prepared ++ prepared.artifacts.flatMap (artifactChanges now prepared) ++
        evidenceChanges prepared)

variable {result : PublicationResult}

theorem recordedChanges_scope (hscope : prepared.context.scopeId = prepared.submission.intent.scopeId) :
    ∀ change ∈ recordedChanges now prepared result, change.scope? = some prepared.submission.intent.scopeId := by
  have hrun : ∀ change ∈ runChanges prepared, change.scope? = some prepared.submission.intent.scopeId := by
    intro change hchange
    rw [runChanges] at hchange
    cases hrun : prepared.run? with
    | none =>
      rw [hrun] at hchange
      cases hchange
    | some pair =>
      rw [hrun] at hchange
      rcases List.mem_cons.mp hchange with rfl | hinput
      · rfl
      · obtain ⟨input, -, rfl⟩ := List.mem_map.mp hinput
        rfl
  have hartifact : ∀ artifact, ∀ change ∈ artifactChanges now prepared artifact,
      change.scope? = some prepared.submission.intent.scopeId := by
    intro artifact change hchange
    rcases List.mem_cons.mp hchange with rfl | hreference
    · exact congrArg some hscope
    · obtain ⟨reference, -, rfl⟩ := List.mem_map.mp hreference
      exact congrArg some hscope
  have hevidence : ∀ change ∈ evidenceChanges prepared, change.scope? = some prepared.submission.intent.scopeId := by
    intro change hchange
    rw [evidenceChanges] at hchange
    cases hrun : prepared.run? with
    | none =>
      rw [hrun] at hchange
      cases hchange
    | some pair =>
      rw [hrun] at hchange
      obtain ⟨evidence, -, hmem⟩ := List.mem_flatMap.mp hchange
      obtain ⟨row, hfound, rfl⟩ := Option.map_eq_some_iff.mp (Option.mem_toList.mp hmem)
      obtain ⟨artifact, -, rfl⟩ := Option.map_eq_some_iff.mp hfound
      exact congrArg some hscope
  intro change hchange
  rcases List.mem_cons.mp hchange with rfl | hchange
  · rfl
  rcases List.mem_cons.mp hchange with rfl | hchange
  · rfl
  rcases List.mem_append.mp hchange with hchange | hchange
  · rcases List.mem_append.mp hchange with hchange | hchange
    · exact hrun change hchange
    · obtain ⟨artifact, -, hchange⟩ := List.mem_flatMap.mp hchange
      exact hartifact artifact change hchange
  · exact hevidence change hchange

theorem insertPublication_ok (h : (insertPublication prepared result).run postgres db = .ok (u, last)) :
    last = postgres.after (.insertPublication (publicationRow prepared result) :: runChanges prepared) db ∧
      (∀ other ∈ db.publications, other.scopeId = prepared.submission.intent.scopeId →
        other.publicationId ≠ prepared.submission.intent.publicationId ∧
          other.scopeSequence ≠ result.scopeSequence) ∧ ∀ run runId, prepared.run? = some (run, runId) →
        (∀ other ∈ db.runs, other.scopeId = prepared.submission.intent.scopeId → other.id ≠ runId) ∧
        ∀ before input rest, run.inputs = before ++ input :: rest → RunInputFits (runInputRow prepared runId input)
            (postgres.after (before.map fun input => .insertRunInput (runInputRow prepared runId input))
              (postgres.after [.insertPublication (publicationRow prepared result),
                .insertRun (runRow prepared runId)] db)) := by
  obtain ⟨_, next, hpublication, hrest⟩ := Body.run_bind_ok h
  obtain ⟨hnext, hfresh⟩ := insertPublicationRow_ok hpublication
  rw [runChanges]
  cases hrun : prepared.run? with
  | none =>
    rw [hrun] at hrest
    cases hrest
    exact ⟨hnext, hfresh, fun run runId hnone => by cases hnone⟩
  | some pair =>
    obtain ⟨run, runId⟩ := pair
    rw [hrun] at hrest
    obtain ⟨_, next', hinsert, hinputs⟩ := Body.run_bind_ok hrest
    obtain ⟨hnext', hunique⟩ := insertRunRow_ok hinsert
    obtain ⟨hlast, hfits⟩ := Body.run_forM_after
      (fun input => [Change.insertRunInput (runInputRow prepared runId input)])
      (fun input db => RunInputFits (runInputRow prepared runId input) db)
      (fun input _ db u next h => insertRunInputRow_ok h) hinputs
    have hsingle : ∀ inputs : List RunInput,
        (inputs.flatMap fun input => [Change.insertRunInput (runInputRow prepared runId input)]) =
          inputs.map fun input => Change.insertRunInput (runInputRow prepared runId input) := fun inputs =>
      List.map_eq_flatMap.symm
    refine ⟨?_, hfresh, ?_⟩
    · rw [hlast, hnext', hnext, hsingle]
      rfl
    · intro run' runId' hsame
      cases hsame
      refine ⟨fun other hother => ?_, fun before input rest hsplit => ?_⟩
      · refine hunique other ?_
        rw [hnext]
        exact hother
      · have hfit := hfits before input rest hsplit
        rw [hnext', hnext, hsingle] at hfit
        exact hfit

theorem insertArtifact_ok {artifact : PreparedArtifact}
    (h : (insertArtifact now prepared artifact).run postgres db = .ok (u, last)) :
    last = postgres.after (artifactChanges now prepared artifact) db ∧
      ArtifactFits (artifactRow now prepared artifact) db ∧
      ∀ before reference rest, artifact.references = before ++ reference :: rest →
        ReferenceFits (referenceRow prepared.context.scopeId artifact.id reference)
          (postgres.after (before.map fun reference =>
            .insertReference (referenceRow prepared.context.scopeId artifact.id reference))
            (postgres.after [.insertArtifact (artifactRow now prepared artifact)] db)) := by
  obtain ⟨_, next, hlength, hrest⟩ := Body.run_bind_ok h
  obtain ⟨-, rfl⟩ := run_ofExcept_ok hlength
  obtain ⟨_, next', hrow, hreferences⟩ := Body.run_bind_ok hrest
  obtain ⟨hnext, hfits⟩ := insertArtifactRow_ok hrow
  obtain ⟨hlast, heach⟩ := Body.run_forM_after (fun reference =>
      [Change.insertReference (referenceRow prepared.context.scopeId artifact.id reference)])
    (fun reference db => ReferenceFits (referenceRow prepared.context.scopeId artifact.id reference) db)
    (fun reference _ db u next h => insertReferenceRow_ok h) hreferences
  have hsingle : ∀ references : List PreparedReference, (references.flatMap fun reference =>
        [Change.insertReference (referenceRow prepared.context.scopeId artifact.id reference)]) =
        references.map fun reference =>
          Change.insertReference (referenceRow prepared.context.scopeId artifact.id reference) :=
    fun references => List.map_eq_flatMap.symm
  refine ⟨?_, hfits, fun before reference rest hsplit => ?_⟩
  · rw [hlast, hnext, hsingle]
    rfl
  · have hfit := heach before reference rest hsplit
    rw [hnext, hsingle] at hfit
    exact hfit

theorem insertEvidence_ok {runId : Uuid} {evidence : EvidenceIntent}
    (h : (insertEvidence prepared runId evidence).run postgres db = .ok (u, last)) :
    last = postgres.after ((evidenceRow? prepared runId evidence).map Change.insertEvidence).toList db ∧
      ∃ row, evidenceRow? prepared runId evidence = some row ∧ EvidenceFits row db := by
  rw [insertEvidence] at h
  rw [evidenceRow?]
  cases hartifact : prepared.artifacts.find? fun artifact => artifact.localKey = evidence.outputLocalKey with
  | none =>
    rw [hartifact] at h
    cases h
  | some artifact =>
    rw [hartifact] at h
    obtain ⟨hlast, hfits⟩ := insertEvidenceRow_ok h
    exact ⟨hlast, _, rfl, hfits⟩

theorem insertArtifacts_ok (h : (insertArtifacts now prepared).run postgres db = .ok (u, last)) :
    last = postgres.after (prepared.artifacts.flatMap (artifactChanges now prepared) ++ evidenceChanges prepared) db ∧
      (∀ before artifact rest, prepared.artifacts = before ++ artifact :: rest →
        ArtifactFits (artifactRow now prepared artifact)
          (postgres.after (before.flatMap (artifactChanges now prepared)) db) ∧
        ∀ before' reference rest', artifact.references = before' ++ reference :: rest' →
          ReferenceFits (referenceRow prepared.context.scopeId artifact.id reference)
            (postgres.after (before'.map fun reference =>
              .insertReference (referenceRow prepared.context.scopeId artifact.id reference))
              (postgres.after [.insertArtifact (artifactRow now prepared artifact)]
                (postgres.after (before.flatMap (artifactChanges now prepared)) db)))) ∧
      ∀ run runId, prepared.run? = some (run, runId) →
        ∀ before evidence rest, prepared.submission.intent.evidence = before ++ evidence :: rest →
          ∃ row, evidenceRow? prepared runId evidence = some row ∧
            EvidenceFits row (postgres.after (before.flatMap fun evidence =>
              ((evidenceRow? prepared runId evidence).map Change.insertEvidence).toList)
              (postgres.after (prepared.artifacts.flatMap (artifactChanges now prepared)) db)) := by
  obtain ⟨_, next, hartifacts, hrest⟩ := Body.run_bind_ok h
  obtain ⟨hnext, heach⟩ := Body.run_forM_after (artifactChanges now prepared)
    (fun artifact db => ArtifactFits (artifactRow now prepared artifact) db ∧
      ∀ before reference rest, artifact.references = before ++ reference :: rest →
        ReferenceFits (referenceRow prepared.context.scopeId artifact.id reference)
          (postgres.after (before.map fun reference =>
            .insertReference (referenceRow prepared.context.scopeId artifact.id reference))
            (postgres.after [.insertArtifact (artifactRow now prepared artifact)] db)))
    (fun artifact _ db u next h => insertArtifact_ok h) hartifacts
  rw [evidenceChanges]
  cases hrun : prepared.run? with
  | none =>
    rw [hrun] at hrest
    cases hrest
    refine ⟨?_, heach, fun run runId hnone => by cases hnone⟩
    rw [List.append_nil]
    exact hnext
  | some pair =>
    obtain ⟨run, runId⟩ := pair
    rw [hrun] at hrest
    obtain ⟨hlast, hevidence⟩ := Body.run_forM_after
      (fun evidence => ((evidenceRow? prepared runId evidence).map Change.insertEvidence).toList)
      (fun evidence db => ∃ row, evidenceRow? prepared runId evidence = some row ∧ EvidenceFits row db)
      (fun evidence _ db u next h => insertEvidence_ok h) hrest
    refine ⟨?_, heach, fun run' runId' hsame before evidence rest hsplit => ?_⟩
    · rw [postgres.after_append, ← hnext]
      exact hlast
    · cases hsame
      rw [← hnext]
      exact hevidence before evidence rest hsplit

end Rows

/-! ## The whole publication -/

/-- What a new publication has found, and the changes it has made. -/
structure Recorded (now : Timestamp) (epoch : Uuid) (prepared : PreparedPublication)
    (admission : UploadAdmission) (db : Db) (result : PublicationResult) (last : Db) : Prop where
  sequence : ∃ row, db.scope? prepared.submission.intent.scopeId = some row ∧
    result = publicationResult now epoch (row.nextSequence + 1) prepared
  admitted : (db.logicalLengths prepared.submission.intent.scopeId).sum +
    (prepared.artifacts.map PreparedArtifact.bytes).sum ≤ admission.maxLogicalBytesPerScope
  notExcluded : (prepared.submission.intent.scopeId, prepared.submission.intent.publicationId) ∉ db.exclusions
  authorized : Authorized now prepared db
  last : last = postgres.after (recordedChanges now prepared result) db
  fresh : ∀ other ∈ db.publications, other.scopeId = prepared.submission.intent.scopeId →
    other.publicationId ≠ prepared.submission.intent.publicationId ∧ other.scopeSequence ≠ result.scopeSequence
  run : ∀ run runId, prepared.run? = some (run, runId) →
    (∀ other ∈ db.runs, other.scopeId = prepared.submission.intent.scopeId → other.id ≠ runId) ∧
    ∀ before input rest, run.inputs = before ++ input :: rest →
      RunInputFits (runInputRow prepared runId input)
        (postgres.after (.setSequence prepared.submission.intent.scopeId result.scopeSequence ::
          .insertPublication (publicationRow prepared result) :: .insertRun (runRow prepared runId) ::
          before.map fun input => .insertRunInput (runInputRow prepared runId input)) db)
  artifact : ∀ before artifact rest, prepared.artifacts = before ++ artifact :: rest →
    ArtifactFits (artifactRow now prepared artifact)
      (postgres.after (.setSequence prepared.submission.intent.scopeId result.scopeSequence ::
        .insertPublication (publicationRow prepared result) ::
        (runChanges prepared ++ before.flatMap (artifactChanges now prepared))) db)
  reference : ∀ before artifact rest, prepared.artifacts = before ++ artifact :: rest →
    ∀ before' reference rest', artifact.references = before' ++ reference :: rest' →
      ReferenceFits (referenceRow prepared.context.scopeId artifact.id reference)
        (postgres.after (.setSequence prepared.submission.intent.scopeId result.scopeSequence ::
          .insertPublication (publicationRow prepared result) ::
          (runChanges prepared ++ before.flatMap (artifactChanges now prepared) ++
            (.insertArtifact (artifactRow now prepared artifact) :: before'.map fun reference =>
              .insertReference (referenceRow prepared.context.scopeId artifact.id reference)))) db)
  evidence : ∀ run runId, prepared.run? = some (run, runId) →
    ∀ evidence ∈ prepared.submission.intent.evidence, ∃ row, evidenceRow? prepared runId evidence = some row

variable {admission : UploadAdmission} {result : PublicationResult} {publicationId : Uuid}

theorem recordPublication_ok {now : Timestamp} {prepared : PreparedPublication}
    (h : (recordPublication now epoch prepared admission).run postgres db = .ok (result, last)) :
    Recorded now epoch prepared admission db result last := by
  obtain ⟨_, next₁, hadmit, h₁⟩ := Body.run_bind_ok h
  obtain ⟨rfl, -, hadmitted⟩ := admitPublication_ok hadmit
  obtain ⟨_, next₂, hexclusion, h₂⟩ := Body.run_bind_ok h₁
  obtain ⟨hexcluded, hnext₂⟩ := Body.run_query_ok hexclusion
  obtain rfl : next₂ = next₁ := hnext₂
  obtain ⟨_, next₃, hvalidate, h₃⟩ := Body.run_bind_ok h₂
  obtain ⟨rfl, hauthorized⟩ := validateBlobAuthorities_ok hvalidate
  obtain ⟨sequence, next₄, htake, h₄⟩ := Body.run_bind_ok h₃
  obtain ⟨row, hrow, hsequence, hnext₄⟩ := takeSequence_ok htake
  obtain ⟨_, next₅, hpublication, h₅⟩ := Body.run_bind_ok h₄
  obtain ⟨hnext₅, hfresh, hrun⟩ := insertPublication_ok hpublication
  obtain ⟨_, next₆, hartifacts, h₆⟩ := Body.run_bind_ok h₅
  obtain ⟨hnext₆, hartifact, hevidence⟩ := insertArtifacts_ok hartifacts
  cases h₆
  have hstart : ∀ changes, postgres.after changes next₅ = postgres.after
      (.setSequence prepared.submission.intent.scopeId sequence ::
        .insertPublication (publicationRow prepared (publicationResult now epoch sequence prepared)) ::
        (runChanges prepared ++ changes)) next₃ := by
    intro changes
    rw [hnext₅, hnext₄, ← postgres.after_append, ← postgres.after_append]
    rfl
  refine ⟨⟨row, hrow, by rw [hsequence]⟩, hadmitted, ?_, hauthorized, ?_, ?_, ?_, ?_, ?_, ?_⟩
  · intro hmem
    rw [if_pos hmem] at hexcluded
    cases hexcluded
  · rw [hnext₆, hstart, ← List.append_assoc]
    rfl
  · intro other hother hscope
    refine hfresh other ?_ hscope
    rw [hnext₄]
    exact hother
  · intro run runId hsome
    obtain ⟨hunique, hinputs⟩ := hrun run runId hsome
    refine ⟨fun other hother => hunique other ?_, fun before input rest hsplit => ?_⟩
    · rw [hnext₄]
      exact hother
    · have hfits := hinputs before input rest hsplit
      rw [hnext₄] at hfits
      exact hfits
  · intro before artifact rest hsplit
    have hfits := (hartifact before artifact rest hsplit).1
    rw [hstart] at hfits
    exact hfits
  · intro before artifact rest hsplit before' reference rest' hsplit'
    have hfits := (hartifact before artifact rest hsplit).2 before' reference rest' hsplit'
    rw [← postgres.after_append, ← postgres.after_append, hstart] at hfits
    rw [List.append_assoc]
    exact hfits
  · intro run runId hsome evidence hmem
    obtain ⟨before, rest, hsplit⟩ := List.append_of_mem hmem
    obtain ⟨evrow, hevrow, -⟩ := hevidence run runId hsome before evidence rest hsplit
    exact ⟨evrow, hevrow⟩

/-! ## Consumption -/

def PublicationSubmission.claimIds (submission : PublicationSubmission) : List Uuid :=
  (submission.blobAuthorities.map Prod.snd).filterMap fun authority =>
    match authority with
    | .uploadClaim claimId => some claimId
    | .sourceArtifact _ => none

def ConsumedBy (publicationId : Uuid) (claims claims' : List ClaimRow) : Prop :=
  List.Forall₂ (fun row row' => row' = row ∨
    row.consumedPublicationId = none ∧ row' = { row with consumedPublicationId := some publicationId })
    claims claims'

theorem ConsumedBy.refl (publicationId : Uuid) (claims : List ClaimRow) :
    ConsumedBy publicationId claims claims := List.forall₂_same.mpr fun _ _ => .inl rfl

theorem ConsumedBy.trans {claims claims' claims'' : List ClaimRow}
    (h : ConsumedBy publicationId claims claims') (h' : ConsumedBy publicationId claims' claims'') :
    ConsumedBy publicationId claims claims'' := by
  unfold ConsumedBy at h h' ⊢
  induction h generalizing claims'' with
  | nil => exact h'
  | cons hhead _ ih =>
    cases h' with
    | cons hhead' htail' =>
      refine .cons ?_ (ih htail')
      rcases hhead with rfl | ⟨hnone, rfl⟩
      · exact hhead'
      · rcases hhead' with rfl | ⟨hconsumed, -⟩
        · exact .inr ⟨hnone, rfl⟩
        · cases hconsumed

theorem consume_cases (publicationId claimId : Uuid) (row : ClaimRow) :
    row.consume publicationId claimId = row ∨ row.consumedPublicationId = none ∧
      row.consume publicationId claimId = { row with consumedPublicationId := some publicationId } := by
  rw [ClaimRow.consume]
  split_ifs with h
  · exact .inr ⟨h.2, rfl⟩
  · exact .inl rfl

theorem consume_consumedBy (publicationId claimId : Uuid) (claims : List ClaimRow) :
    ConsumedBy publicationId claims (claims.map (ClaimRow.consume publicationId claimId)) := by
  unfold ConsumedBy
  rw [List.forall₂_map_right_iff]
  exact List.forall₂_same.mpr fun row _ => consume_cases publicationId claimId row

theorem consume_claimId (publicationId claimId : Uuid) (row : ClaimRow) :
    (row.consume publicationId claimId).claimId = row.claimId := by
  rcases consume_cases publicationId claimId row with h | ⟨-, h⟩
  · rw [h]
  · rw [h]

theorem claim?_consume (db : Db) (publicationId claimId other : Uuid) :
    (Change.apply (.consumeClaim claimId publicationId) db).claim? other =
      (db.claim? other).map (ClaimRow.consume publicationId claimId) := by
  show (db.claims.map _).find? _ = (db.claims.find? _).map _
  rw [List.find?_map]
  refine congrArg (Option.map _) (congrArg (fun p => db.claims.find? p) (funext fun row => ?_))
  rw [Function.comp_apply, consume_claimId]

theorem claim?_id {row : ClaimRow} (h : db.claim? claimId = some row) : row.claimId = claimId := by
  have hfound := List.find?_some h
  exact of_decide_eq_true hfound

/-- Only the claims are touched, and each of those named that was free is consumed. -/
structure Consumed (claimIds : List Uuid) (publicationId : Uuid) (db last : Db) : Prop where
  frame : last = { db with claims := last.claims }
  rows : ConsumedBy publicationId db.claims last.claims
  claim : ∀ claimId, last.claim? claimId = (db.claim? claimId).map fun row =>
    if claimId ∈ claimIds ∧ row.consumedPublicationId = none then
      { row with consumedPublicationId := some publicationId }
    else row

theorem Consumed.nil (publicationId : Uuid) (db : Db) : Consumed [] publicationId db db := by
  refine ⟨rfl, .refl _ _, fun claimId => ?_⟩
  simp

theorem Consumed.cons {claimIds : List Uuid} (h : Consumed claimIds publicationId
      (postgres.after (if db.unconsumed claimId then [.consumeClaim claimId publicationId] else []) db) last) :
    Consumed (claimId :: claimIds) publicationId db last := by
  have hfirst : (postgres.after (if db.unconsumed claimId then [.consumeClaim claimId publicationId] else []) db) =
        { db with claims := (postgres.after
          (if db.unconsumed claimId then [.consumeClaim claimId publicationId] else []) db).claims } ∧
      ConsumedBy publicationId db.claims (postgres.after
        (if db.unconsumed claimId then [.consumeClaim claimId publicationId] else []) db).claims ∧
      ∀ other, (postgres.after
        (if db.unconsumed claimId then [.consumeClaim claimId publicationId] else []) db).claim? other =
          (db.claim? other).map (ClaimRow.consume publicationId claimId) := by
    split_ifs with hfree
    · exact ⟨rfl, consume_consumedBy _ _ _, fun other => claim?_consume _ _ _ _⟩
    · refine ⟨rfl, .refl _ _, fun other => ?_⟩
      show db.claim? other = _
      cases hrow : db.claim? other with
      | none => rfl
      | some row =>
        rw [Option.map_some, ClaimRow.consume, if_neg]
        rintro ⟨hid, hnone⟩
        rw [claim?_id hrow] at hid
        rw [Db.unconsumed, ← hid, hrow] at hfree
        exact hfree (by simp [hnone])
  obtain ⟨hframe, hrows, hclaim⟩ := hfirst
  refine ⟨?_, hrows.trans h.rows, fun other => ?_⟩
  · rw [h.frame, hframe]
  · rw [h.claim, hclaim, Option.map_map]
    cases hrow : db.claim? other with
    | none => rfl
    | some row =>
      obtain rfl := claim?_id hrow
      rw [Option.map_some, Option.map_some, Function.comp_apply, ClaimRow.consume]
      by_cases hsame : row.claimId = claimId
      · by_cases hnone : row.consumedPublicationId = none
        · simp [hsame, hnone]
        · simp [hsame, hnone]
      · simp only [hsame, false_and, if_false, List.mem_cons, false_or]

theorem consumeUploadClaims_from (authorities : List BlobAuthority) (db : Db) :
    ∃ last, (authorities.forM (consumeUploadClaim publicationId)).run postgres db = .ok (⟨⟩, last) ∧
      Consumed (authorities.filterMap fun authority =>
        match authority with
        | .uploadClaim claimId => some claimId
        | .sourceArtifact _ => none) publicationId db last := by
  induction authorities generalizing db with
  | nil => exact ⟨db, rfl, .nil _ _⟩
  | cons authority authorities ih =>
    cases authority with
    | sourceArtifact artifactId => exact ih db
    | uploadClaim claimId =>
      obtain ⟨last, hrun, hconsumed⟩ := ih
        (postgres.after (if db.unconsumed claimId then [.consumeClaim claimId publicationId] else []) db)
      exact ⟨last, hrun, hconsumed.cons⟩

theorem consumeUploadClaims_run (prepared : PreparedPublication) (db : Db) :
    ∃ last, (consumeUploadClaims prepared).run postgres db = .ok (⟨⟩, last) ∧
      Consumed prepared.submission.claimIds prepared.submission.intent.publicationId db last :=
  consumeUploadClaims_from _ db

/-! ## Publishing -/

/-- What `publish` has done when it answers. -/
inductive Published (now : Timestamp) (expectedEpoch : Uuid) (prepared : PreparedPublication)
    (admission : UploadAdmission) (db : Db) : PublicationResult → Db → Prop
  | replayed {row : PublicationRow}
      (hrow : db.publication? prepared.submission.intent.scopeId prepared.submission.intent.publicationId =
        some row)
      (hpublisher : row.publisher = prepared.context.publisher)
      (hdigest : row.publicationRequestSha256 = prepared.publicationRequestSha256) :
      Published now expectedEpoch prepared admission db { row.resultMapping with replayed := true } db
  | committed {result : PublicationResult} {recorded last : Db}
      (hnone : db.publication? prepared.submission.intent.scopeId prepared.submission.intent.publicationId = none)
      (hrecorded : Recorded now expectedEpoch prepared admission db result recorded)
      (hconsumed : Consumed prepared.submission.claimIds prepared.submission.intent.publicationId recorded last) :
      Published now expectedEpoch prepared admission db result last

theorem replayPublication_ok {prepared : PreparedPublication} {row : PublicationRow}
    (h : replayPublication prepared row = .ok result) : row.publisher = prepared.context.publisher ∧
      row.publicationRequestSha256 = prepared.publicationRequestSha256 ∧
      result = { row.resultMapping with replayed := true } := by
  rw [replayPublication] at h
  split_ifs at h with hsame
  cases h
  exact ⟨hsame.1, hsame.2, rfl⟩

theorem publishFound_ok {now : Timestamp} {prepared : PreparedPublication}
    (h : (publishFound now epoch prepared admission (db.publication? prepared.submission.intent.scopeId
      prepared.submission.intent.publicationId)).run postgres db = .ok (result, last)) :
    Published now epoch prepared admission db result last := by
  cases hrow : db.publication? prepared.submission.intent.scopeId prepared.submission.intent.publicationId with
  | some row =>
    rw [hrow] at h
    obtain ⟨hreplay, rfl⟩ := run_ofExcept_ok h
    obtain ⟨hpublisher, hdigest, rfl⟩ := replayPublication_ok hreplay
    exact .replayed hrow hpublisher hdigest
  | none =>
    rw [hrow] at h
    obtain ⟨result', recorded, hrecord, hrest⟩ := Body.run_bind_ok h
    obtain ⟨_, consumed, hconsume, hdone⟩ := Body.run_bind_ok hrest
    cases hdone
    obtain ⟨last', hrun, hconsumed⟩ := consumeUploadClaims_run prepared recorded
    rw [hrun] at hconsume
    cases hconsume
    exact .committed hrow (recordPublication_ok hrecord) hconsumed

theorem publish_ok {now : Timestamp} {expectedEpoch : Uuid} {prepared : PreparedPublication}
    (h : (publish now expectedEpoch prepared admission).run postgres db = .ok (result, last)) :
    db.writeMode = .normal ∧ expectedEpoch = db.storeEpoch ∧
      Published now expectedEpoch prepared admission db result last := by
  obtain ⟨epoch, next₁, hstore, h₁⟩ := Body.run_bind_ok h
  obtain ⟨hnormal, rfl⟩ := assertStoreNormal_ok hstore
  obtain ⟨hmode, hepoch, hexpected⟩ := storeNormal_ok hnormal
  obtain ⟨_, next₂, hlock, h₂⟩ := Body.run_bind_ok h₁
  obtain rfl := advisoryLock_ok hlock
  obtain ⟨row, next₃, hselect, h₃⟩ := Body.run_bind_ok h₂
  obtain ⟨rfl, rfl⟩ := Body.run_select_ok hselect
  have hsame := hexpected expectedEpoch rfl
  rw [hepoch, ← hsame] at h₃
  exact ⟨hmode, hsame, publishFound_ok h₃⟩

end AvenOS.ArtifactStore
