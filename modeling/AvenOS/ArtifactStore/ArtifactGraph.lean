import AvenOS.ArtifactStore.StoreRun
import AvenOS.Foundations.KeyedTable

/-! # The graph of artifacts

References, run inputs and evidence go from an artifact to one of its scope that is strictly earlier, and each
artifact keeps the rules of its type. -/
namespace AvenOS.ArtifactStore
open Transactions KeyedTable

/-! ## Order and rules -/

namespace Db

def sequenceOf (db : Db) (row : ArtifactRow) : ℤ :=
  ((db.publication? row.scopeId row.publicationId).map PublicationRow.scopeSequence).getD 0

def Earlier (db : Db) (one other : ArtifactRow) : Prop :=
  one.scopeId = other.scopeId ∧ (db.sequenceOf one < db.sequenceOf other ∨
    db.sequenceOf one = db.sequenceOf other ∧ one.publicationOrdinal < other.publicationOrdinal)

def referencesOf (db : Db) (row : ArtifactRow) (role : Role) : List ReferenceRow :=
  db.references.filter fun reference =>
    reference.scopeId = row.scopeId ∧ reference.sourceArtifactId = row.id ∧ reference.role = role

end Db

inductive Edge (db : Db) : ArtifactRow → ArtifactRow → Prop
  | reference {source target : ArtifactRow} {reference : ReferenceRow} (hsource : source ∈ db.artifacts)
      (htarget : target ∈ db.artifacts) (hreference : reference ∈ db.references)
      (hscope : source.scopeId = reference.scopeId ∧ target.scopeId = reference.scopeId)
      (hid : source.id = reference.sourceArtifactId ∧ target.id = reference.targetArtifactId) :
      Edge db source target
  | runInput {source target : ArtifactRow} {input : RunInputRow} (hsource : source ∈ db.artifacts)
      (htarget : target ∈ db.artifacts) (hinput : input ∈ db.runInputs)
      (hscope : source.scopeId = input.scopeId ∧ target.scopeId = input.scopeId)
      (hid : source.producerRunId = some input.runId ∧ target.id = input.inputArtifactId) : Edge db source target
  | evidence {source target : ArtifactRow} {evidence : EvidenceRow} {input : RunInputRow}
      (hsource : source ∈ db.artifacts) (htarget : target ∈ db.artifacts) (hevidence : evidence ∈ db.evidence)
      (hinput : input ∈ db.runInputs) (hscope : source.scopeId = evidence.scopeId ∧
        input.scopeId = evidence.scopeId ∧ target.scopeId = evidence.scopeId)
      (hnamed : input.runId = evidence.runId ∧ input.role = evidence.inputRole ∧
        input.ordinal = evidence.inputOrdinal)
      (hid : source.id = evidence.outputArtifactId ∧ target.id = input.inputArtifactId) : Edge db source target

def AllowedTargetTypes.allowsRow : AllowedTargetTypes → ArtifactRow → Prop
  | .any, _ => True
  | .exact types, row =>
    ∃ allowed ∈ types, allowed.typeKey = row.typeKey ∧ toInteger allowed.version = row.typeVersion

/-- An artifact keeps the rules of a type: the ordinals of each role are 0, 1, .., each role is declared and
its targets are of an allowed type, and there are as many references as its rule wants. -/
structure ConformsTo (registered : RegisteredTypeDefinition) (db : Db) (row : ArtifactRow) : Prop where
  contiguous : ∀ role, (db.referencesOf row role).map ReferenceRow.ordinal =
    (List.range (db.referencesOf row role).length).map Nat.cast
  allowed : ∀ role, ∀ reference ∈ db.referencesOf row role, ∃ rule,
    registered.definition.rule? role = some rule ∧ ∃ target ∈ db.artifacts, target.scopeId = row.scopeId ∧
      target.id = reference.targetArtifactId ∧ rule.allowedTargetTypes.allowsRow target
  counted : ∀ rule ∈ registered.definition.referenceRules,
    rule.minimum.toNat ≤ (db.referencesOf row rule.role).length ∧
      (db.referencesOf row rule.role).length ≤ rule.maximum.toNat

def TypeOf (catalogs : TypeCatalog → Prop) (row : ArtifactRow) (registered : RegisteredTypeDefinition) : Prop :=
  ∃ catalog, catalogs catalog ∧ ∃ version, toInteger version = row.typeVersion ∧
    catalog.get row.typeKey version = some registered ∧
      registered.typeDefinitionSha256 = row.typeDefinitionSha256

/-- What holds of the graph of a store. -/
structure SoundGraph (catalogs : TypeCatalog → Prop) (db : Db) : Prop where
  reference : ∀ reference ∈ db.references, ∃ source ∈ db.artifacts, ∃ target ∈ db.artifacts,
    source.scopeId = reference.scopeId ∧ source.id = reference.sourceArtifactId ∧
      target.scopeId = reference.scopeId ∧ target.id = reference.targetArtifactId
  runInput : ∀ input ∈ db.runInputs, (∃ run ∈ db.runs, run.scopeId = input.scopeId ∧ run.id = input.runId) ∧
    ∃ target ∈ db.artifacts, target.scopeId = input.scopeId ∧ target.id = input.inputArtifactId
  evidence : ∀ evidence ∈ db.evidence, ∃ source ∈ db.artifacts, ∃ input ∈ db.runInputs,
    source.scopeId = evidence.scopeId ∧ source.id = evidence.outputArtifactId ∧
      source.producerRunId = some evidence.runId ∧ input.scopeId = evidence.scopeId ∧
        input.runId = evidence.runId ∧ input.role = evidence.inputRole ∧ input.ordinal = evidence.inputOrdinal
  earlier : ∀ source target, Edge db source target → db.Earlier target source
  acyclic : ∀ row, ¬Relation.TransGen (Edge db) row row
  typed : ∀ row ∈ db.artifacts, ∃ registered, TypeOf catalogs row registered ∧ ConformsTo registered db row

/-! ## The invariant -/

def artifactKey (row : ArtifactRow) : Uuid × Uuid := (row.scopeId, row.id)

def publicationKey (row : PublicationRow) : Uuid × Uuid := (row.scopeId, row.publicationId)

def runKey (row : RunRow) : Uuid × Uuid := (row.scopeId, row.id)

theorem artifact?_lookup (db : Db) (scopeId artifactId : Uuid) :
    db.artifact? scopeId artifactId = lookup artifactKey (scopeId, artifactId) db.artifacts := by
  refine congrArg (fun wanted => db.artifacts.find? wanted) (funext fun row => decide_eq_decide.mpr ?_)
  rw [artifactKey, Prod.mk.injEq]

theorem publication?_lookup (db : Db) (scopeId publicationId : Uuid) : db.publication? scopeId publicationId =
      lookup publicationKey (scopeId, publicationId) db.publications := by
  refine congrArg (fun wanted => db.publications.find? wanted) (funext fun row => decide_eq_decide.mpr ?_)
  rw [publicationKey, Prod.mk.injEq]

theorem artifact?_some {db : Db} {scopeId artifactId : Uuid} {row : ArtifactRow}
    (h : db.artifact? scopeId artifactId = some row) :
    row ∈ db.artifacts ∧ row.scopeId = scopeId ∧ row.id = artifactId := by
  rw [artifact?_lookup] at h
  obtain ⟨hmem, hkey⟩ := lookup_some h
  exact ⟨hmem, congrArg Prod.fst hkey, congrArg Prod.snd hkey⟩

theorem publication?_some {db : Db} {scopeId publicationId : Uuid} {row : PublicationRow}
    (h : db.publication? scopeId publicationId = some row) :
    row ∈ db.publications ∧ row.scopeId = scopeId ∧ row.publicationId = publicationId := by
  rw [publication?_lookup] at h
  obtain ⟨hmem, hkey⟩ := lookup_some h
  exact ⟨hmem, congrArg Prod.fst hkey, congrArg Prod.snd hkey⟩

structure Graph (catalogs : TypeCatalog → Prop) (db : Db) : Prop where
  publications : Keyed publicationKey db.publications
  sequenced : ∀ row ∈ db.publications, ∃ scope, db.scope? row.scopeId = some scope ∧
    row.scopeSequence ≤ scope.nextSequence
  artifacts : Keyed artifactKey db.artifacts
  published : ∀ row ∈ db.artifacts, ∃ publication,
    db.publication? row.scopeId row.publicationId = some publication ∧ row.producerRunId = publication.runId
  runs : Keyed runKey db.runs
  ran : ∀ publication ∈ db.publications, ∀ runId, publication.runId = some runId →
    ∃ run ∈ db.runs, run.scopeId = publication.scopeId ∧ run.id = runId ∧
      run.publicationId = publication.publicationId
  runInput : ∀ input ∈ db.runInputs, ∃ run ∈ db.runs, run.scopeId = input.scopeId ∧ run.id = input.runId ∧
    ∃ publication target, db.publication? run.scopeId run.publicationId = some publication ∧
      db.artifact? input.scopeId input.inputArtifactId = some target ∧
      db.sequenceOf target < publication.scopeSequence
  reference : ∀ reference ∈ db.references, ∃ source target,
    db.artifact? reference.scopeId reference.sourceArtifactId = some source ∧
      db.artifact? reference.scopeId reference.targetArtifactId = some target ∧ db.Earlier target source
  evidence : ∀ evidence ∈ db.evidence, (∃ source,
      db.artifact? evidence.scopeId evidence.outputArtifactId = some source ∧
        source.producerRunId = some evidence.runId) ∧
    ∃ input ∈ db.runInputs, input.scopeId = evidence.scopeId ∧ input.runId = evidence.runId ∧
      input.role = evidence.inputRole ∧ input.ordinal = evidence.inputOrdinal
  typed : ∀ row ∈ db.artifacts, ∃ registered, TypeOf catalogs row registered ∧ ConformsTo registered db row

/-! ## What follows from it -/

section Sound
variable {catalogs : TypeCatalog → Prop} {db : Db}

theorem Graph.artifact? (h : Graph catalogs db) {row : ArtifactRow} (hrow : row ∈ db.artifacts) :
    db.artifact? row.scopeId row.id = some row := by
  rw [artifact?_lookup]
  exact h.artifacts.lookup hrow

variable {source target : ArtifactRow}

theorem Graph.sequenceOf_run (h : Graph catalogs db) (hsource : source ∈ db.artifacts) {run : RunRow}
    (hrun : run ∈ db.runs) (hscope : run.scopeId = source.scopeId) (hproducer : source.producerRunId = some run.id)
    {publication : PublicationRow} (hpublication : db.publication? run.scopeId run.publicationId = some publication) :
    db.sequenceOf source = publication.scopeSequence := by
  obtain ⟨found, hfound, hproduced⟩ := h.published source hsource
  obtain ⟨hmem, hfoundScope, hfoundId⟩ := publication?_some hfound
  obtain ⟨other, hother, hotherScope, hotherId, hotherPublication⟩ := h.ran found hmem run.id (hproduced ▸ hproducer)
  have hsame : other = run := h.runs.eq hother hrun (Prod.ext
    (hotherScope.trans (hfoundScope.trans hscope.symm)) hotherId)
  rw [← hsame, hotherScope, hotherPublication, hfoundScope, hfoundId, hfound, Option.some.injEq] at hpublication
  rw [Db.sequenceOf, hfound, hpublication]
  rfl

theorem Graph.input_earlier (h : Graph catalogs db) {input : RunInputRow} (hsource : source ∈ db.artifacts)
    (htarget : target ∈ db.artifacts) (hinput : input ∈ db.runInputs)
    (hscope : source.scopeId = input.scopeId ∧ target.scopeId = input.scopeId)
    (hid : source.producerRunId = some input.runId ∧ target.id = input.inputArtifactId) : db.Earlier target source := by
  obtain ⟨run, hrun, hrunScope, hrunId, publication, found, hpublication, hfound, hbefore⟩ := h.runInput input hinput
  have hsame : found = target := by
    rw [← hscope.2, ← hid.2, h.artifact? htarget, Option.some.injEq] at hfound
    exact hfound.symm
  have hsequence := h.sequenceOf_run hsource hrun (hrunScope.trans hscope.1.symm)
    (hid.1.trans (congrArg some hrunId.symm)) hpublication
  refine ⟨hscope.2.trans hscope.1.symm, .inl ?_⟩
  rw [hsequence, ← hsame]
  exact hbefore

theorem Graph.earlier (h : Graph catalogs db) (hedge : Edge db source target) : db.Earlier target source := by
  cases hedge with
  | reference hsource htarget hreference hscope hid =>
    obtain ⟨one, other, hone, hother, hearlier⟩ := h.reference _ hreference
    rw [← hscope.1, ← hid.1, h.artifact? hsource, Option.some.injEq] at hone
    rw [← hscope.2, ← hid.2, h.artifact? htarget, Option.some.injEq] at hother
    rw [hone, hother]
    exact hearlier
  | runInput hsource htarget hinput hscope hid => exact h.input_earlier hsource htarget hinput hscope hid
  | evidence hsource htarget hevidence hinput hscope hnamed hid =>
    obtain ⟨⟨output, houtput, hproducer⟩, -⟩ := h.evidence _ hevidence
    rw [← hscope.1, ← hid.1, h.artifact? hsource, Option.some.injEq] at houtput
    refine h.input_earlier hsource htarget hinput ⟨hscope.1.trans hscope.2.1.symm,
      hscope.2.2.trans hscope.2.1.symm⟩ ⟨?_, hid.2⟩
    rw [houtput, hproducer, hnamed.1]

theorem Db.Earlier.trans {one two three : ArtifactRow} (h : db.Earlier one two) (h' : db.Earlier two three) :
    db.Earlier one three := by
  obtain ⟨hscope, horder⟩ := h
  obtain ⟨hscope', horder'⟩ := h'
  refine ⟨hscope.trans hscope', ?_⟩
  omega

theorem Db.Earlier.irrefl (row : ArtifactRow) : ¬db.Earlier row row := by
  rintro ⟨-, horder⟩
  omega

theorem Graph.sound (h : Graph catalogs db) : SoundGraph catalogs db := by
  refine ⟨fun reference hreference => ?_, fun input hinput => ?_, fun evidence hevidence => ?_,
    fun _ _ => h.earlier, fun row hcycle => ?_, h.typed⟩
  · obtain ⟨source, target, hsource, htarget, -⟩ := h.reference reference hreference
    obtain ⟨hsourceMem, hsourceScope, hsourceId⟩ := artifact?_some hsource
    obtain ⟨htargetMem, htargetScope, htargetId⟩ := artifact?_some htarget
    exact ⟨source, hsourceMem, target, htargetMem, hsourceScope, hsourceId, htargetScope, htargetId⟩
  · obtain ⟨run, hrun, hscope, hid, -, target, -, htarget, -⟩ := h.runInput input hinput
    obtain ⟨hmem, htargetScope, htargetId⟩ := artifact?_some htarget
    exact ⟨⟨run, hrun, hscope, hid⟩, target, hmem, htargetScope, htargetId⟩
  · obtain ⟨⟨source, hsource, hproducer⟩, input, hinput, hnamed⟩ := h.evidence evidence hevidence
    obtain ⟨hmem, hscope, hid⟩ := artifact?_some hsource
    exact ⟨source, hmem, input, hinput, hscope, hid, hproducer, hnamed⟩
  · have hback : ∀ source target, Relation.TransGen (Edge db) source target → db.Earlier target source := by
      intro source target hpath
      induction hpath with
      | single hedge => exact h.earlier hedge
      | tail _ hedge ih => exact (h.earlier hedge).trans ih
    exact Db.Earlier.irrefl row (hback row row hcycle)

end Sound

end AvenOS.ArtifactStore
