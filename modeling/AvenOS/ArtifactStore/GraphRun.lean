import AvenOS.ArtifactStore.ArtifactGraph
import AvenOS.ArtifactStore.OwnClaims

/-! # The graph over runs

Each publication keeps the invariant of the graph, so it holds in every state of every run. -/
namespace AvenOS.ArtifactStore
open Transactions KeyedTable

/-! ## Ordinals -/

theorem validateContiguous_ok {label : String} {expected : Role → UInt32} {entries : List (Role × UInt32)}
    (h : validateContiguous label expected entries = .ok ()) (role : Role) :
    (entries.filter fun entry => entry.1 = role).map Prod.snd =
      (List.range (entries.filter fun entry => entry.1 = role).length).map fun i =>
        expected role + UInt32.ofNat i := by
  induction entries generalizing expected with
  | nil => rfl
  | cons entry entries ih =>
    obtain ⟨other, ordinal⟩ := entry
    rw [validateContiguous] at h
    split_ifs at h with hordinal
    have hrest := ih h
    by_cases hsame : other = role
    · subst hsame
      rw [Function.update_self] at hrest
      have hkeep : ((other, ordinal) :: entries).filter (fun entry => entry.1 = other) =
          (other, ordinal) :: entries.filter fun entry => entry.1 = other :=
        List.filter_cons_of_pos (decide_eq_true rfl)
      rw [hkeep, List.map_cons, hrest, List.length_cons, List.range_succ_eq_map, List.map_cons, List.map_map, hordinal]
      refine congrArg₂ List.cons ?_ (List.map_congr_left fun i _ => ?_)
      · show expected other = expected other + 0
        rw [UInt32.add_zero]
      · have hnext : (1 : UInt32) + UInt32.ofNat i = UInt32.ofNat (i + 1) := by
          rw [UInt32.ofNat_add, UInt32.add_comm]
          rfl
        rw [Function.comp_apply, UInt32.add_assoc, hnext]
    · rw [Function.update_of_ne (Ne.symm hsame)] at hrest
      rw [List.filter_cons_of_neg (by rw [decide_eq_true_eq]; exact hsame)]
      exact hrest

theorem toInteger_ofNat {i : ℕ} (h : (i : ℤ) ≤ maxInteger) : toInteger (UInt32.ofNat i) = i := by
  rw [maxInteger] at h
  rw [toInteger, UInt32.toNat_ofNat', Nat.mod_eq_of_lt (by omega), maxInteger]
  omega

theorem clamped_range {n : ℕ} (h : ((List.range n).map fun i => toInteger (0 + UInt32.ofNat i)).Nodup) :
    (List.range n).map (fun i => toInteger (0 + UInt32.ofNat i)) = (List.range n).map Nat.cast := by
  have hinj := List.inj_on_of_nodup_map h
  have hsmall : n ≤ 2147483648 := by
    by_contra hlarge
    have hlast : toInteger (0 + UInt32.ofNat 2147483647) = toInteger (0 + UInt32.ofNat 2147483648) := by decide
    have hsame := hinj (List.mem_range.mpr (by omega)) (List.mem_range.mpr (by omega)) hlast
    omega
  refine List.map_congr_left fun i hi => ?_
  have hlt := List.mem_range.mp hi
  rw [UInt32.zero_add, toInteger_ofNat (by rw [maxInteger]; omega)]

/-! ## Lookups while the tables grow -/

section Grown
variable {now : Timestamp} {prepared : PreparedPublication} {result : PublicationResult} {db last : Db}

section
variable (h : Grown now prepared result db last)
include h

variable {scopeId : Uuid} {row : ArtifactRow}

theorem Grown.artifact? {artifactId : Uuid} (hrow : db.artifact? scopeId artifactId = some row) :
    last.artifact? scopeId artifactId = some row := by
  rw [artifact?_lookup] at hrow ⊢
  rw [h.artifacts]
  exact lookup_grown hrow _

theorem Grown.publication? {publicationId : Uuid} {row : PublicationRow}
    (hrow : db.publication? scopeId publicationId = some row) : last.publication? scopeId publicationId = some row := by
  rw [publication?_lookup] at hrow ⊢
  rw [h.publications]
  exact lookup_grown hrow _

theorem Grown.sequenceOf {publication : PublicationRow}
    (hpublication : db.publication? row.scopeId row.publicationId = some publication) :
    last.sequenceOf row = db.sequenceOf row := by
  rw [Db.sequenceOf, Db.sequenceOf, h.publication? hpublication, hpublication]

theorem Grown.scope? (scopeId : Uuid) : last.scope? scopeId =
      (db.scope? scopeId).map (ScopeRow.set prepared.submission.intent.scopeId result.scopeSequence) := by
  rw [Db.scope?, h.scopes, List.find?_map, Db.scope?]
  refine congrArg (Option.map _) (congrArg (fun wanted => db.scopes.find? wanted) (funext fun row => ?_))
  rw [Function.comp_apply, ScopeRow.set]
  split_ifs <;> rfl

theorem Grown.earlier {catalogs : TypeCatalog → Prop}
    (hgraph : Graph catalogs db) {one other : ArtifactRow} (hone : one ∈ db.artifacts)
    (hother : other ∈ db.artifacts) (hearlier : db.Earlier one other) : last.Earlier one other := by
  obtain ⟨publication, hpublication, -⟩ := hgraph.published one hone
  obtain ⟨publication', hpublication', -⟩ := hgraph.published other hother
  rw [Db.Earlier, h.sequenceOf hpublication, h.sequenceOf hpublication']
  exact hearlier

end

end Grown

/-! ## What the constraints of the tables say of the new rows -/

section Recorded
variable {now : Timestamp} {epoch : Uuid} {prepared : PreparedPublication} {admission : UploadAdmission}
  {db last : Db} {result : PublicationResult}

section
variable (h : Recorded now epoch prepared admission db result last)
include h

theorem Recorded.grown : Grown now prepared result db last := by
  rw [h.last]
  exact recordedChanges_grown now prepared result db

variable {before rest : List PreparedArtifact} {p : PreparedArtifact}

theorem Recorded.artifact_unique (hsplit : prepared.artifacts = before ++ p :: rest) :
    ∀ other ∈ db.artifacts ++ before.map (artifactRow now prepared), ¬(artifactRow now prepared p).Clashes other := by
  have hunique := (h.artifact before p rest hsplit).unique
  rw [after_artifacts, List.filterMap_cons_none rfl, List.filterMap_cons_none rfl, List.filterMap_append,
    runChanges_other (fun _ => rfl) (fun _ => rfl), artifactChanges_artifact, List.nil_append] at hunique
  exact hunique

theorem Recorded.reference_unique (hsplit : prepared.artifacts = before ++ p :: rest)
    {before' rest' : List PreparedReference} {reference : PreparedReference}
    (hreferences : p.references = before' ++ reference :: rest') :
    ∀ other ∈ before'.map (referenceRow prepared.context.scopeId p.id),
      ¬(other.role = reference.role ∧ other.ordinal = toInteger reference.ordinal) := by
  intro other hother hsame
  have hunique := (h.reference before p rest hsplit before' reference rest' hreferences).unique
  have hrow : ∀ reference, Change.reference? (.insertReference (referenceRow prepared.context.scopeId p.id reference)) =
        some (referenceRow prepared.context.scopeId p.id reference) := fun reference => rfl
  rw [after_references, List.filterMap_cons_none rfl, List.filterMap_cons_none rfl, List.filterMap_append,
    List.filterMap_cons_none rfl, filterMap_wrapped hrow] at hunique
  refine hunique other (List.mem_append_right _ (List.mem_append_right _ hother)) ⟨?_, ?_, hsame⟩
  · obtain ⟨prior, -, rfl⟩ := List.mem_map.mp hother
    rfl
  · obtain ⟨prior, -, rfl⟩ := List.mem_map.mp hother
    rfl

theorem Recorded.input {run : RunIntent}
    {runId : Uuid} (hrun : prepared.run? = some (run, runId)) {input : RunInput} (hinput : input ∈ run.inputs) :
    ∃ artifact, db.artifact? prepared.submission.intent.scopeId input.artifactId = some artifact := by
  obtain ⟨before, rest, hsplit⟩ := List.append_of_mem hinput
  obtain ⟨artifact, hartifact⟩ := ((h.run run runId hrun).2 before input rest hsplit).input
  refine ⟨artifact, ?_⟩
  rw [Db.artifact?, after_artifacts, List.filterMap_cons_none rfl, List.filterMap_cons_none rfl,
    List.filterMap_cons_none rfl, filterMap_other (fun input => rfl), List.append_nil] at hartifact
  exact hartifact

end

end Recorded

/-! ## References and evidence as they are prepared -/

theorem validateEvidence_ok {inputs : List RunInput} {prepared : List PreparedArtifact} {expected : ℕ}
    {evidence : List EvidenceIntent} (h : validateEvidence inputs prepared expected evidence = .ok ()) :
    ∀ item ∈ evidence, ∃ input ∈ inputs, input.role = item.inputRole ∧ input.ordinal = item.inputOrdinal := by
  induction evidence generalizing expected with
  | nil => exact fun item hitem => absurd hitem List.not_mem_nil
  | cons first rest ih =>
    obtain ⟨_, hfirst, hrest⟩ := ExceptLoop.bind_eq_ok h
    intro item hitem
    rcases List.mem_cons.mp hitem with rfl | hitem
    · obtain ⟨_, -, h₁⟩ := ExceptLoop.bind_eq_ok hfirst
      obtain ⟨_, -, h₂⟩ := ExceptLoop.bind_eq_ok h₁
      obtain ⟨_, -, h₃⟩ := ExceptLoop.bind_eq_ok h₂
      obtain ⟨_, hinput, -⟩ := ExceptLoop.bind_eq_ok h₃
      have hnamed := refuseWhen_ok.1 hinput
      push Not at hnamed
      exact hnamed
    · exact ih hrest item hitem

theorem allowsRow_of {allowed : AllowedTargetTypes} {typeKey : TypeKey} {typeVersion : UInt32}
    {row : ArtifactRow} (hallows : allowed.allows typeKey typeVersion = true) (hkey : row.typeKey = typeKey)
    (hversion : row.typeVersion = toInteger typeVersion) : allowed.allowsRow row := by
  cases allowed with
  | any => trivial
  | exact types =>
    obtain ⟨one, hone, hsame⟩ := List.any_eq_true.mp hallows
    rw [Bool.and_eq_true, decide_eq_true_eq, decide_eq_true_eq] at hsame
    exact ⟨one, hone, hsame.1.trans hkey.symm, by rw [hsame.2, hversion]⟩

/-! ## A publication that is committed -/

/-- A publication recorded in a sound graph, prepared with what some earlier state held. -/
structure Committing (kernel : Kernel) (catalogs : TypeCatalog → Prop) (newId : ℕ → Uuid)
    (catalog : TypeCatalog) (existing : Uuid → Option ExistingArtifact) (now : Timestamp) (epoch : Uuid)
    (prepared : PreparedPublication) (admission : UploadAdmission) (past : List Db) (db : Db)
    (result : PublicationResult) (last : Db) : Prop where
  catalogued : catalogs catalog
  read : ∀ artifactId artifact, existing artifactId = some artifact → ∃ earlier ∈ db :: past,
    existingArtifact prepared.submission.intent.scopeId artifactId earlier = .ok (some artifact)
  checked : Prepared kernel newId prepared.context prepared.submission catalog existing prepared
  recorded : Recorded now epoch prepared admission db result last
  graph : Graph catalogs db
  kept : ∀ earlier ∈ past, earlier.artifacts <+: db.artifacts

namespace Committing
variable {kernel : Kernel} {catalogs : TypeCatalog → Prop} {newId : ℕ → Uuid} {catalog : TypeCatalog}
  {existing : Uuid → Option ExistingArtifact} {now : Timestamp} {epoch : Uuid} {prepared : PreparedPublication}
  {admission : UploadAdmission} {past : List Db} {db last : Db} {result : PublicationResult}
  (h : Committing kernel catalogs newId catalog existing now epoch prepared admission past db result last)

include h

theorem sequence_new {row : PublicationRow} (hrow : row ∈ db.publications)
    (hscope : row.scopeId = prepared.submission.intent.scopeId) : row.scopeSequence < result.scopeSequence := by
  obtain ⟨scope, hfound, hle⟩ := h.graph.sequenced row hrow
  obtain ⟨scope', hfound', hresult⟩ := h.recorded.sequence
  rw [hscope, hfound', Option.some.injEq] at hfound
  have hnext : result.scopeSequence = scope.nextSequence + 1 := by rw [hresult, hfound]; rfl
  omega

theorem publications : Keyed publicationKey last.publications := by
  rw [h.recorded.grown.publications]
  refine h.graph.publications.concat fun other hother hkey => ?_
  obtain ⟨hscope, hid⟩ := Prod.ext_iff.mp hkey
  exact (h.recorded.fresh other hother hscope).1 hid

theorem publication : last.publication? prepared.submission.intent.scopeId
    prepared.submission.intent.publicationId = some (publicationRow prepared result) := by
  have hmem : publicationRow prepared result ∈ last.publications := by
    rw [h.recorded.grown.publications]
    exact List.mem_append_right _ List.mem_cons_self
  rw [publication?_lookup]
  exact h.publications.lookup hmem

theorem sequenced : ∀ row ∈ last.publications, ∃ scope, last.scope? row.scopeId = some scope ∧
    row.scopeSequence ≤ scope.nextSequence := by
  obtain ⟨scope, hscope, hresult⟩ := h.recorded.sequence
  have hid : scope.id = prepared.submission.intent.scopeId := by
    have hfound := List.find?_some hscope
    exact of_decide_eq_true hfound
  have hset : last.scope? prepared.submission.intent.scopeId =
      some { scope with nextSequence := result.scopeSequence } := by
    rw [h.recorded.grown.scope?, hscope, Option.map_some, ScopeRow.set, if_pos hid]
  intro row hrow
  rw [h.recorded.grown.publications] at hrow
  rcases List.mem_append.mp hrow with hold | hnew
  · by_cases hsame : row.scopeId = prepared.submission.intent.scopeId
    · rw [hsame]
      exact ⟨_, hset, (h.sequence_new hold hsame).le⟩
    · obtain ⟨other, hother, hle⟩ := h.graph.sequenced row hold
      have hotherId : other.id = row.scopeId := by
        have hfound := List.find?_some hother
        exact of_decide_eq_true hfound
      refine ⟨other, ?_, hle⟩
      rw [h.recorded.grown.scope?, hother, Option.map_some, ScopeRow.set, if_neg]
      exact fun heq => hsame (hotherId.symm.trans heq)
  · rw [List.mem_singleton.mp hnew]
    exact ⟨_, hset, le_refl _⟩

variable {row : ArtifactRow} {p : PreparedArtifact} {before rest : List PreparedArtifact} {runId : Uuid}

theorem sequence_old (hrow : row ∈ db.artifacts) (hscope : row.scopeId = prepared.submission.intent.scopeId) :
    last.sequenceOf row < result.scopeSequence := by
  obtain ⟨publication, hpublication, -⟩ := h.graph.published row hrow
  obtain ⟨hmem, hpublicationScope, -⟩ := publication?_some hpublication
  rw [h.recorded.grown.sequenceOf hpublication, Db.sequenceOf, hpublication]
  exact h.sequence_new hmem (hpublicationScope.trans hscope)

theorem sequence_artifact (p : PreparedArtifact) :
    last.sequenceOf (artifactRow now prepared p) = result.scopeSequence := by
  rw [Db.sequenceOf]
  show ((last.publication? prepared.context.scopeId prepared.submission.intent.publicationId).map _).getD 0 = _
  rw [h.checked.scope, h.publication]
  rfl

theorem artifacts : Keyed artifactKey last.artifacts := by
  rw [h.recorded.grown.artifacts]
  refine h.graph.artifacts.append fun before row rest hsplit other hother hkey => ?_
  obtain ⟨before', rest', hprior, rfl, hlater⟩ := List.map_eq_append_iff.mp hsplit
  obtain ⟨p, rest'', rfl, rfl, -⟩ := List.map_eq_cons_iff.mp hlater
  obtain ⟨hscope, hid⟩ := Prod.ext_iff.mp hkey
  exact h.recorded.artifact_unique hprior other hother ⟨hscope, .inl hid⟩

theorem mem (hp : p ∈ prepared.artifacts) : artifactRow now prepared p ∈ last.artifacts := by
  rw [h.recorded.grown.artifacts]
  exact List.mem_append_right _ (List.mem_map_of_mem hp)

theorem artifact? (hrow : row ∈ last.artifacts) : last.artifact? row.scopeId row.id = some row := by
  rw [artifact?_lookup]
  exact h.artifacts.lookup hrow

theorem published : ∀ row ∈ last.artifacts, ∃ publication,
    last.publication? row.scopeId row.publicationId = some publication ∧ row.producerRunId = publication.runId := by
  intro row hrow
  rw [h.recorded.grown.artifacts] at hrow
  rcases List.mem_append.mp hrow with hold | hnew
  · obtain ⟨publication, hpublication, hproducer⟩ := h.graph.published row hold
    exact ⟨publication, h.recorded.grown.publication? hpublication, hproducer⟩
  · obtain ⟨p, -, rfl⟩ := List.mem_map.mp hnew
    refine ⟨publicationRow prepared result, ?_, rfl⟩
    show last.publication? prepared.context.scopeId prepared.submission.intent.publicationId = _
    rw [h.checked.scope]
    exact h.publication

variable {q : PreparedArtifact} {artifact : IntentArtifact} {registered : RegisteredTypeDefinition} {run : RunIntent}

theorem id_ne (hsplit : prepared.artifacts = before ++ p :: rest) (hq : q ∈ before ++ rest) : q.id ≠ p.id := by
  rcases List.mem_append.mp hq with hbefore | hafter
  · intro hid
    exact h.recorded.artifact_unique hsplit (artifactRow now prepared q)
      (List.mem_append_right _ (List.mem_map_of_mem hbefore)) ⟨rfl, .inl hid⟩
  · obtain ⟨middle, tail, rfl⟩ := List.append_of_mem hafter
    intro hid
    have hsplit' : prepared.artifacts = (before ++ p :: middle) ++ q :: tail := by
      rw [hsplit, List.append_assoc, List.cons_append]
    exact h.recorded.artifact_unique hsplit' (artifactRow now prepared p)
      (List.mem_append_right _ (List.mem_map_of_mem (List.mem_append_right _ List.mem_cons_self)))
      ⟨rfl, .inl hid.symm⟩

theorem old_ne (hp : p ∈ prepared.artifacts)
    (hrow : row ∈ db.artifacts) : ¬(row.scopeId = prepared.context.scopeId ∧ row.id = p.id) := by
  obtain ⟨before, rest, hsplit⟩ := List.append_of_mem hp
  intro hsame
  exact h.recorded.artifact_unique hsplit row (List.mem_append_left _ hrow) ⟨hsame.1, .inl hsame.2⟩

/-! ### Targets -/

theorem ordinal_lt (hsplit : prepared.artifacts = before ++ p :: rest) (hq : q ∈ before) :
    (artifactRow now prepared q).publicationOrdinal < (artifactRow now prepared p).publicationOrdinal := by
  obtain ⟨first, middle, rfl⟩ := List.append_of_mem hq
  obtain ⟨_, _, -, hp⟩ := h.checked.artifacts _ p rest hsplit
  obtain ⟨_, _, -, hq'⟩ := h.checked.artifacts first q (middle ++ p :: rest)
    (by rw [hsplit, List.append_assoc, List.cons_append])
  have hne := h.recorded.artifact_unique hsplit (artifactRow now prepared q)
    (List.mem_append_right _ (List.mem_map_of_mem hq))
  have hdiffer : toInteger q.publicationOrdinal ≠ toInteger p.publicationOrdinal := fun hsame =>
    hne ⟨rfl, .inr (.inl ⟨rfl, .inr hsame⟩)⟩
  have hfew := hp.few
  have hfew' := hq'.few
  show toInteger q.publicationOrdinal < toInteger p.publicationOrdinal
  rw [hp.ordinal, hq'.ordinal] at hdiffer ⊢
  rw [toInteger, toInteger, UInt32.toNat_ofNat', UInt32.toNat_ofNat', Nat.mod_eq_of_lt hfew,
    Nat.mod_eq_of_lt hfew', List.length_append, List.length_cons] at hdiffer ⊢
  omega

theorem existing_row {artifactId : Uuid} {target : ExistingArtifact} (htarget : existing artifactId = some target) :
    ∃ row ∈ db.artifacts, row.scopeId = prepared.submission.intent.scopeId ∧ row.id = target.id ∧
      row.typeKey = target.typeKey ∧ row.typeVersion = toInteger target.typeVersion := by
  obtain ⟨earlier, hearlier, hfound⟩ := h.read artifactId target htarget
  rw [existingArtifact] at hfound
  cases hrow : earlier.artifact? prepared.submission.intent.scopeId artifactId with
  | none =>
    rw [hrow] at hfound
    cases hfound
  | some row =>
    rw [hrow] at hfound
    obtain ⟨converted, hconverted, hsame⟩ := ExceptLoop.map_eq_ok hfound
    cases hsame
    obtain ⟨version, hversion, hrest⟩ := ExceptLoop.bind_eq_ok hconverted
    obtain ⟨blob, -, hdone⟩ := ExceptLoop.bind_eq_ok hrest
    cases hdone
    obtain ⟨hmem, hscope, -⟩ := artifact?_some hrow
    have hnow : row ∈ db.artifacts := by
      rcases List.mem_cons.mp hearlier with rfl | hpast
      · exact hmem
      · exact (h.kept earlier hpast).subset hmem
    refine ⟨row, hnow, hscope, rfl, rfl, ?_⟩
    -- the version of a stored artifact is one that was clamped before
    obtain ⟨registered, ⟨catalog', -, version', hversion', -⟩, -⟩ := h.graph.typed row hnow
    rw [toU32] at hversion
    split_ifs at hversion
    cases hversion
    rw [← hversion', toInteger_ofNat]
    · rw [Int.toNat_of_nonneg]
      rw [toInteger, maxInteger]
      omega
    · rw [Int.toNat_of_nonneg, toInteger]
      · omega
      · rw [toInteger, maxInteger]
        omega

theorem target (hsplit : prepared.artifacts = before ++ p :: rest)
    (hp : ArtifactPrepared kernel catalog existing prepared.submission newId before artifact p registered)
    {reference : PreparedReference} (hreference : reference ∈ p.references) :
    ∃ row ∈ last.artifacts, row.scopeId = prepared.submission.intent.scopeId ∧
      row.id = reference.targetArtifactId ∧ last.Earlier row (artifactRow now prepared p) ∧
      ∃ rule, registered.definition.rule? reference.role = some rule ∧ rule.allowedTargetTypes.allowsRow row := by
  obtain ⟨intent, -, hprepared⟩ := ExceptLoop.forall₂_right hp.references hreference
  obtain ⟨typeKey, typeVersion, hresolves, rule, hrule, hallows⟩ := hprepared.target
  rw [← hprepared.role] at hrule
  generalize hresolved : (reference.targetArtifactId, reference.targetArtifactSha256, typeKey, typeVersion) =
    resolved at hresolves
  generalize intent.target = target at hresolves
  cases hresolves with
  | @existing artifactId target hfound hscope =>
    obtain ⟨hid, -, hkey, hversion⟩ : _ ∧ _ ∧ _ ∧ _ := by simpa only [Prod.mk.injEq] using hresolved
    obtain ⟨row, hrow, hrowScope, hrowId, hrowKey, hrowVersion⟩ := h.existing_row hfound
    have hlast : row ∈ last.artifacts := by
      rw [h.recorded.grown.artifacts]
      exact List.mem_append_left _ hrow
    refine ⟨row, hlast, hrowScope, hrowId.trans hid.symm, ⟨hrowScope.trans h.checked.scope.symm, .inl ?_⟩,
      rule, hrule, allowsRow_of hallows (hrowKey.trans hkey.symm) (hrowVersion.trans (by rw [hversion]))⟩
    rw [h.sequence_artifact]
    exact h.sequence_old hrow hrowScope
  | @«local» localKey target hmem hkey =>
    obtain ⟨hid, -, htype, hversion⟩ : _ ∧ _ ∧ _ ∧ _ := by simpa only [Prod.mk.injEq] using hresolved
    have hin : target ∈ prepared.artifacts := by
      rw [hsplit]
      exact List.mem_append_left _ hmem
    refine ⟨artifactRow now prepared target, h.mem hin, h.checked.scope, hid.symm, ⟨rfl, .inr ⟨?_, ?_⟩⟩, rule,
      hrule, allowsRow_of hallows htype.symm (by rw [hversion]; rfl)⟩
    · rw [h.sequence_artifact, h.sequence_artifact]
    · exact h.ordinal_lt hsplit hmem

theorem reference : ∀ reference ∈ last.references, ∃ source target,
    last.artifact? reference.scopeId reference.sourceArtifactId = some source ∧
      last.artifact? reference.scopeId reference.targetArtifactId = some target ∧ last.Earlier target source := by
  intro reference hreference
  rw [h.recorded.grown.references] at hreference
  rcases List.mem_append.mp hreference with hold | hnew
  · obtain ⟨source, target, hsource, htarget, hearlier⟩ := h.graph.reference reference hold
    exact ⟨source, target, h.recorded.grown.artifact? hsource, h.recorded.grown.artifact? htarget,
      h.recorded.grown.earlier h.graph (artifact?_some htarget).1 (artifact?_some hsource).1 hearlier⟩
  · obtain ⟨p, hp, hin⟩ := List.mem_flatMap.mp hnew
    obtain ⟨prior, hprior, rfl⟩ := List.mem_map.mp hin
    obtain ⟨before, rest, hsplit⟩ := List.append_of_mem hp
    obtain ⟨artifact, registered, -, hprepared⟩ := h.checked.artifacts before p rest hsplit
    obtain ⟨row, hrow, hscope, hid, hearlier, -⟩ := h.target hsplit hprepared hprior
    have htarget := h.artifact? hrow
    rw [hscope, ← h.checked.scope, hid] at htarget
    exact ⟨_, row, h.artifact? (h.mem hp), htarget, hearlier⟩

/-! ### Runs -/

theorem run_of_id (hid : prepared.runId = some runId) : ∃ run, prepared.run? = some (run, runId) := by
  have hrunId := h.checked.runId
  rw [hid] at hrunId
  cases hbody : prepared.submission.intent.body with
  | roots actor =>
    rw [hbody] at hrunId
    cases hrunId
  | run run =>
    refine ⟨run, ?_⟩
    rw [PreparedPublication.run?, hbody, hid]

omit h in
theorem body_of_run (hrun : prepared.run? = some (run, runId)) :
    prepared.submission.intent.body = .run run ∧ prepared.runId = some runId := by
  unfold PreparedPublication.run? at hrun
  split at hrun
  next intent found hbody hid =>
    cases hrun
    exact ⟨hbody, hid⟩
  next => cases hrun

omit h in
theorem newRuns_mem {row : RunRow} (hrow : row ∈ newRuns prepared) :
    ∃ run runId, prepared.run? = some (run, runId) ∧ row = runRow prepared runId := by
  rw [newRuns] at hrow
  cases hrun : prepared.run? with
  | none =>
    rw [hrun] at hrow
    cases hrow
  | some pair =>
    rw [hrun] at hrow
    exact ⟨pair.1, pair.2, rfl, List.mem_singleton.mp hrow⟩

omit h in
theorem mem_newRuns (hrun : prepared.run? = some (run, runId)) : runRow prepared runId ∈ newRuns prepared := by
  rw [newRuns, hrun]
  exact List.mem_cons_self

theorem runs : Keyed runKey last.runs := by
  rw [h.recorded.grown.runs]
  refine h.graph.runs.append fun before row rest hsplit other hother hkey => ?_
  have hrow : row ∈ newRuns prepared := by
    rw [hsplit]
    exact List.mem_append_right _ List.mem_cons_self
  obtain ⟨run, runId, hrun, rfl⟩ := newRuns_mem hrow
  have hbefore : before = [] := by
    rw [newRuns, hrun, List.singleton_eq_append_iff] at hsplit
    rcases hsplit with ⟨hnil, -⟩ | ⟨-, hnil⟩
    · exact hnil
    · cases hnil
  rw [hbefore, List.append_nil] at hother
  obtain ⟨hscope, hid⟩ := Prod.ext_iff.mp hkey
  exact (h.recorded.run run runId hrun).1 other hother hscope hid

theorem ran : ∀ publication ∈ last.publications, ∀ runId, publication.runId = some runId →
    ∃ run ∈ last.runs, run.scopeId = publication.scopeId ∧ run.id = runId ∧
      run.publicationId = publication.publicationId := by
  intro publication hpublication runId hid
  rw [h.recorded.grown.publications] at hpublication
  rw [h.recorded.grown.runs]
  rcases List.mem_append.mp hpublication with hold | hnew
  · obtain ⟨run, hrun, hsame⟩ := h.graph.ran publication hold runId hid
    exact ⟨run, List.mem_append_left _ hrun, hsame⟩
  · rw [List.mem_singleton.mp hnew] at hid ⊢
    obtain ⟨run, hrun⟩ := h.run_of_id hid
    exact ⟨_, List.mem_append_right _ (mem_newRuns hrun), rfl, rfl, rfl⟩

theorem runInput : ∀ input ∈ last.runInputs, ∃ run ∈ last.runs, run.scopeId = input.scopeId ∧
    run.id = input.runId ∧ ∃ publication target, last.publication? run.scopeId run.publicationId = some publication ∧
        last.artifact? input.scopeId input.inputArtifactId = some target ∧
        last.sequenceOf target < publication.scopeSequence := by
  intro input hinput
  rw [h.recorded.grown.runInputs] at hinput
  rw [h.recorded.grown.runs]
  rcases List.mem_append.mp hinput with hold | hnew
  · obtain ⟨run, hrun, hscope, hid, publication, target, hpublication, htarget, hbefore⟩ := h.graph.runInput input hold
    obtain ⟨found, hfound, -⟩ := h.graph.published target (artifact?_some htarget).1
    refine ⟨run, List.mem_append_left _ hrun, hscope, hid, publication, target,
      h.recorded.grown.publication? hpublication, h.recorded.grown.artifact? htarget, ?_⟩
    rw [h.recorded.grown.sequenceOf hfound]
    exact hbefore
  · rw [newRunInputs] at hnew
    cases hrun : prepared.run? with
    | none =>
      rw [hrun] at hnew
      cases hnew
    | some pair =>
      rw [hrun] at hnew
      obtain ⟨asked, hasked, rfl⟩ := List.mem_map.mp hnew
      obtain ⟨target, htarget⟩ := h.recorded.input hrun hasked
      obtain ⟨hmem, hscope, -⟩ := artifact?_some htarget
      exact ⟨_, List.mem_append_right _ (mem_newRuns hrun), rfl, rfl, _, target, h.publication,
        h.recorded.grown.artifact? htarget, h.sequence_old hmem hscope⟩

theorem evidence : ∀ evidence ∈ last.evidence, (∃ source,
      last.artifact? evidence.scopeId evidence.outputArtifactId = some source ∧
        source.producerRunId = some evidence.runId) ∧
    ∃ input ∈ last.runInputs, input.scopeId = evidence.scopeId ∧ input.runId = evidence.runId ∧
      input.role = evidence.inputRole ∧ input.ordinal = evidence.inputOrdinal := by
  intro evidence hevidence
  rw [h.recorded.grown.evidence] at hevidence
  rw [h.recorded.grown.runInputs]
  rcases List.mem_append.mp hevidence with hold | hnew
  · obtain ⟨⟨source, hsource, hproducer⟩, input, hinput, hnamed⟩ := h.graph.evidence evidence hold
    exact ⟨⟨source, h.recorded.grown.artifact? hsource, hproducer⟩, input, List.mem_append_left _ hinput, hnamed⟩
  · rw [newEvidence] at hnew
    cases hrun : prepared.run? with
    | none =>
      rw [hrun] at hnew
      cases hnew
    | some pair =>
      obtain ⟨run, runId⟩ := pair
      rw [hrun] at hnew
      obtain ⟨asked, hasked, hrow⟩ := List.mem_filterMap.mp hnew
      obtain ⟨p, hfound, rfl⟩ := Option.map_eq_some_iff.mp hrow
      obtain ⟨hbody, hid⟩ := body_of_run hrun
      obtain ⟨input, hinput, hrole, hordinal⟩ := validateEvidence_ok h.checked.evidence asked hasked
      rw [hbody] at hinput
      refine ⟨⟨_, h.artifact? (h.mem (List.mem_of_find?_eq_some hfound)), hid⟩, runInputRow prepared runId input,
        List.mem_append_right _ ?_, h.checked.scope.symm, rfl, hrole, congrArg toInteger hordinal⟩
      rw [newRunInputs, hrun]
      exact List.mem_map_of_mem hinput

/-! ### Types -/

theorem references_old (hrow : row ∈ db.artifacts) (role : Role) :
    last.referencesOf row role = db.referencesOf row role := by
  rw [Db.referencesOf, h.recorded.grown.references, List.filter_append, Db.referencesOf]
  refine (congrArg _ (List.filter_eq_nil_iff.mpr fun reference hreference hkept => ?_)).trans (List.append_nil _)
  obtain ⟨p, hp, hin⟩ := List.mem_flatMap.mp hreference
  obtain ⟨prior, -, rfl⟩ := List.mem_map.mp hin
  obtain ⟨hscope, hid, -⟩ := of_decide_eq_true hkept
  exact h.old_ne hp hrow ⟨hscope.symm, hid.symm⟩

theorem references_new (hsplit : prepared.artifacts = before ++ p :: rest) (role : Role) :
    last.referencesOf (artifactRow now prepared p) role =
      (p.references.filter fun reference => reference.role = role).map
        (referenceRow prepared.context.scopeId p.id) := by
  have hold : (db.references.filter fun reference =>
      reference.scopeId = (artifactRow now prepared p).scopeId ∧
        reference.sourceArtifactId = (artifactRow now prepared p).id ∧ reference.role = role) = [] := by
    refine List.filter_eq_nil_iff.mpr fun reference hreference hkept => ?_
    obtain ⟨hscope, hid, -⟩ := of_decide_eq_true hkept
    obtain ⟨source, target, hsource, -⟩ := h.graph.reference reference hreference
    obtain ⟨hmem, hsourceScope, hsourceId⟩ := artifact?_some hsource
    have hp : p ∈ prepared.artifacts := by
      rw [hsplit]
      exact List.mem_append_right _ List.mem_cons_self
    exact h.old_ne hp hmem ⟨hsourceScope.trans hscope, hsourceId.trans hid⟩
  have hother : ∀ others : List PreparedArtifact, (∀ q ∈ others, q.id ≠ p.id) →
      ((others.flatMap fun q => q.references.map (referenceRow prepared.context.scopeId q.id)).filter
        fun reference => reference.scopeId = (artifactRow now prepared p).scopeId ∧
          reference.sourceArtifactId = (artifactRow now prepared p).id ∧ reference.role = role) = [] := by
    intro others hne
    refine List.filter_eq_nil_iff.mpr fun reference hreference hkept => ?_
    obtain ⟨q, hq, hin⟩ := List.mem_flatMap.mp hreference
    obtain ⟨prior, -, rfl⟩ := List.mem_map.mp hin
    exact hne q hq (of_decide_eq_true hkept).2.1
  have hown : ((p.references.map (referenceRow prepared.context.scopeId p.id)).filter fun reference =>
      reference.scopeId = (artifactRow now prepared p).scopeId ∧
        reference.sourceArtifactId = (artifactRow now prepared p).id ∧ reference.role = role) =
      (p.references.filter fun reference => reference.role = role).map
        (referenceRow prepared.context.scopeId p.id) := by
    rw [List.filter_map]
    refine congrArg _ (congrArg (fun keep => p.references.filter keep) (funext fun reference => ?_))
    refine decide_eq_decide.mpr ⟨fun hkept => hkept.2.2, fun hrole => ⟨rfl, rfl, hrole⟩⟩
  rw [Db.referencesOf, h.recorded.grown.references, List.filter_append, hold, List.nil_append, newReferences,
    hsplit, List.flatMap_append, List.filter_append,
    hother before fun q hq => h.id_ne hsplit (List.mem_append_left _ hq), List.nil_append, List.flatMap_cons,
    List.filter_append, hown, hother rest fun q hq => h.id_ne hsplit (List.mem_append_right _ hq), List.append_nil]

theorem ordinals_nodup (hsplit : prepared.artifacts = before ++ p :: rest) (role : Role) :
    ((p.references.filter fun reference => reference.role = role).map fun reference =>
      toInteger reference.ordinal).Nodup := by
  have hkeyed : Keyed (fun row : ReferenceRow => (row.role, row.ordinal))
      ([] ++ p.references.map (referenceRow prepared.context.scopeId p.id)) := by
    refine Keyed.nil.append fun before' row rest' hreferences other hother hkey => ?_
    obtain ⟨first, later, hprior, rfl, hlater⟩ := List.map_eq_append_iff.mp hreferences
    obtain ⟨reference, tail, rfl, rfl, -⟩ := List.map_eq_cons_iff.mp hlater
    obtain ⟨hrole, hordinal⟩ := Prod.ext_iff.mp hkey
    exact h.recorded.reference_unique hsplit hprior other hother ⟨hrole, hordinal⟩
  rw [List.nil_append, Keyed, List.map_map] at hkeyed
  have hpairs : ((p.references.filter fun reference => reference.role = role).map
      fun reference => (reference.role, toInteger reference.ordinal)).Nodup :=
    hkeyed.sublist (List.filter_sublist.map _)
  have hrole : ((p.references.filter fun reference => reference.role = role).map
      fun reference => (reference.role, toInteger reference.ordinal)) =
      ((p.references.filter fun reference => reference.role = role).map fun reference =>
        toInteger reference.ordinal).map (Prod.mk role) := by
    rw [List.map_map]
    refine List.map_congr_left fun reference hreference => ?_
    have hkept := List.of_mem_filter hreference
    rw [of_decide_eq_true hkept]
    rfl
  rw [hrole] at hpairs
  exact hpairs.of_map _

theorem conforms_new (hsplit : prepared.artifacts = before ++ p :: rest)
    (hp : ArtifactPrepared kernel catalog existing prepared.submission newId before artifact p registered) :
    ConformsTo registered last (artifactRow now prepared p) := by
  refine ⟨fun role => ?_, fun role reference hreference => ?_, fun rule hrule => ?_⟩
  · have hentries : (artifact.references.map fun reference => (reference.role, reference.ordinal)) =
        p.references.map fun reference => (reference.role, reference.ordinal) := by
      refine List.Forall₂.recOn hp.references rfl fun hsame _ ih => ?_
      rw [List.map_cons, List.map_cons, ih, hsame.role, hsame.ordinal]
    have hcontiguous := hp.contiguous
    rw [hentries] at hcontiguous
    have hordinals := validateContiguous_ok hcontiguous role
    rw [List.filter_map, List.map_map, List.length_map] at hordinals
    have hnodup := h.ordinals_nodup hsplit role
    have hmap : ((p.references.filter fun reference => reference.role = role).map fun reference =>
        toInteger reference.ordinal) =
        (List.range (p.references.filter fun reference => reference.role = role).length).map fun i =>
          toInteger (0 + UInt32.ofNat i) := by
      have hboth := congrArg (List.map toInteger) hordinals
      rw [List.map_map, List.map_map] at hboth
      exact hboth
    rw [h.references_new hsplit, List.map_map, List.length_map]
    rw [hmap] at hnodup
    exact hmap.trans (clamped_range hnodup)
  · rw [h.references_new hsplit] at hreference
    obtain ⟨prior, hprior, rfl⟩ := List.mem_map.mp hreference
    obtain ⟨hmem, hrole⟩ := List.mem_filter.mp hprior
    obtain ⟨row, hrow, hscope, hid, -, rule, hrule, hallows⟩ := h.target hsplit hp hmem
    rw [of_decide_eq_true hrole] at hrule
    exact ⟨rule, hrule, row, hrow, hscope.trans h.checked.scope.symm, hid, hallows⟩
  · rw [h.references_new hsplit, List.length_map]
    exact hp.counts rule hrule

theorem typed : ∀ row ∈ last.artifacts, ∃ registered, TypeOf catalogs row registered ∧
    ConformsTo registered last row := by
  intro row hrow
  rw [h.recorded.grown.artifacts] at hrow
  rcases List.mem_append.mp hrow with hold | hnew
  · obtain ⟨registered, htype, hconforms⟩ := h.graph.typed row hold
    refine ⟨registered, htype, ?_, fun role reference hreference => ?_, fun rule hrule => ?_⟩
    · intro role
      rw [h.references_old hold]
      exact hconforms.contiguous role
    · rw [h.references_old hold] at hreference
      obtain ⟨rule, hrule, target, htarget, hallowed⟩ := hconforms.allowed role reference hreference
      refine ⟨rule, hrule, target, ?_, hallowed⟩
      rw [h.recorded.grown.artifacts]
      exact List.mem_append_left _ htarget
    · rw [h.references_old hold]
      exact hconforms.counted rule hrule
  · obtain ⟨p, hp, rfl⟩ := List.mem_map.mp hnew
    obtain ⟨before, rest, hsplit⟩ := List.append_of_mem hp
    obtain ⟨artifact, registered, -, hprepared⟩ := h.checked.artifacts before p rest hsplit
    refine ⟨registered, ⟨catalog, h.catalogued, artifact.typeVersion, ?_, ?_, hprepared.definition.symm⟩,
      h.conforms_new hsplit hprepared⟩
    · exact congrArg toInteger hprepared.typeVersion.symm
    · show catalog.get p.typeKey artifact.typeVersion = some registered
      rw [hprepared.typeKey]
      exact hprepared.catalogued

theorem graph_last : Graph catalogs last :=
  ⟨h.publications, h.sequenced, h.artifacts, h.published, h.runs, h.ran, h.runInput, h.reference, h.evidence, h.typed⟩

end Committing

/-! ## Runs -/

section Run
variable {kernel : Kernel} {catalogs : TypeCatalog → Prop} {start db last : Db} {past : List Db}
  {events : List StoreEvent}

theorem Graph.same (h : Graph catalogs db) (hsame : SameGraph db last) : Graph catalogs last := by
  obtain ⟨hscopes, hpublications, hruns, hinputs, hartifacts, hreferences, hevidence⟩ := hsame
  cases db
  cases last
  subst hscopes hpublications hruns hinputs hartifacts hreferences hevidence
  exact ⟨h.publications, h.sequenced, h.artifacts, h.published, h.runs, h.ran, h.runInput, h.reference,
    h.evidence, fun row hrow => by
      obtain ⟨registered, htype, hconforms⟩ := h.typed row hrow
      exact ⟨registered, htype, hconforms.contiguous, hconforms.allowed, hconforms.counted⟩⟩

theorem Db.Blank.graph (h : start.Blank) : Graph catalogs start := by
  refine ⟨?_, ?_, ?_, ?_, ?_, ?_, ?_, ?_, ?_, ?_⟩
  · rw [h.publications]
    exact .nil
  · rw [h.publications]
    exact fun row hrow => absurd hrow List.not_mem_nil
  · rw [h.artifacts]
    exact .nil
  · rw [h.artifacts]
    exact fun row hrow => absurd hrow List.not_mem_nil
  · rw [h.runs]
    exact .nil
  · rw [h.publications]
    exact fun row hrow => absurd hrow List.not_mem_nil
  · rw [h.runInputs]
    exact fun row hrow => absurd hrow List.not_mem_nil
  · rw [h.references]
    exact fun row hrow => absurd hrow List.not_mem_nil
  · rw [h.evidence]
    exact fun row hrow => absurd hrow List.not_mem_nil
  · rw [h.artifacts]
    exact fun row hrow => absurd hrow List.not_mem_nil

theorem Commits.graph {prepared : PreparedPublication} (h : Commits kernel catalogs past db prepared last)
    (hgraph : Graph catalogs db) (hkept : ∀ earlier ∈ past, earlier.artifacts <+: db.artifacts) :
    Graph catalogs last ∧ db.artifacts <+: last.artifacts := by
  cases h with
  | intro hcatalog hread hprepared hnone hrecorded hconsumed =>
    have hcommitting := Committing.mk hcatalog hread hprepared hrecorded hgraph hkept
    have hsame := hconsumed.sameGraph
    refine ⟨hcommitting.graph_last.same hsame, ?_⟩
    rw [hsame.artifacts, hrecorded.grown.artifacts]
    exact List.prefix_append _ _

theorem StoreRun.graph (hblank : start.Blank) (hrun : StoreRun kernel catalogs start db past events) :
    Graph catalogs db ∧ ∀ earlier ∈ past, earlier.artifacts <+: db.artifacts := by
  induction hrun with
  | start => exact ⟨hblank.graph, fun earlier hearlier => absurd hearlier List.not_mem_nil⟩
  | @step db last past events added _ hstep ih =>
    obtain ⟨hgraph, hkept⟩ := ih
    have hnext : Graph catalogs last ∧ db.artifacts <+: last.artifacts := by
      rcases hstep.commits with ⟨hsame, -⟩ | ⟨prepared, -, hcommits⟩
      · exact ⟨hgraph.same hsame, hsame.artifacts ▸ List.prefix_rfl⟩
      · exact hcommits.graph hgraph hkept
    refine ⟨hnext.1, fun earlier hearlier => ?_⟩
    rcases List.mem_cons.mp hearlier with rfl | hpast
    · exact hnext.2
    · exact (hkept earlier hpast).trans hnext.2

end Run

/-- In every state of every run the graph is scoped and acyclic, and each artifact keeps the rules of its
type. -/
theorem graph_acyclic {kernel : Kernel} {catalogs : TypeCatalog → Prop} {start db : Db} {past : List Db}
    {events : List StoreEvent} (hblank : start.Blank)
    (hrun : StoreRun kernel catalogs start db past events) : SoundGraph catalogs db :=
  (hrun.graph hblank).1.sound

theorem graph_acyclic_note : ∃ db past events,
    StoreRun plainKernel (· = ⟨[noteDefinition]⟩) (noteDb [] []) db past events ∧ db.artifacts ≠ [] ∧
      SoundGraph (· = ⟨[noteDefinition]⟩) db := by
  obtain ⟨digest, sha256, hprepare⟩ := stray_prepared
  obtain ⟨result, last, hpublish, hartifacts, -⟩ := stray_published digest sha256 [] []
  have hrun : StoreRun plainKernel (· = ⟨[noteDefinition]⟩) (noteDb [] []) last [noteDb [] []]
      ((if result.replayed then [] else [.published (strayPrepared digest sha256)]) ++ []) :=
    .step .start (.publish rfl (fun _ _ h => (by cases h)) hprepare hpublish)
  have hblank : (noteDb [] []).Blank := ⟨by decide, rfl, rfl, rfl, rfl, rfl, rfl, rfl, rfl⟩
  exact ⟨last, _, _, hrun, hartifacts, graph_acyclic hblank hrun⟩

end AvenOS.ArtifactStore
