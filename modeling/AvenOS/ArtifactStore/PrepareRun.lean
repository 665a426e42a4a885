import AvenOS.ArtifactStore.Prepare

/-! # What a prepared publication is

Everything `prepare_publication` has checked when it answers: the submission as a whole, each artifact after
the ones before it, each reference and each piece of evidence. -/
namespace AvenOS.ArtifactStore

/-! ## Checks -/

variable {α : Type}

theorem ok_bind {β : Type} (a : α) (f : α → Except CoreError β) : (Except.ok a >>= f) = f a := rfl

variable {condition : Prop} {error : CoreError} {u : Unit} {kernel : Kernel} {publisher : StablePublisher}
  {intent : PublicationIntent} {digest : String} {newId : ℕ → Uuid} {now : Timestamp}
  {submission : PublicationSubmission} {catalog : TypeCatalog} {existing : Uuid → Option ExistingArtifact}
  {limits : Limits} {artifact : IntentArtifact}

theorem refuseWhen_ok [Decidable condition] : refuseWhen condition error = .ok u ↔ ¬condition := by
  rw [refuseWhen]
  split_ifs with h
  · exact ⟨fun hok => (by cases hok), fun hnot => absurd h hnot⟩
  · exact ⟨fun _ => h, fun _ => rfl⟩

theorem orElse_ok {value : Option α} {a : α} : orElse value error = .ok a ↔ value = some a := by
  cases value with
  | none => exact ⟨fun h => (by cases h), fun h => (by cases h)⟩
  | some value => rw [orElse, Except.ok.injEq, Option.some.injEq]

theorem forM_ok {rounds : List α} {f : α → Except CoreError Unit} (h : rounds.forM f = .ok u) :
    ∀ a ∈ rounds, f a = .ok ⟨⟩ := by
  induction rounds with
  | nil => exact fun a ha => absurd ha List.not_mem_nil
  | cons first rounds ih =>
    obtain ⟨_, hfirst, hrest⟩ := ExceptLoop.bind_eq_ok h
    intro a ha
    rcases List.mem_cons.mp ha with rfl | ha
    · exact hfirst
    · exact ih hrest a ha

/-! ## References and artifacts -/

section Artifacts
variable {kernel : Kernel} {catalog : TypeCatalog} {existing : Uuid → Option ExistingArtifact}
  {limits : Limits} {submission : PublicationSubmission} {newId : ℕ → Uuid}

inductive Resolves (existing : Uuid → Option ExistingArtifact) (scopeId : Uuid)
    (prepared : List PreparedArtifact) : ReferenceTarget → Uuid × String × TypeKey × UInt32 → Prop
  | existing {artifactId : Uuid} {target : ExistingArtifact} (hfound : existing artifactId = some target)
      (hscope : target.scopeId = scopeId) : Resolves existing scopeId prepared (.existing artifactId)
        (target.id, target.artifactSha256, target.typeKey, target.typeVersion)
  | «local» {localKey : LocalKey} {target : PreparedArtifact} (hmem : target ∈ prepared)
      (hkey : target.localKey = localKey) : Resolves existing scopeId prepared (.local localKey)
        (target.id, target.artifactSha256, target.typeKey, target.typeVersion)

variable {prepared : List PreparedArtifact}

theorem resolveTarget_ok {target : ReferenceTarget} {resolved : Uuid × String × TypeKey × UInt32}
    (h : resolveTarget existing submission prepared target = .ok resolved) :
    Resolves existing submission.intent.scopeId prepared target resolved := by
  cases target with
  | existing artifactId =>
    obtain ⟨found, hfound, hrest⟩ := ExceptLoop.bind_eq_ok h
    obtain ⟨_, hscope, hdone⟩ := ExceptLoop.bind_eq_ok hrest
    cases hdone
    exact .existing (orElse_ok.1 hfound) (not_not.mp (refuseWhen_ok.1 hscope))
  | «local» localKey =>
    obtain ⟨found, hfound, hdone⟩ := ExceptLoop.bind_eq_ok h
    cases hdone
    have hfind := orElse_ok.1 hfound
    have hkey := List.find?_some hfind
    exact .local (List.mem_of_find?_eq_some hfind) (of_decide_eq_true hkey)

/-- A reference that is prepared: its target, and the rule of its role that allows it. -/
structure ReferencePrepared (existing : Uuid → Option ExistingArtifact) (scopeId : Uuid)
    (registered : RegisteredTypeDefinition) (prepared : List PreparedArtifact)
    (reference : ReferenceIntent) (result : PreparedReference) : Prop where
  role : result.role = reference.role
  ordinal : result.ordinal = reference.ordinal
  attributes : result.attributes = reference.attributes
  target : ∃ typeKey typeVersion, Resolves existing scopeId prepared reference.target
      (result.targetArtifactId, result.targetArtifactSha256, typeKey, typeVersion) ∧
    ∃ rule, registered.definition.rule? reference.role = some rule ∧
      rule.allowedTargetTypes.allows typeKey typeVersion = true

variable {registered : RegisteredTypeDefinition} {u : Unit} {artifact : IntentArtifact}

theorem prepareReference_ok {reference : ReferenceIntent} {result : PreparedReference}
    (h : prepareReference kernel existing submission registered prepared reference = .ok result) :
    ReferencePrepared existing submission.intent.scopeId registered prepared reference result := by
  obtain ⟨_, -, h₁⟩ := ExceptLoop.bind_eq_ok h
  obtain ⟨target, htarget, h₂⟩ := ExceptLoop.bind_eq_ok h₁
  obtain ⟨rule, hrule, h₃⟩ := ExceptLoop.bind_eq_ok h₂
  obtain ⟨_, hallowed, hdone⟩ := ExceptLoop.bind_eq_ok h₃
  cases hdone
  exact ⟨rfl, rfl, rfl, target.2.2.1, target.2.2.2, resolveTarget_ok htarget, rule, orElse_ok.1 hrule,
    not_not.mp (refuseWhen_ok.1 hallowed)⟩

structure ArtifactPrepared (kernel : Kernel) (catalog : TypeCatalog)
    (existing : Uuid → Option ExistingArtifact) (submission : PublicationSubmission) (newId : ℕ → Uuid)
    (prepared : List PreparedArtifact) (artifact : IntentArtifact) (result : PreparedArtifact)
    (registered : RegisteredTypeDefinition) : Prop where
  fresh : ∀ other ∈ prepared, other.localKey ≠ artifact.localKey
  catalogued : catalog.get artifact.typeKey artifact.typeVersion = some registered
  authority : artifact.blob.isSome = (submission.authority? artifact.localKey).isSome
  contiguous : validateContiguous "reference" (fun _ => 0)
    (artifact.references.map fun reference => (reference.role, reference.ordinal)) = .ok ()
  references : List.Forall₂ (ReferencePrepared existing submission.intent.scopeId registered prepared)
    artifact.references result.references
  counts : ∀ rule ∈ registered.definition.referenceRules,
    rule.minimum.toNat ≤ roleCount result.references rule.role ∧
      roleCount result.references rule.role ≤ rule.maximum.toNat
  digest : artifactSha256 kernel
    { typeKey := artifact.typeKey
      typeVersion := artifact.typeVersion
      typeDefinitionSha256 := registered.typeDefinitionSha256
      payload := artifact.payload
      blob := artifact.blob
      references := result.references } = .ok result.artifactSha256
  few : prepared.length < UInt32.size
  id : result.id = newId prepared.length
  ordinal : result.publicationOrdinal = UInt32.ofNat prepared.length
  localKey : result.localKey = artifact.localKey
  typeKey : result.typeKey = artifact.typeKey
  typeVersion : result.typeVersion = artifact.typeVersion
  definition : result.typeDefinitionSha256 = registered.typeDefinitionSha256
  payload : result.payload = artifact.payload
  blob : result.blob = artifact.blob
  output : result.output = artifact.output

theorem checkCount_ok {references : List PreparedReference} {rule : ReferenceRule}
    (h : checkCount references rule = .ok u) : rule.minimum.toNat ≤ roleCount references rule.role ∧
      roleCount references rule.role ≤ rule.maximum.toNat := by
  have hcount := refuseWhen_ok.1 h
  rw [not_or, not_lt, not_lt] at hcount
  exact hcount

theorem checkBlob_ok (h : checkBlob submission registered artifact = .ok u) :
    artifact.blob.isSome = (submission.authority? artifact.localKey).isSome := by
  obtain ⟨_, -, h₁⟩ := ExceptLoop.bind_eq_ok h
  obtain ⟨_, -, h₂⟩ := ExceptLoop.bind_eq_ok h₁
  exact not_not.mp (refuseWhen_ok.1 h₂)

theorem prepareArtifact_ok {result : PreparedArtifact}
    (h : prepareArtifact kernel catalog existing limits submission newId prepared artifact = .ok result) :
    ∃ registered, ArtifactPrepared kernel catalog existing submission newId prepared artifact result
      registered := by
  obtain ⟨_, hfresh, h₁⟩ := ExceptLoop.bind_eq_ok h
  obtain ⟨_, -, h₂⟩ := ExceptLoop.bind_eq_ok h₁
  obtain ⟨_, -, h₃⟩ := ExceptLoop.bind_eq_ok h₂
  obtain ⟨registered, hregistered, h₄⟩ := ExceptLoop.bind_eq_ok h₃
  obtain ⟨_, -, h₅⟩ := ExceptLoop.bind_eq_ok h₄
  obtain ⟨_, hblob, h₆⟩ := ExceptLoop.bind_eq_ok h₅
  obtain ⟨_, hcontiguous, h₇⟩ := ExceptLoop.bind_eq_ok h₆
  obtain ⟨references, hreferences, h₈⟩ := ExceptLoop.bind_eq_ok h₇
  obtain ⟨_, hcounts, h₉⟩ := ExceptLoop.bind_eq_ok h₈
  obtain ⟨digest, hdigest, h₁₀⟩ := ExceptLoop.bind_eq_ok h₉
  obtain ⟨_, hfew, hdone⟩ := ExceptLoop.bind_eq_ok h₁₀
  cases hdone
  refine ⟨registered, fun other hother hkey => ?_, orElse_ok.1 hregistered, checkBlob_ok hblob, hcontiguous,
    (ExceptLoop.mapM_ok hreferences).imp fun _ _ => prepareReference_ok,
    fun rule hrule => checkCount_ok (forM_ok hcounts rule hrule), hdigest,
    not_le.mp (refuseWhen_ok.1 hfew), rfl, rfl, rfl, rfl, rfl, rfl, rfl, rfl, rfl⟩
  exact refuseWhen_ok.1 hfresh ⟨other, hother, hkey⟩

theorem prepareArtifacts_ok {result : List PreparedArtifact} {artifacts : List IntentArtifact}
    (h : prepareArtifacts kernel catalog existing limits submission newId prepared artifacts = .ok result) :
    ∃ added, result = prepared ++ added ∧ added.length = artifacts.length ∧
      ∀ before p rest, added = before ++ p :: rest → ∃ artifact registered, artifacts[before.length]? = some artifact ∧
          ArtifactPrepared kernel catalog existing submission newId (prepared ++ before) artifact p
            registered := by
  induction artifacts generalizing prepared with
  | nil =>
    cases h
    exact ⟨[], (List.append_nil _).symm, rfl, fun before p rest hsplit => by simp at hsplit⟩
  | cons artifact artifacts ih =>
    obtain ⟨next, hnext, hrest⟩ := ExceptLoop.bind_eq_ok h
    obtain ⟨registered, hprepared⟩ := prepareArtifact_ok hnext
    obtain ⟨added, hresult, hlength, heach⟩ := ih hrest
    refine ⟨next :: added, ?_, by rw [List.length_cons, List.length_cons, hlength], ?_⟩
    · rw [hresult, List.append_assoc]
      rfl
    · intro before p rest hsplit
      cases before with
      | nil =>
        cases hsplit
        rw [List.append_nil]
        exact ⟨artifact, registered, rfl, hprepared⟩
      | cons first before =>
        rw [List.cons_append, List.cons.injEq] at hsplit
        obtain ⟨rfl, hsplit⟩ := hsplit
        obtain ⟨other, registered', hother, hp⟩ := heach before p rest hsplit
        refine ⟨other, registered', hother, ?_⟩
        rw [List.append_assoc] at hp
        exact hp

end Artifacts

/-! ## Publications -/

structure Prepared (kernel : Kernel) (newId : ℕ → Uuid) (context : RequestContext)
    (submission : PublicationSubmission) (catalog : TypeCatalog)
    (existing : Uuid → Option ExistingArtifact) (result : PreparedPublication) : Prop where
  asked : result.context = context ∧ result.submission = submission
  scope : context.scopeId = submission.intent.scopeId
  nonempty : submission.intent.artifacts ≠ []
  body : validateBody existing submission.intent = .ok ()
  digest : publicationRequestDigest kernel.sha256 context.publisher submission.intent =
    .ok result.publicationRequestSha256
  runId : result.runId =
    if submission.intent.body.isRun then some (newId submission.intent.artifacts.length) else none
  length : result.artifacts.length = submission.intent.artifacts.length
  artifacts : ∀ before p rest, result.artifacts = before ++ p :: rest → ∃ artifact registered,
    submission.intent.artifacts[before.length]? = some artifact ∧
      ArtifactPrepared kernel catalog existing submission newId before artifact p registered
  evidence : validateEvidence submission.intent.body.runInputs result.artifacts 0
    submission.intent.evidence = .ok ()

theorem requestSha256_ok (h : requestSha256 kernel publisher intent = .ok digest) :
    publicationRequestDigest kernel.sha256 publisher intent = .ok digest := by
  rw [requestSha256] at h
  cases hdigest : publicationRequestDigest kernel.sha256 publisher intent with
  | error error =>
    rw [hdigest] at h
    cases h
  | ok value =>
    rw [hdigest] at h
    cases h
    rfl

variable {context : RequestContext} {result : PreparedPublication}

theorem preparePublication_ok
    (h : preparePublication kernel newId now context submission catalog existing limits = .ok result) :
    Prepared kernel newId context submission catalog existing result := by
  obtain ⟨_, -, h₁⟩ := ExceptLoop.bind_eq_ok h
  obtain ⟨_, -, h₂⟩ := ExceptLoop.bind_eq_ok h₁
  obtain ⟨_, hscope, h₃⟩ := ExceptLoop.bind_eq_ok h₂
  obtain ⟨_, -, h₄⟩ := ExceptLoop.bind_eq_ok h₃
  obtain ⟨_, hsize, h₅⟩ := ExceptLoop.bind_eq_ok h₄
  obtain ⟨_, -, h₆⟩ := ExceptLoop.bind_eq_ok h₅
  obtain ⟨_, hbody, h₇⟩ := ExceptLoop.bind_eq_ok h₆
  obtain ⟨digest, hdigest, h₈⟩ := ExceptLoop.bind_eq_ok h₇
  obtain ⟨artifacts, hartifacts, h₉⟩ := ExceptLoop.bind_eq_ok h₈
  obtain ⟨_, hevidence, hdone⟩ := ExceptLoop.bind_eq_ok h₉
  cases hdone
  obtain ⟨added, hadded, hlength, heach⟩ := prepareArtifacts_ok hartifacts
  obtain rfl : artifacts = added := hadded
  exact ⟨⟨rfl, rfl⟩, not_not.mp (refuseWhen_ok.1 hscope),
    fun hnil => refuseWhen_ok.1 hsize (.inl hnil), hbody, requestSha256_ok hdigest, rfl, hlength, heach,
    hevidence⟩

theorem Prepared.prepared (h : Prepared kernel newId context submission catalog existing result)
    (hartifact : artifact ∈ submission.intent.artifacts) : ∃ p ∈ result.artifacts,
      p.localKey = artifact.localKey ∧ p.blob = artifact.blob := by
  obtain ⟨i, hi, hget⟩ := List.mem_iff_getElem.mp hartifact
  have hlt : i < result.artifacts.length := h.length ▸ hi
  have hsplit : result.artifacts = result.artifacts.take i ++ result.artifacts[i] :: result.artifacts.drop (i + 1) := by
    rw [← List.drop_eq_getElem_cons hlt, List.take_append_drop]
  obtain ⟨other, registered, hat, hprepared⟩ := h.artifacts _ _ _ hsplit
  rw [List.length_take, min_eq_left hlt.le, List.getElem?_eq_getElem hi, hget] at hat
  cases hat
  exact ⟨_, List.getElem_mem hlt, hprepared.localKey, hprepared.blob⟩

/-! ## What is accepted -/

theorem refuseWhen_not [Decidable condition] (error : CoreError) (h : ¬condition) :
    refuseWhen condition error = .ok () := refuseWhen_ok.2 h

theorem canonicalFrom_total {tree : CanonicalTree} (hdepth : tree.depth ≤ recursionLimit)
    (h : tree.parsed.any CanonicalTree.isObject = true) : ∃ value, canonicalFrom tree = .ok value := by
  cases hparsed : tree.parsed with
  | none =>
    rw [hparsed] at h
    cases h
  | some result =>
    rw [hparsed] at h
    have hread : deserialize (toVec tree) = some result := by
      rw [toVec, deserialize_text, if_pos hdepth]
      exact hparsed
    refine ⟨⟨result, ?_⟩, parseCanonical_ok.2 ⟨hread, fun _ => h⟩⟩
    exact (deserialize_fits hread).sorted

theorem artifactSha256_total {preimage : ArtifactPreimage} (hdepth : preimage.serialize.depth ≤ recursionLimit)
    (h : preimage.serialize.parsed.any CanonicalTree.isObject = true) :
    ∃ sha256, artifactSha256 kernel preimage = .ok sha256 := by
  obtain ⟨value, hvalue⟩ := canonicalFrom_total hdepth h
  exact ⟨artifactDigest kernel.sha256 value, by rw [artifactSha256, hvalue]⟩

theorem requestSha256_total (hdepth : (requestEnvelope publisher intent).depth ≤ recursionLimit)
    (h : (requestEnvelope publisher intent).parsed.any CanonicalTree.isObject = true) :
    ∃ digest, requestSha256 kernel publisher intent = .ok digest := by
  obtain ⟨value, hvalue⟩ := canonicalFrom_total hdepth h
  refine ⟨domainHash kernel.sha256 publicationDomain value, ?_⟩
  rw [requestSha256, publicationRequestDigest, hvalue, Except.map]

theorem prepareArtifact_of {prepared : List PreparedArtifact} {registered : RegisteredTypeDefinition}
    {references : List PreparedReference} {sha256 : String}
    (hfresh : ¬∃ other ∈ prepared, other.localKey = artifact.localKey)
    (hreferences : ¬limits.maxReferencesPerArtifact < artifact.references.length)
    (hpayload : ¬limits.maxPayloadBytes < artifact.payload.canonicalBytes.size)
    (hget : catalog.get artifact.typeKey artifact.typeVersion = some registered)
    (hvalid : validatePayload kernel.validator registered artifact.payload = .ok ())
    (hblob : checkBlob submission registered artifact = .ok ())
    (hcontiguous : validateContiguous "reference" (fun _ => 0)
      (artifact.references.map fun reference => (reference.role, reference.ordinal)) = .ok ())
    (hprepare : artifact.references.mapM (prepareReference kernel existing submission registered prepared) =
      .ok references) (hcounts : registered.definition.referenceRules.forM (checkCount references) = .ok ())
    (hsha : artifactSha256 kernel ⟨artifact.typeKey, artifact.typeVersion, registered.typeDefinitionSha256,
      artifact.payload, artifact.blob, references⟩ = .ok sha256) (hfew : ¬UInt32.size ≤ prepared.length) :
    prepareArtifact kernel catalog existing limits submission newId prepared artifact = .ok
      { id := newId prepared.length
        publicationOrdinal := UInt32.ofNat prepared.length
        localKey := artifact.localKey
        typeKey := artifact.typeKey
        typeVersion := artifact.typeVersion
        typeDefinitionSha256 := registered.typeDefinitionSha256
        payload := artifact.payload
        blob := artifact.blob
        artifactSha256 := sha256
        output := artifact.output
        references := references } := by
  rw [prepareArtifact, refuseWhen_not _ hfresh, ok_bind, refuseWhen_not _ hreferences, ok_bind,
    refuseWhen_not _ hpayload, ok_bind, hget, orElse, ok_bind, hvalid, ok_bind, hblob, ok_bind, hcontiguous,
    ok_bind, hprepare, ok_bind, hcounts, ok_bind, hsha, ok_bind, refuseWhen_not _ hfew, ok_bind]

theorem preparePublication_of {artifacts : List PreparedArtifact} (hdecision : ¬context.decisionExpiresAt ≤ now)
    (hpublisher : asInvalid context.publisher.validate = .ok ())
    (hscope : ¬context.scopeId ≠ submission.intent.scopeId)
    (hversion : ¬submission.intent.commandVersion ≠ commandVersion) (hsize : ¬(submission.intent.artifacts = [] ∨
      limits.maxArtifactsPerPublication < submission.intent.artifacts.length))
    (hmany : ¬limits.maxEvidencePerPublication < submission.intent.evidence.length)
    (hbody : validateBody existing submission.intent = .ok ())
    (hdigest : requestSha256 kernel context.publisher submission.intent = .ok digest)
    (hartifacts : prepareArtifacts kernel catalog existing limits submission newId []
      submission.intent.artifacts = .ok artifacts)
    (hevidence : validateEvidence submission.intent.body.runInputs artifacts 0 submission.intent.evidence = .ok ()) :
    preparePublication kernel newId now context submission catalog existing limits = .ok
      { context := context
        submission := submission
        publicationRequestSha256 := digest
        runId := if submission.intent.body.isRun then some (newId submission.intent.artifacts.length) else none
        artifacts := artifacts } := by
  rw [preparePublication, refuseWhen_not _ hdecision, ok_bind, hpublisher, ok_bind, refuseWhen_not _ hscope,
    ok_bind, refuseWhen_not _ hversion, ok_bind, refuseWhen_not _ hsize, ok_bind, refuseWhen_not _ hmany,
    ok_bind, hbody, ok_bind, hdigest, ok_bind, hartifacts, ok_bind, hevidence, ok_bind]

end AvenOS.ArtifactStore
