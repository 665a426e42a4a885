import AvenOS.ArtifactStore.OwnClaims

/-! # What the digest of an artifact stands for

Its type, payload, blob and references, and of their targets only the digests. -/
namespace AvenOS.ArtifactStore

def Prepares (kernel : Kernel) (prepared : PreparedPublication) : Prop :=
  ∃ newId now context submission catalog existing limits,
    preparePublication kernel newId now context submission catalog existing limits = .ok prepared

abbrev ReferenceContent := Role × UInt32 × String × CanonicalValue

def PreparedReference.content (reference : PreparedReference) : ReferenceContent :=
  (reference.role, reference.ordinal, reference.targetArtifactSha256, reference.attributes)

abbrev ArtifactContent := TypeKey × UInt32 × String × CanonicalValue × Option DeclaredBlob × List ReferenceContent

def PreparedArtifact.content (artifact : PreparedArtifact) : ArtifactContent :=
  (artifact.typeKey, artifact.typeVersion, artifact.typeDefinitionSha256, artifact.payload, artifact.blob,
    artifact.references.map PreparedReference.content)

def referenceTree (content : ReferenceContent) : CanonicalTree :=
  PreparedReference.serialize ⟨content.1, content.2.1, ⟨""⟩, content.2.2.1, content.2.2.2⟩

def contentTree : ArtifactContent → CanonicalTree
  | (key, version, digest, payload, blob, references) => .object
      [("typeKey", key.serialize), ("typeVersion", serializeUInt32 version), ("typeDefinitionSha256", .string digest),
        ("payload", payload.serialize), ("blob", serializeOption DeclaredBlob.serialize blob),
        ("references", serializeList referenceTree references)]

theorem Faithful.referenceTree : Faithful referenceTree := by
  rintro ⟨name, ordinal, aim, attributes⟩ ⟨name', ordinal', aim', attributes'⟩ tree h h'
  have hname : name = name' := role.field 0 h h' rfl rfl
  have hordinal : ordinal = ordinal' := uint32.field 1 h h' rfl rfl
  have haim : aim = aim' := string.field 2 h h' rfl rfl
  have hattributes : attributes = attributes' := value.field 3 h h' rfl rfl
  rw [hname, hordinal, haim, hattributes]

theorem Faithful.contentTree : Faithful contentTree := by
  rintro ⟨key, version, digest, payload, blob, references⟩ ⟨key', version', digest', payload', blob', references'⟩ tree h h'
  have hkey : key = key' := typeKey.field 0 h h' rfl rfl
  have hversion : version = version' := uint32.field 1 h h' rfl rfl
  have hdigest : digest = digest' := string.field 2 h h' rfl rfl
  have hpayload : payload = payload' := value.field 3 h h' rfl rfl
  have hblob : blob = blob' := optionalBlob.field 4 h h' rfl rfl
  have hreferences : references = references' := referenceTree.list.field 5 h h' rfl rfl
  rw [hkey, hversion, hdigest, hpayload, hblob, hreferences]

theorem Prepares.digest {kernel : Kernel} {prepared : PreparedPublication} (h : Prepares kernel prepared)
    {p : PreparedArtifact} (hp : p ∈ prepared.artifacts) :
    (canonicalFrom (contentTree p.content)).map (domainHash kernel.sha256 artifactDomain) = .ok p.artifactSha256 := by
  obtain ⟨newId, now, context, submission, catalog, existing, limits, h⟩ := h
  obtain ⟨before, rest, hsplit⟩ := List.append_of_mem hp
  obtain ⟨artifact, registered, -, hp⟩ := (preparePublication_ok h).artifacts before p rest hsplit
  have hdigest := hp.digest
  rw [artifactSha256, ← hp.typeKey, ← hp.typeVersion, ← hp.definition, ← hp.payload, ← hp.blob] at hdigest
  have htree : contentTree p.content = ArtifactPreimage.serialize ⟨p.typeKey, p.typeVersion, p.typeDefinitionSha256,
      p.payload, p.blob, p.references⟩ := by
    rw [PreparedArtifact.content, contentTree, serializeList, List.map_map]
    rfl
  rw [htree]
  cases hcanonical : canonicalFrom _ with
  | error error => rw [hcanonical] at hdigest; cases hdigest
  | ok value =>
    rw [hcanonical] at hdigest
    exact congrArg Except.ok (Except.ok.inj hdigest)

/-- Two artifacts of any two publications share their digest iff they share their content. -/
theorem artifact_identified {kernel : Kernel} (hsha : Function.Injective kernel.sha256) {one other : PreparedPublication}
    (hone : Prepares kernel one) (hother : Prepares kernel other) : ∀ p ∈ one.artifacts, ∀ q ∈ other.artifacts,
      p.artifactSha256 = q.artifactSha256 ↔ p.content = q.content :=
  fun _ hp _ hq => digest_eq Faithful.contentTree hsha (by decide) (hone.digest hp) (hother.digest hq)

theorem artifact_identified_note : ∃ prepared, Prepares plainKernel prepared ∧ prepared.artifacts ≠ [] ∧
    ∀ p ∈ prepared.artifacts, ∀ q ∈ prepared.artifacts, p.artifactSha256 = q.artifactSha256 ↔ p.content = q.content := by
  obtain ⟨digest, sha256, h⟩ := stray_prepared
  have hprepares : Prepares plainKernel (strayPrepared digest sha256) := ⟨_, _, _, _, _, _, _, h⟩
  exact ⟨_, hprepares, List.cons_ne_nil _ _, artifact_identified Function.injective_id hprepares hprepares⟩

end AvenOS.ArtifactStore
