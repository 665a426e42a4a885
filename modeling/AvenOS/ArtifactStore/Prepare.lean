import AvenOS.ArtifactStore.Digest
import AvenOS.ArtifactStore.Store
import AvenOS.Foundations.ExceptLoop

/-! # Preparing a publication

`prepare_publication` checks one semantic publication and freezes it before its transaction is opened. The
schema validator, the hash, the identifiers that are drawn and the artifacts that were found in the store
are given to it. -/
namespace AvenOS.ArtifactStore

/-! ## Submissions -/

structure PublicationSubmission where
  intent : PublicationIntent
  blobAuthorities : List (LocalKey × BlobAuthority)
  distinct : (blobAuthorities.map Prod.fst).Nodup

namespace PublicationSubmission

def authority? (submission : PublicationSubmission) (localKey : LocalKey) : Option BlobAuthority :=
  (submission.blobAuthorities.find? fun entry => entry.1 = localKey).map Prod.snd

end PublicationSubmission

structure RequestContext where
  publisher : StablePublisher
  scopeId : Uuid
  decisionExpiresAt : Timestamp
deriving DecidableEq, Repr

structure Limits where
  maxArtifactsPerPublication : ℕ
  maxReferencesPerArtifact : ℕ
  maxEvidencePerPublication : ℕ
  maxPayloadBytes : ℕ

def Limits.default : Limits where
  maxArtifactsPerPublication := 64
  maxReferencesPerArtifact := 256
  maxEvidencePerPublication := 1024
  maxPayloadBytes := 256 * 1024

structure ExistingArtifact where
  id : Uuid
  scopeId : Uuid
  typeKey : TypeKey
  typeVersion : UInt32
  artifactSha256 : String
  blob : Option (String × UInt64)
deriving DecidableEq, Repr

structure PreparedReference where
  role : Role
  ordinal : UInt32
  targetArtifactId : Uuid
  targetArtifactSha256 : String
  attributes : CanonicalValue

structure PreparedArtifact where
  id : Uuid
  publicationOrdinal : UInt32
  localKey : LocalKey
  typeKey : TypeKey
  typeVersion : UInt32
  typeDefinitionSha256 : String
  payload : CanonicalValue
  blob : Option DeclaredBlob
  artifactSha256 : String
  output : Option OutputBinding
  references : List PreparedReference

structure PreparedPublication where
  context : RequestContext
  submission : PublicationSubmission
  publicationRequestSha256 : String
  runId : Option Uuid
  artifacts : List PreparedArtifact

/-! ## Errors -/

inductive TokenError
  | invalid (field pattern : String)
  | invalidBound (field : String) (max : ℕ)
deriving DecidableEq, Repr

def TokenError.message : TokenError → String
  | invalid field pattern => field ++ " must match " ++ pattern
  | invalidBound field max => field ++ " must contain between 1 and " ++ toString max ++ " UTF-8 bytes"

inductive CoreError
  | canonical (error : CanonicalError)
  | digest (error : CanonicalError)
  | invalidType (text : String)
  | schema (typeKey : TypeKey) (version : UInt32) (detail : String)
  | invalidPublication (text : String)
  | typeUnavailable (typeKey : TypeKey) (version : UInt32)
  | artifactUnavailable (artifactId : Uuid)

def validateBounded (field value : String) (max : ℕ) : Except TokenError Unit :=
  if value.utf8ByteSize = 0 ∨ max < value.utf8ByteSize then .error (.invalidBound field max) else .ok ()

def StablePublisher.validate (publisher : StablePublisher) : Except TokenError Unit := do
  validateBounded "publisher.issuer" publisher.issuer 255
  validateBounded "publisher.subject" publisher.subject 255

def actorKinds : List String := ["user", "service", "agent", "connector", "device", "external-system"]

def Actor.validate (actor : Actor) : Except TokenError Unit :=
  if actor.kind.value ∈ actorKinds then validateBounded "actor.id" actor.id 255
  else .error (.invalid "actor.kind" "user|service|agent|connector|device|external-system")

/-- `map_err(|error| CoreError::InvalidPublication(error.to_string()))` -/
def asInvalid : Except TokenError Unit → Except CoreError Unit
  | .ok () => .ok ()
  | .error error => .error (.invalidPublication error.message)

def refuseWhen (condition : Prop) [Decidable condition] (error : CoreError) : Except CoreError Unit :=
  if condition then .error error else .ok ()

def orElse {α : Type} (value : Option α) (error : CoreError) : Except CoreError α :=
  match value with
  | some value => .ok value
  | none => .error error

/-! ## Types -/

structure RegisteredTypeDefinition where
  definition : TypeDefinition
  typeDefinitionSha256 : String

structure TypeCatalog where
  types : List RegisteredTypeDefinition

def TypeCatalog.get (catalog : TypeCatalog) (key : TypeKey) (version : UInt32) :
    Option RegisteredTypeDefinition :=
  catalog.types.find? fun registered =>
    registered.definition.typeKey = key ∧ registered.definition.version = version

def TypeDefinition.rule? (definition : TypeDefinition) (role : Role) : Option ReferenceRule :=
  definition.referenceRules.find? fun rule => rule.role = role

def AllowedTargetTypes.allows : AllowedTargetTypes → TypeKey → UInt32 → Bool
  | .any, _, _ => true
  | .exact types, key, version => types.any fun allowed => allowed.typeKey = key && allowed.version = version

/-- What a schema makes of a value: it may not compile, or the value may not match. -/
inductive SchemaFault
  | schema (text : String)
  | value (text : String)
deriving DecidableEq, Repr

abbrev SchemaValidator := CanonicalValue → CanonicalValue → Except SchemaFault Unit

def SchemaFault.asCoreError (registered : RegisteredTypeDefinition) (origin : String) : SchemaFault → CoreError
  | .schema text => .invalidType text
  | .value text =>
    .schema registered.definition.typeKey registered.definition.version (origin ++ text)

def validateAgainst (validator : SchemaValidator) (registered : RegisteredTypeDefinition) (origin : String)
    (schema value : CanonicalValue) : Except CoreError Unit :=
  match validator schema value with
  | .ok () => .ok ()
  | .error fault => .error (fault.asCoreError registered origin)

def validatePayload (validator : SchemaValidator) (registered : RegisteredTypeDefinition)
    (payload : CanonicalValue) : Except CoreError Unit :=
  validateAgainst validator registered "" registered.definition.payloadSchema payload

def validateAttributes (validator : SchemaValidator) (registered : RegisteredTypeDefinition) (role : Role)
    (attributes : CanonicalValue) : Except CoreError Unit := do
  let rule ← orElse (registered.definition.rule? role)
    (.invalidPublication ("reference role " ++ role.value ++ " is not declared by " ++
      registered.definition.typeKey.value ++ "@" ++ toString registered.definition.version))
  validateAgainst validator registered ("reference role " ++ role.value ++ ": ") rule.attributesSchema attributes

/-! ## Orders -/

def validateContiguous (label : String) (expected : Role → UInt32) :
    List (Role × UInt32) → Except CoreError Unit
  | [] => .ok ()
  | (role, ordinal) :: rest =>
    if ordinal = expected role then
      validateContiguous label (Function.update expected role (expected role + 1)) rest
    else
      .error (.invalidPublication (label ++ " role " ++ role.value ++ " expected ordinal " ++
        toString (expected role) ++ ", got " ++ toString ordinal))

def Locator.valid : Locator → Except CoreError Unit
  | .artifactRoot => .ok ()
  | .jsonPointer pointer =>
    refuseWhen (pointer ≠ "" ∧ ¬pointer.startsWith "/")
      (.invalidPublication "JSON pointer must be empty or start with '/'")
  | .byteRange start endExclusive =>
    refuseWhen (¬start < endExclusive) (.invalidPublication "byte range must be non-empty")
  | .pageRegion page x y width height =>
    -- the sums saturate, which stays above the bound
    refuseWhen (¬(0 < page ∧ 0 < width ∧ 0 < height ∧ x ≤ 1000000 ∧ y ≤ 1000000 ∧
        x.toNat + width.toNat ≤ 1000000 ∧ y.toNat + height.toNat ≤ 1000000))
      (.invalidPublication "page region is outside integer-millionth bounds")

/-! ## Digests of artifacts -/

def PreparedReference.serialize (reference : PreparedReference) : CanonicalTree :=
  .object
    [("role", reference.role.serialize),
      ("ordinal", serializeUInt32 reference.ordinal),
      ("targetArtifactSha256", .string reference.targetArtifactSha256),
      ("attributes", reference.attributes.serialize)]

structure ArtifactPreimage where
  typeKey : TypeKey
  typeVersion : UInt32
  typeDefinitionSha256 : String
  payload : CanonicalValue
  blob : Option DeclaredBlob
  references : List PreparedReference

def ArtifactPreimage.serialize (preimage : ArtifactPreimage) : CanonicalTree :=
  .object
    [("typeKey", preimage.typeKey.serialize),
      ("typeVersion", serializeUInt32 preimage.typeVersion),
      ("typeDefinitionSha256", .string preimage.typeDefinitionSha256),
      ("payload", preimage.payload.serialize),
      ("blob", serializeOption DeclaredBlob.serialize preimage.blob),
      ("references", serializeList PreparedReference.serialize preimage.references)]

/-! ## Artifacts -/

structure Kernel where
  sha256 : ByteArray → ByteArray
  validator : SchemaValidator

section Artifacts
variable (kernel : Kernel) (catalog : TypeCatalog) (existing : Uuid → Option ExistingArtifact)
  (limits : Limits) (submission : PublicationSubmission)

def resolveTarget (prepared : List PreparedArtifact) :
    ReferenceTarget → Except CoreError (Uuid × String × TypeKey × UInt32)
  | .existing artifactId => do
    let target ← orElse (existing artifactId) (.artifactUnavailable artifactId)
    refuseWhen (target.scopeId ≠ submission.intent.scopeId) (.artifactUnavailable artifactId)
    .ok (target.id, target.artifactSha256, target.typeKey, target.typeVersion)
  | .local localKey => do
    let target ← orElse (prepared.find? fun artifact => artifact.localKey = localKey)
      (.invalidPublication ("local reference " ++ localKey.value ++ " must point to an earlier artifact"))
    .ok (target.id, target.artifactSha256, target.typeKey, target.typeVersion)

def prepareReference (registered : RegisteredTypeDefinition) (prepared : List PreparedArtifact)
    (reference : ReferenceIntent) : Except CoreError PreparedReference := do
  validateAttributes kernel.validator registered reference.role reference.attributes
  let target ← resolveTarget existing submission prepared reference.target
  let rule ← orElse (registered.definition.rule? reference.role)
    (.invalidPublication ("reference role " ++ reference.role.value ++ " is not declared"))
  refuseWhen (¬rule.allowedTargetTypes.allows target.2.2.1 target.2.2.2)
    (.invalidPublication ("reference " ++ reference.role.value ++ " target type is not allowed"))
  .ok
    { role := reference.role
      ordinal := reference.ordinal
      targetArtifactId := target.1
      targetArtifactSha256 := target.2.1
      attributes := reference.attributes }

def roleCount (references : List PreparedReference) (role : Role) : ℕ :=
  (references.filter fun reference => reference.role = role).length

def checkCount (references : List PreparedReference) (rule : ReferenceRule) : Except CoreError Unit :=
  refuseWhen (roleCount references rule.role < rule.minimum.toNat ∨
      rule.maximum.toNat < roleCount references rule.role)
    (.invalidPublication ("reference role " ++ rule.role.value ++ " count " ++
      toString (roleCount references rule.role) ++ " is outside " ++ toString rule.minimum ++ "..=" ++
      toString rule.maximum))

def checkBlob (registered : RegisteredTypeDefinition) (artifact : IntentArtifact) : Except CoreError Unit := do
  refuseWhen (registered.definition.blobPolicy = .forbidden ∧ artifact.blob.isSome)
    (.invalidPublication (artifact.localKey.value ++ " forbids a primary blob"))
  refuseWhen (registered.definition.blobPolicy = .required ∧ artifact.blob.isNone)
    (.invalidPublication (artifact.localKey.value ++ " requires a primary blob"))
  refuseWhen (artifact.blob.isSome ≠ (submission.authority? artifact.localKey).isSome)
    (.invalidPublication (artifact.localKey.value ++
      " must have exactly one blob authority when and only when it declares a blob"))

def artifactSha256 (preimage : ArtifactPreimage) : Except CoreError String :=
  match canonicalFrom preimage.serialize with
  | .ok canonical => .ok (artifactDigest kernel.sha256 canonical)
  | .error error => .error (.canonical error)

/-- One artifact after the ones that are prepared, under the identifier drawn for it. -/
def prepareArtifact (newId : ℕ → Uuid) (prepared : List PreparedArtifact) (artifact : IntentArtifact) :
    Except CoreError PreparedArtifact := do
  refuseWhen (∃ other ∈ prepared, other.localKey = artifact.localKey)
    (.invalidPublication ("duplicate local key " ++ artifact.localKey.value))
  refuseWhen (limits.maxReferencesPerArtifact < artifact.references.length)
    (.invalidPublication ("artifact " ++ artifact.localKey.value ++ " has too many references"))
  refuseWhen (limits.maxPayloadBytes < artifact.payload.canonicalBytes.size)
    (.invalidPublication ("artifact " ++ artifact.localKey.value ++ " payload exceeds limit"))
  let registered ← orElse (catalog.get artifact.typeKey artifact.typeVersion)
    (.typeUnavailable artifact.typeKey artifact.typeVersion)
  validatePayload kernel.validator registered artifact.payload
  checkBlob submission registered artifact
  validateContiguous "reference" (fun _ => 0)
    (artifact.references.map fun reference => (reference.role, reference.ordinal))
  let references ← artifact.references.mapM (prepareReference kernel existing submission registered prepared)
  registered.definition.referenceRules.forM (checkCount references)
  let sha256 ← artifactSha256 kernel
    { typeKey := artifact.typeKey
      typeVersion := artifact.typeVersion
      typeDefinitionSha256 := registered.typeDefinitionSha256
      payload := artifact.payload
      blob := artifact.blob
      references := references }
  refuseWhen (UInt32.size ≤ prepared.length) (.invalidPublication "too many artifacts")
  .ok
    { id := newId prepared.length
      publicationOrdinal := UInt32.ofNat prepared.length
      localKey := artifact.localKey
      typeKey := artifact.typeKey
      typeVersion := artifact.typeVersion
      typeDefinitionSha256 := registered.typeDefinitionSha256
      payload := artifact.payload
      blob := artifact.blob
      artifactSha256 := sha256
      output := artifact.output
      references := references }

def prepareArtifacts (newId : ℕ → Uuid) :
    List PreparedArtifact → List IntentArtifact → Except CoreError (List PreparedArtifact)
  | prepared, [] => .ok prepared
  | prepared, artifact :: rest => do
    let next ← prepareArtifact kernel catalog existing limits submission newId prepared artifact
    prepareArtifacts newId (prepared ++ [next]) rest

end Artifacts

/-! ## Evidence -/

def validateEvidenceItem (inputs : List RunInput) (prepared : List PreparedArtifact) (expected : ℕ)
    (evidence : EvidenceIntent) : Except CoreError Unit := do
  refuseWhen (UInt32.size ≤ expected) (.invalidPublication "too much evidence")
  refuseWhen (evidence.ordinal ≠ UInt32.ofNat expected)
    (.invalidPublication ("evidence expected ordinal " ++ toString expected ++ ", got " ++
      toString evidence.ordinal))
  refuseWhen (∀ artifact ∈ prepared, artifact.localKey ≠ evidence.outputLocalKey)
    (.invalidPublication "evidence names a foreign output")
  refuseWhen (∀ input ∈ inputs, ¬(input.role = evidence.inputRole ∧ input.ordinal = evidence.inputOrdinal))
    (.invalidPublication "evidence names an undeclared input")
  evidence.outputLocator.valid
  evidence.inputLocator.valid

def validateEvidence (inputs : List RunInput) (prepared : List PreparedArtifact) :
    ℕ → List EvidenceIntent → Except CoreError Unit
  | _, [] => .ok ()
  | expected, evidence :: rest => do
    validateEvidenceItem inputs prepared expected evidence
    validateEvidence inputs prepared (expected + 1) rest

/-! ## Publications -/

def runInputAvailable (existing : Uuid → Option ExistingArtifact) (scopeId : Uuid) (input : RunInput) :
    Except CoreError Unit := do
  let artifact ← orElse (existing input.artifactId) (.artifactUnavailable input.artifactId)
  refuseWhen (artifact.scopeId ≠ scopeId) (.artifactUnavailable input.artifactId)

def validateBody (existing : Uuid → Option ExistingArtifact) (intent : PublicationIntent) :
    Except CoreError Unit :=
  match intent.body with
  | .roots rootActor => do
    asInvalid rootActor.validate
    refuseWhen (intent.evidence ≠ [] ∨ ∃ artifact ∈ intent.artifacts, artifact.output.isSome)
      (.invalidPublication "root publications forbid evidence and output bindings")
  | .run run => do
    asInvalid run.initiator.validate
    asInvalid run.executor.validate
    refuseWhen (∃ artifact ∈ intent.artifacts, artifact.output.isNone)
      (.invalidPublication "every run artifact requires an output binding")
    validateContiguous "run input" (fun _ => 0) (run.inputs.map fun input => (input.role, input.ordinal))
    run.inputs.forM (runInputAvailable existing intent.scopeId)
    validateContiguous "run output" (fun _ => 0)
      ((intent.artifacts.filterMap fun artifact => artifact.output).map fun output =>
        (output.role, output.ordinal))

def commandVersion : UInt32 := 1

def requestSha256 (kernel : Kernel) (publisher : StablePublisher) (intent : PublicationIntent) :
    Except CoreError String :=
  match publicationRequestDigest kernel.sha256 publisher intent with
  | .ok digest => .ok digest
  | .error error => .error (.digest error)

def PublicationBody.runInputs : PublicationBody → List RunInput
  | .roots _ => []
  | .run intent => intent.inputs

def PublicationBody.isRun : PublicationBody → Bool
  | .roots _ => false
  | .run _ => true

def preparePublication (kernel : Kernel) (newId : ℕ → Uuid) (now : Timestamp) (context : RequestContext)
    (submission : PublicationSubmission) (catalog : TypeCatalog)
    (existing : Uuid → Option ExistingArtifact) (limits : Limits) : Except CoreError PreparedPublication := do
  let intent := submission.intent
  refuseWhen (context.decisionExpiresAt ≤ now) (.invalidPublication "authorization decision is expired")
  asInvalid context.publisher.validate
  refuseWhen (context.scopeId ≠ intent.scopeId)
    (.invalidPublication "route/authentication scope differs from intent scope")
  refuseWhen (intent.commandVersion ≠ commandVersion)
    (.invalidPublication ("unsupported commandVersion " ++ toString intent.commandVersion))
  refuseWhen (intent.artifacts = [] ∨ limits.maxArtifactsPerPublication < intent.artifacts.length)
    (.invalidPublication "publication artifact count is outside the configured bound")
  refuseWhen (limits.maxEvidencePerPublication < intent.evidence.length)
    (.invalidPublication "publication evidence count exceeds the configured bound")
  validateBody existing intent
  let digest ← requestSha256 kernel context.publisher intent
  let artifacts ← prepareArtifacts kernel catalog existing limits submission newId [] intent.artifacts
  -- a root publication has no evidence left to check
  validateEvidence intent.body.runInputs artifacts 0 intent.evidence
  .ok
    { context := context
      submission := submission
      publicationRequestSha256 := digest
      runId := if intent.body.isRun then some (newId intent.artifacts.length) else none
      artifacts := artifacts }

end AvenOS.ArtifactStore
