import AvenOS.ArtifactStore.Canonical

/-! # Protocol values

The values of the store's protocol and what `Serialize` makes of them: the fields in the order of their
declaration, an absent option as `null`. -/
namespace AvenOS.ArtifactStore

/-! ## Identifiers -/

/-- A UUID in its hyphenated form. -/
structure Uuid where
  text : String
deriving DecidableEq, Repr

def isTokenChar (c : Char) : Bool := c.isLower || c.isDigit || c = '_' || c = '-'

/-- `^[a-z][a-z0-9_-]{0,63}$` -/
def isToken (value : String) : Bool :=
  match value.toList with
  | [] => false
  | c :: rest => decide (value.utf8ByteSize ≤ 64) && c.isLower && (c :: rest).all isTokenChar

structure LocalKey where
  value : String
  valid : isToken value = true
deriving DecidableEq, Repr

structure Role where
  value : String
  valid : isToken value = true
deriving DecidableEq, Repr

def isSeparator (c : Char) : Bool := c = '.' || c = '-'

/-- No separator at the end and no two of them side by side. -/
def separatorsApart : Json.Text → Bool
  | [] => true
  | [c] => !isSeparator c
  | c :: d :: rest => !(isSeparator c && isSeparator d) && separatorsApart (d :: rest)

def isTypeKey (value : String) : Bool :=
  match value.toList with
  | [] => false
  | c :: rest =>
    decide (value.utf8ByteSize ≤ 128) && c.isLower &&
      (c :: rest).all (fun c => c.isLower || c.isDigit || isSeparator c) && separatorsApart (c :: rest)

structure TypeKey where
  value : String
  valid : isTypeKey value = true
deriving DecidableEq, Repr

structure StablePublisher where
  issuer : String
  subject : String
deriving DecidableEq, Repr

structure Actor where
  kind : TypeKey
  id : String
deriving DecidableEq, Repr

/-! ## Types -/

inductive BlobPolicy
  | forbidden
  | optional
  | required
deriving DecidableEq, Repr

structure ExactType where
  typeKey : TypeKey
  version : UInt32
deriving DecidableEq, Repr

inductive AllowedTargetTypes
  | any
  | exact (types : List ExactType)
deriving DecidableEq, Repr

structure ReferenceRule where
  role : Role
  minimum : UInt32
  maximum : UInt32
  allowedTargetTypes : AllowedTargetTypes
  attributesSchema : CanonicalValue

structure TypeDefinition where
  typeKey : TypeKey
  version : UInt32
  schemaProfileId : String
  payloadSchema : CanonicalValue
  blobPolicy : BlobPolicy
  referenceRules : List ReferenceRule

/-! ## Publications -/

structure DeclaredBlob where
  sha256 : String
  length : UInt64
deriving DecidableEq, Repr

inductive BlobAuthority
  | uploadClaim (claimId : Uuid)
  | sourceArtifact (artifactId : Uuid)
deriving DecidableEq, Repr

inductive ReferenceTarget
  | existing (artifactId : Uuid)
  | «local» (localKey : LocalKey)
deriving DecidableEq, Repr

structure ReferenceIntent where
  role : Role
  ordinal : UInt32
  target : ReferenceTarget
  attributes : CanonicalValue

structure OutputBinding where
  role : Role
  ordinal : UInt32
deriving DecidableEq, Repr

structure IntentArtifact where
  localKey : LocalKey
  typeKey : TypeKey
  typeVersion : UInt32
  payload : CanonicalValue
  blob : Option DeclaredBlob
  references : List ReferenceIntent
  output : Option OutputBinding

structure RunInput where
  role : Role
  ordinal : UInt32
  artifactId : Uuid
deriving DecidableEq, Repr

structure RunIntent where
  procedureKey : TypeKey
  procedureVersion : String
  initiator : Actor
  executor : Actor
  inputs : List RunInput
  parameters : CanonicalValue
  implementation : CanonicalValue
  receipt : CanonicalValue

inductive Locator
  | artifactRoot
  | jsonPointer (pointer : String)
  | byteRange (start endExclusive : UInt64)
  | pageRegion (page x y width height : UInt32)
deriving DecidableEq, Repr

structure EvidenceIntent where
  ordinal : UInt32
  outputLocalKey : LocalKey
  outputLocator : Locator
  inputRole : Role
  inputOrdinal : UInt32
  inputLocator : Locator
deriving DecidableEq, Repr

inductive PublicationBody
  | roots (rootActor : Actor)
  | run (run : RunIntent)

structure PublicationIntent where
  commandVersion : UInt32
  publicationId : Uuid
  scopeId : Uuid
  body : PublicationBody
  artifacts : List IntentArtifact
  evidence : List EvidenceIntent

/-! ## Serialization -/

def serializeUInt32 (value : UInt32) : CanonicalTree := .integer value.toNat

def serializeUInt64 (value : UInt64) : CanonicalTree := .integer value.toNat

def serializeList {α : Type} (serialize : α → CanonicalTree) (values : List α) : CanonicalTree :=
  .array (values.map serialize)

def serializeOption {α : Type} (serialize : α → CanonicalTree) : Option α → CanonicalTree
  | none => .null
  | some value => serialize value

def Uuid.serialize (id : Uuid) : CanonicalTree := .string id.text

def LocalKey.serialize (key : LocalKey) : CanonicalTree := .string key.value

def Role.serialize (role : Role) : CanonicalTree := .string role.value

def TypeKey.serialize (key : TypeKey) : CanonicalTree := .string key.value

def CanonicalValue.serialize (value : CanonicalValue) : CanonicalTree := value.tree

def StablePublisher.serialize (publisher : StablePublisher) : CanonicalTree :=
  .object [("issuer", .string publisher.issuer), ("subject", .string publisher.subject)]

def Actor.serialize (actor : Actor) : CanonicalTree :=
  .object [("kind", actor.kind.serialize), ("id", .string actor.id)]

def BlobPolicy.name : BlobPolicy → String
  | .forbidden => "forbidden"
  | .optional => "optional"
  | .required => "required"

def BlobPolicy.serialize (policy : BlobPolicy) : CanonicalTree := .string policy.name

def ExactType.serialize (exact : ExactType) : CanonicalTree :=
  .object [("typeKey", exact.typeKey.serialize), ("version", serializeUInt32 exact.version)]

def AllowedTargetTypes.serialize : AllowedTargetTypes → CanonicalTree
  | .any => .object [("kind", .string "any")]
  | .exact types =>
    .object [("kind", .string "exact"), ("types", serializeList ExactType.serialize types)]

def ReferenceRule.serialize (rule : ReferenceRule) : CanonicalTree :=
  .object
    [("role", rule.role.serialize),
      ("minimum", serializeUInt32 rule.minimum),
      ("maximum", serializeUInt32 rule.maximum),
      ("allowedTargetTypes", rule.allowedTargetTypes.serialize),
      ("attributesSchema", rule.attributesSchema.serialize)]

def TypeDefinition.serialize (definition : TypeDefinition) : CanonicalTree :=
  .object
    [("typeKey", definition.typeKey.serialize),
      ("version", serializeUInt32 definition.version),
      ("schemaProfileId", .string definition.schemaProfileId),
      ("payloadSchema", definition.payloadSchema.serialize),
      ("blobPolicy", definition.blobPolicy.serialize),
      ("referenceRules", serializeList ReferenceRule.serialize definition.referenceRules)]

def DeclaredBlob.serialize (blob : DeclaredBlob) : CanonicalTree :=
  .object [("sha256", .string blob.sha256), ("length", serializeUInt64 blob.length)]

def ReferenceTarget.serialize : ReferenceTarget → CanonicalTree
  | .existing artifactId =>
    .object [("kind", .string "existing"), ("artifactId", artifactId.serialize)]
  | .local localKey => .object [("kind", .string "local"), ("localKey", localKey.serialize)]

def ReferenceIntent.serialize (reference : ReferenceIntent) : CanonicalTree :=
  .object
    [("role", reference.role.serialize),
      ("ordinal", serializeUInt32 reference.ordinal),
      ("target", reference.target.serialize),
      ("attributes", reference.attributes.serialize)]

def OutputBinding.serialize (output : OutputBinding) : CanonicalTree :=
  .object [("role", output.role.serialize), ("ordinal", serializeUInt32 output.ordinal)]

def IntentArtifact.serialize (artifact : IntentArtifact) : CanonicalTree :=
  .object
    [("localKey", artifact.localKey.serialize),
      ("typeKey", artifact.typeKey.serialize),
      ("typeVersion", serializeUInt32 artifact.typeVersion),
      ("payload", artifact.payload.serialize),
      ("blob", serializeOption DeclaredBlob.serialize artifact.blob),
      ("references", serializeList ReferenceIntent.serialize artifact.references),
      ("output", serializeOption OutputBinding.serialize artifact.output)]

def RunInput.serialize (input : RunInput) : CanonicalTree :=
  .object
    [("role", input.role.serialize),
      ("ordinal", serializeUInt32 input.ordinal),
      ("artifactId", input.artifactId.serialize)]

def RunIntent.serialize (run : RunIntent) : CanonicalTree :=
  .object
    [("procedureKey", run.procedureKey.serialize),
      ("procedureVersion", .string run.procedureVersion),
      ("initiator", run.initiator.serialize),
      ("executor", run.executor.serialize),
      ("inputs", serializeList RunInput.serialize run.inputs),
      ("parameters", run.parameters.serialize),
      ("implementation", run.implementation.serialize),
      ("receipt", run.receipt.serialize)]

def Locator.serialize : Locator → CanonicalTree
  | .artifactRoot => .object [("kind", .string "artifact-root")]
  | .jsonPointer pointer => .object [("kind", .string "json-pointer"), ("pointer", .string pointer)]
  | .byteRange start endExclusive =>
    .object
      [("kind", .string "byte-range"),
        ("start", serializeUInt64 start),
        ("endExclusive", serializeUInt64 endExclusive)]
  | .pageRegion page x y width height =>
    .object
      [("kind", .string "page-region"),
        ("page", serializeUInt32 page),
        ("x", serializeUInt32 x),
        ("y", serializeUInt32 y),
        ("width", serializeUInt32 width),
        ("height", serializeUInt32 height)]

def EvidenceIntent.serialize (evidence : EvidenceIntent) : CanonicalTree :=
  .object
    [("ordinal", serializeUInt32 evidence.ordinal),
      ("outputLocalKey", evidence.outputLocalKey.serialize),
      ("outputLocator", evidence.outputLocator.serialize),
      ("inputRole", evidence.inputRole.serialize),
      ("inputOrdinal", serializeUInt32 evidence.inputOrdinal),
      ("inputLocator", evidence.inputLocator.serialize)]

def PublicationBody.members : PublicationBody → List (String × CanonicalTree)
  | .roots rootActor => [("kind", .string "roots"), ("rootActor", rootActor.serialize)]
  | .run intent => [("kind", .string "run"), ("run", intent.serialize)]

def PublicationIntent.serialize (intent : PublicationIntent) : CanonicalTree :=
  .object
    (("commandVersion", serializeUInt32 intent.commandVersion) ::
      ("publicationId", intent.publicationId.serialize) ::
      ("scopeId", intent.scopeId.serialize) ::
      (intent.body.members ++
        [("artifacts", serializeList IntentArtifact.serialize intent.artifacts),
          ("evidence", serializeList EvidenceIntent.serialize intent.evidence)]))

end AvenOS.ArtifactStore
