import AvenOS.Actors.PhysicalPlanner
import AvenOS.Actors.Affordances
import AvenOS.Foundations.EffectTrace

/-! # The runtime around a physical program

What an executor hands to its host and gets back, the events of a run, and the host: it answers each
question, or throws, by everything that happened before. -/
namespace AvenOS.Actors
open EffectTrace

/-! ## Artifacts and publications -/

/-- A committed value as seen by the portable executor. -/
structure RuntimeArtifact where
  artifactId : String
  predicate : Predicate
  schema : String
  typeKey : String
  schemaVersion : ℚ
  contentDigest : String
  value : JsValue

structure RuntimeOutputDraft where
  slot : String
  role : String
  predicate : Predicate
  schema : String
  value : JsValue

structure RuntimeInputBinding where
  slot : String
  role : String
  artifact : RuntimeArtifact

structure RuntimeStepPublication where
  publicationId : String
  runId : String
  stepId : String
  capabilityId : String
  inputs : List RuntimeInputBinding
  outputs : List RuntimeOutputDraft

/-! ## Factories and actors -/

structure ActorSpawnRequest where
  requestId : String
  runId : String
  principal : ActorPrincipal
  access : ActorAccessContext
  offerId : String
  requestedCapabilities : List String
  configuration : Record
  /-- Exact validated artifacts bound to the capability invocation. -/
  inputs : List ActorAuthorizationInput
  resource : Option Record

structure ActorAdmission where
  admissionId : String
  grantedCapabilities : List String
  normalizedConfiguration : Record

inductive ActorAdmissionDecision
  | admitted (admission : ActorAdmission)
  | denied (decisionId reasonCode : String)

structure SpawnedActor where
  uuid : String
  advertisement : ActorInstanceAdvertisement
deriving DecidableEq

/-- `record` is what `JSON.parse` makes of the record text, or its complaint. -/
structure HandlerResult where
  record : Except String JsValue
  wire : String

/-- Portable payload delivered to a capability method. -/
structure ActorStepPayload where
  runId : String
  stepId : String
  capabilityId : String
  inputs : List (String × RuntimeArtifact)
  parameters : Record
  configuration : Record

/-! ## Requests -/

structure PhysicalProgramExecutionRequest where
  runId : String
  program : PhysicalProgram
  registry : ActorRegistrySnapshot
  principal : ActorPrincipal
  access : ActorAccessContext
  parameters : Option Record
  resource : Option Record

structure PhysicalProgramExecutionResult where
  completedStepIds : List String
  artifacts : List RuntimeArtifact
  fulfilledPredicates : List Predicate
  remainingGoals : List Predicate
  registryRevision : ℕ
  policyDecisionIds : List String
  warnings : List String

/-! ## Hosts -/

/-- What a host is asked for once, for the whole request. -/
inductive HostPort
  | authorizer
  | factories
  | artifacts

inductive Event
  | registry (answer : Except String ActorRegistrySnapshot)
  | connect (port : HostPort) (answer : Except String Unit)
  | resource (answer : Except String (Option Record))
  | affordances (answer : Except String (List AffordanceDefinition))
  | relatedIngredients (answer : Except String (List Ingredient))
  | resolveFactory (factoryId : String) (answer : Except String (Option ActorFactoryOffer))
  | decide (request : ActorAuthorizationRequest) (answer : Except String ActorAuthorizationDecision)
  | assess (request : ActorSpawnRequest) (answer : Except String ActorAdmissionDecision)
  | spawn (request : ActorSpawnRequest) (admission : ActorAdmission)
      (answer : Except String SpawnedActor)
  | deliver (actor : SpawnedActor) (method : String) (payload : ActorStepPayload)
      (answer : Except String HandlerResult)
  | release (actor : SpawnedActor) (answer : Except String Unit)
  | resolve (artifactId : String) (expected : Predicate)
      (answer : Except String (Option RuntimeArtifact))
  | publish (publication : RuntimeStepPublication) (answer : Except String (List RuntimeArtifact))

/-- A program of the executor. -/
abbrev Run := Traced Event String

structure RuntimeHost where
  resolveFactory : List Event → String → Except String (Option ActorFactoryOffer)
  decide : List Event → ActorAuthorizationRequest → Except String ActorAuthorizationDecision
  assess : List Event → ActorSpawnRequest → Except String ActorAdmissionDecision
  spawn : List Event → ActorSpawnRequest → ActorAdmission → Except String SpawnedActor
  deliver : List Event → SpawnedActor → String → ActorStepPayload → Except String HandlerResult
  release : List Event → SpawnedActor → Except String Unit
  resolve : List Event → String → Predicate → Except String (Option RuntimeArtifact)
  publish : List Event → RuntimeStepPublication → Except String (List RuntimeArtifact)
  /-- Which of several rejected promises rejected first. -/
  earliest : List Event → ℕ
  /-- `String(value)`. -/
  text : JsValue → String

namespace RuntimeHost
variable (host : RuntimeHost)

def askFactory (factoryId : String) : Run (Option ActorFactoryOffer) :=
  .ask (fun history => host.resolveFactory history factoryId) (.resolveFactory factoryId)

def askDecide (request : ActorAuthorizationRequest) : Run ActorAuthorizationDecision :=
  .ask (fun history => host.decide history request) (.decide request)

def askAssess (request : ActorSpawnRequest) : Run ActorAdmissionDecision :=
  .ask (fun history => host.assess history request) (.assess request)

def askSpawn (request : ActorSpawnRequest) (admission : ActorAdmission) : Run SpawnedActor :=
  .ask (fun history => host.spawn history request admission) (.spawn request admission)

def askDeliver (actor : SpawnedActor) (method : String) (payload : ActorStepPayload) :
    Run HandlerResult :=
  .ask (fun history => host.deliver history actor method payload) (.deliver actor method payload)

def askRelease (actor : SpawnedActor) : Run Unit :=
  .ask (fun history => host.release history actor) (.release actor)

def askResolve (artifactId : String) (expected : Predicate) : Run (Option RuntimeArtifact) :=
  .ask (fun history => host.resolve history artifactId expected) (.resolve artifactId expected)

def askPublish (publication : RuntimeStepPublication) : Run (List RuntimeArtifact) :=
  .ask (fun history => host.publish history publication) (.publish publication)

end RuntimeHost

end AvenOS.Actors
