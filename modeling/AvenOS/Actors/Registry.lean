import AvenOS.Actors.Planner
import AvenOS.Actors.Portable

/-! # Registry snapshots and the authorized view

What a registry advertises, the decisions an authorizer is asked for, and the view that planning
gets of a snapshot. The authorizer answers in any monad: a pure function of its query for planning
alone, a host with a history for a whole run. -/
namespace AvenOS.Actors
open StableSort

inductive ExecutionEnvironment
  | «local»
  | server
deriving DecidableEq, Repr

def ExecutionEnvironment.text : ExecutionEnvironment → String
  | .«local» => "local"
  | .server => "server"

structure ActorDefinition where
  /-- Version-qualified identity. -/
  ref : String
  capabilities : List Capability
deriving DecidableEq

inductive InstanceStatus
  | available
  | draining
  | unavailable
deriving DecidableEq, Repr

/-- A materialized actor which can accept envelopes now. -/
structure ActorInstanceAdvertisement where
  instanceId : String
  definitionRef : String
  capabilityIds : List String
  status : InstanceStatus
  executionEnvironment : ExecutionEnvironment
  cost : Option ℚ
  latencyMs : Option ℚ
  expiresAt : Option String
deriving DecidableEq

/-- A placement which a runtime may ask a factory to materialize. -/
structure ActorFactoryOffer where
  offerId : String
  factoryId : String
  definitionRef : String
  capabilityIds : List String
  executionEnvironment : ExecutionEnvironment
  defaultConfiguration : Option Record
  cost : Option ℚ
  latencyMs : Option ℚ

structure ActorRegistrySnapshot where
  revision : ℕ
  capturedAt : String
  definitions : List ActorDefinition
  instances : List ActorInstanceAdvertisement
  offers : List ActorFactoryOffer

/-! ## Decisions -/

inductive PrincipalKind
  | anonymous
  | user
  | service
deriving DecidableEq

structure ActorPrincipal where
  subjectId : String
  kind : PrincipalKind
  assurance : List String
  sessionId : Option String
deriving DecidableEq

/-- Application context, deliberately not asserted by identity. -/
structure ActorAccessContext where
  tenantId : Option String
  entitlements : Option (List String)
  artifactGrantIds : Option (List String)
deriving DecidableEq

inductive AuthorizationAction
  | discover
  | plan
  | spawn
  | invoke
deriving DecidableEq

/-- Immutable input identity available to execution-time policy decisions. -/
structure ActorAuthorizationInput where
  slot : String
  role : String
  artifactId : String
  predicate : Predicate
  schema : String
  typeKey : String
  schemaVersion : ℚ
  contentDigest : String
deriving DecidableEq

inductive AuthorizationTarget
  | materialized (instanceId : String)
  | factory (offerId factoryId : String)
deriving DecidableEq

structure ActorAuthorizationRequest where
  action : AuthorizationAction
  principal : ActorPrincipal
  access : ActorAccessContext
  definitionRef : String
  capabilityId : String
  method : String
  target : Option AuthorizationTarget
  configuration : Option Record
  inputs : Option (List ActorAuthorizationInput)
  runId : Option String
  resource : Option Record

structure AllowedDecision where
  decisionId : String
  /-- Values the policy requires regardless of what the caller requested. -/
  forcedConfiguration : Option Record

inductive ActorAuthorizationDecision
  | allow (decision : AllowedDecision)
  | deny (decisionId reasonCode : String)

/-- How a placement is reached: an actor that runs, or a factory that makes one. -/
inductive Placement
  | materialized (instanceId : String)
  | factory (offerId factoryId : String) (configuration : Record)

structure AuthorizedActorTarget where
  placement : Placement
  definitionRef : String
  executionEnvironment : ExecutionEnvironment
  cost : ℚ
  latencyMs : Option ℚ
  authorization : AllowedDecision

structure AuthorizedCapability where
  capability : Capability
  targets : List AuthorizedActorTarget

/-- A principal-specific, non-authoritative planning projection. -/
structure AuthorizedRegistryView where
  registryRevision : ℕ
  capturedAt : String
  principal : ActorPrincipal
  access : ActorAccessContext
  capabilities : List AuthorizedCapability

structure PlanningAuthorizationOptions where
  access : Option ActorAccessContext
  configurationByOffer : List (String × Record)
  resource : Option Record

def ActorAccessContext.empty : ActorAccessContext := ⟨none, none, none⟩

def usableInstance (candidate : ActorInstanceAdvertisement) (capturedAt : String) : Bool :=
  candidate.status = .available &&
    match truthy candidate.expiresAt with
    | none => true
    | some expiresAt => compareText expiresAt capturedAt = .gt

def targetId (target : AuthorizedActorTarget) : String :=
  match target.placement with
  | .materialized instanceId => instanceId
  | .factory offerId _ _ => offerId

def compareTargets (locale : Locale) : AuthorizedActorTarget → AuthorizedActorTarget → Ordering :=
  compareLex (compareOn AuthorizedActorTarget.cost) fun left right =>
    locale.localeCompare (targetId left) (targetId right)

def instanceTarget (definitionRef : String) (candidate : ActorInstanceAdvertisement)
    (decision : AllowedDecision) : AuthorizedActorTarget :=
  { placement := .materialized candidate.instanceId
    definitionRef := definitionRef
    executionEnvironment := candidate.executionEnvironment
    cost := candidate.cost.getD 0
    latencyMs := candidate.latencyMs
    authorization := decision }

def factoryTarget (offer : ActorFactoryOffer) (configuration : Record)
    (decision : AllowedDecision) : AuthorizedActorTarget :=
  { placement := .factory offer.offerId offer.factoryId
      (spread configuration (decision.forcedConfiguration.getD []))
    definitionRef := offer.definitionRef
    executionEnvironment := offer.executionEnvironment
    cost := offer.cost.getD 0
    latencyMs := offer.latencyMs
    authorization := decision }

/-! ## The planning view -/

section Authorize
variable (snapshot : ActorRegistrySnapshot) (principal : ActorPrincipal)
  (options : PlanningAuthorizationOptions)

def discoverQuery (definitionRef : String) (capability : Capability) : ActorAuthorizationRequest :=
  { action := .discover
    principal := principal
    access := options.access.getD .empty
    definitionRef := definitionRef
    capabilityId := capability.id
    method := capability.method
    target := none
    configuration := none
    inputs := none
    runId := none
    resource := options.resource }

def planInstanceQuery (definitionRef : String) (capability : Capability)
    (candidate : ActorInstanceAdvertisement) : ActorAuthorizationRequest :=
  { discoverQuery principal options definitionRef capability with
    action := .plan
    target := some (.materialized candidate.instanceId) }

def offerConfiguration (offer : ActorFactoryOffer) : Record :=
  (options.configurationByOffer.lookup offer.offerId).getD (offer.defaultConfiguration.getD [])

def planOfferQuery (definitionRef : String) (capability : Capability) (offer : ActorFactoryOffer) :
    ActorAuthorizationRequest :=
  { discoverQuery principal options definitionRef capability with
    action := .plan
    target := some (.factory offer.offerId offer.factoryId)
    configuration := some (offerConfiguration options offer) }

def candidateInstances (definitionRef : String) (capability : Capability) :
    List ActorInstanceAdvertisement :=
  snapshot.instances.filter fun candidate =>
    candidate.definitionRef == definitionRef && candidate.capabilityIds.contains capability.id &&
      usableInstance candidate snapshot.capturedAt

def candidateOffers (definitionRef : String) (capability : Capability) : List ActorFactoryOffer :=
  snapshot.offers.filter fun candidate =>
    candidate.definitionRef == definitionRef && candidate.capabilityIds.contains capability.id

variable {m : Type → Type} [Monad m]
  (decide : ActorAuthorizationRequest → m ActorAuthorizationDecision)

def planInstance (definitionRef : String) (capability : Capability)
    (targets : List AuthorizedActorTarget) (candidate : ActorInstanceAdvertisement) :
    m (List AuthorizedActorTarget) := do
  match ← decide (planInstanceQuery principal options definitionRef capability candidate) with
  | .deny _ _ => pure targets
  | .allow decision => pure (targets ++ [instanceTarget definitionRef candidate decision])

def planOffer (definitionRef : String) (capability : Capability)
    (targets : List AuthorizedActorTarget) (offer : ActorFactoryOffer) :
    m (List AuthorizedActorTarget) := do
  match ← decide (planOfferQuery principal options definitionRef capability offer) with
  | .deny _ _ => pure targets
  | .allow decision =>
    pure (targets ++ [factoryTarget offer (offerConfiguration options offer) decision])

def authorizeCapability (locale : Locale) (definitionRef : String)
    (capabilities : List AuthorizedCapability) (capability : Capability) :
    m (List AuthorizedCapability) := do
  match ← decide (discoverQuery principal options definitionRef capability) with
  | .deny _ _ => pure capabilities
  | .allow _ =>
    let targets ← (candidateInstances snapshot definitionRef capability).foldlM
      (planInstance principal options decide definitionRef capability) []
    let targets ← (candidateOffers snapshot definitionRef capability).foldlM
      (planOffer principal options decide definitionRef capability) targets
    if targets = [] then pure capabilities
    else pure (capabilities ++ [⟨capability, sortBy (compareTargets locale) targets⟩])

/-- Hide unauthorized definitions and placements before search starts. -/
def authorizeRegistryForPlanning (locale : Locale) : m AuthorizedRegistryView := do
  let capabilities ← snapshot.definitions.foldlM (fun capabilities definition =>
    definition.capabilities.foldlM
      (authorizeCapability snapshot principal options decide locale definition.ref) capabilities) []
  pure ⟨snapshot.revision, snapshot.capturedAt, principal, options.access.getD .empty, capabilities⟩

end Authorize

end AvenOS.Actors
