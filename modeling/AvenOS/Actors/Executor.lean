import AvenOS.Actors.Runtime

/-! # Executing a physical program

Ordered steps, one artifact per declared slot, factory targets, `spawn` and `invoke` decided again for
the resolved inputs, atomic publication, and release after every step. -/
namespace AvenOS.Actors
open EffectTrace StableSort

def demand (condition : Bool) (complaint : String) : Except String Unit :=
  if condition then .ok () else .error complaint

/-! ## Slots -/

def Cardinality.text : Cardinality → String
  | .one => "one"
  | .optional => "optional"
  | .many => "many"

def validateDeclaredSlot (kind : String) (slot : CapabilitySlot) (predicate : Predicate) :
    Except String Unit := do
  demand (slot.cardinality = .one)
    (kind ++ " slot " ++ slot.name ++ " uses unsupported " ++ slot.cardinality.text ++ " cardinality")
  demand (truthy slot.schema).isSome (kind ++ " slot " ++ slot.name ++ " has no schema")
  demand (predicate ≠ "" && unifiable slot.predicate predicate)
    (kind ++ " slot " ++ slot.name ++ " does not bind capability predicate " ++ predicate)

def validateDeclaredSlots (kind : String) (slots : Option (List CapabilitySlot))
    (predicates : List Predicate) : Except String Unit :=
  match slots with
  | none => .error (kind ++ " slots must bind every capability predicate")
  | some slots => do
    demand (slots.length = predicates.length) (kind ++ " slots must bind every capability predicate")
    (slots.zip predicates).forM fun pair => validateDeclaredSlot kind pair.1 pair.2

def validateSlot (kind : String) (index : ℕ) (slot : Option CapabilitySlot)
    (artifact : RuntimeArtifact) : Except String Unit :=
  match slot with
  | none => .error ("missing " ++ kind ++ " slot " ++ toString index)
  | some slot => do
    demand (truthy slot.schema = some artifact.schema)
      (kind ++ " slot " ++ slot.name ++ " requires schema " ++ slot.schema.getD "undefined")
    demand (unifiable slot.predicate artifact.predicate)
      (kind ++ " slot " ++ slot.name ++ " does not accept " ++ artifact.predicate)

def validateSlots (kind : String) (slots : Option (List CapabilitySlot))
    (predicates : List Predicate) (artifacts : List RuntimeArtifact) : Except String Unit := do
  validateDeclaredSlots kind slots predicates
  artifacts.zipIdx.forM fun (artifact, index) =>
    validateSlot kind index (slots.getD [])[index]? artifact

def bindInput (capability : Capability) (artifacts : List RuntimeArtifact)
    (slot : CapabilitySlot × ℕ) : Except String RuntimeInputBinding :=
  match artifacts[slot.2]? with
  | none => .error (capability.id ++ " omitted input " ++ slot.1.name)
  | some artifact => .ok ⟨slot.1.name, slot.1.role.getD slot.1.name, artifact⟩

def bindInputs (capability : Capability) (artifacts : List RuntimeArtifact) :
    Except String (List RuntimeInputBinding) :=
  (capability.inputSlots.getD []).zipIdx.mapM (bindInput capability artifacts)

/-! ## What an actor answers -/

structure ActorStepResult where
  outputs : Record
  warnings : List String

def stepWarnings : Option JsValue → Except String (List String)
  | none => .ok []
  | some (.arr items) => items.mapM fun
    | .str warning => .ok warning
    | _ => .error "actor returned invalid warnings"
  | some _ => .error "actor returned invalid warnings"

def parseActorStepResult (text : JsValue → String) (response : HandlerResult) :
    Except String ActorStepResult := do
  match ← response.record with
  | .obj candidate =>
    match candidate.lookup "ok", candidate.lookup "outputs" with
    | some (.bool true), some (.obj outputs) =>
      let warnings ← stepWarnings (candidate.lookup "warnings")
      assertPortableRunValue (.obj candidate) "$"
      pure ⟨outputs, warnings⟩
    | _, _ => .error (((candidate.lookup "error").map text).getD response.wire)
  | _ => .error response.wire

def outputDraft (capability : Capability) (step : PhysicalPlanStep) (result : ActorStepResult)
    (slot : CapabilitySlot × ℕ) : Except String RuntimeOutputDraft := do
  demand (hasName result.outputs slot.1.name) (capability.id ++ " omitted " ++ slot.1.name)
  match truthy (step.outputs[slot.2]?.map PlanValue.predicate), truthy slot.1.schema with
  | some predicate, some schema =>
    pure ⟨slot.1.name, slot.1.role.getD slot.1.name, predicate, schema,
      valueAt result.outputs slot.1.name⟩
  | _, _ => .error (capability.id ++ " has an incomplete output slot")

def outputDrafts (capability : Capability) (step : PhysicalPlanStep) (result : ActorStepResult) :
    Except String (List RuntimeOutputDraft) := do
  validateDeclaredSlots "output" capability.outputSlots capability.produces
  let slots := capability.outputSlots.getD []
  match result.outputs.find? fun field => !slots.any fun slot => slot.name == field.1 with
  | some unknown => .error (capability.id ++ " returned undeclared output slot " ++ unknown.1)
  | none => slots.zipIdx.mapM (outputDraft capability step result)

/-! ## Inputs -/

/-- The artifacts published so far, by step and output. -/
abbrev Values := List (String × RuntimeArtifact)

def stepValueKey (stepId : String) (output : ℕ) : String := stepId ++ ":" ++ toString output

def resolveValue (host : RuntimeHost) (values : Values) (value : PlanValue) :
    Run RuntimeArtifact :=
  match value.source with
  | .step stepId output =>
    match values.lookup (stepValueKey stepId output) with
    | none => .throw ("uncommitted input " ++ stepValueKey stepId output)
    | some artifact => pure artifact
  | .ingredient artifactId =>
    match truthy artifactId with
    | none => .throw ("ingredient " ++ value.predicate ++ " has no artifact")
    | some artifactId => do
      match ← host.askResolve artifactId value.predicate with
      | none => .throw ("artifact " ++ artifactId ++ " was not found")
      | some artifact =>
        .lift (demand (unifiable value.predicate artifact.predicate)
          ("artifact " ++ artifact.artifactId ++ " does not prove " ++ value.predicate))
        pure artifact

/-- `Promise.all` of `resolveValue`: all of them are started, and the earliest rejection wins. -/
def resolveValues (host : RuntimeHost) (values : Values) (inputs : List PlanValue) :
    Run (List RuntimeArtifact) :=
  .all host.earliest (inputs.map (resolveValue host values))

/-! ## One step -/

def authorizationInputs (inputs : List RuntimeInputBinding) : List ActorAuthorizationInput :=
  inputs.map fun input =>
    { slot := input.slot
      role := input.role
      artifactId := input.artifact.artifactId
      predicate := input.artifact.predicate
      schema := input.artifact.schema
      typeKey := input.artifact.typeKey
      schemaVersion := input.artifact.schemaVersion
      contentDigest := input.artifact.contentDigest }

def boundInputs (inputs : List RuntimeInputBinding) : List (String × RuntimeArtifact) :=
  inputs.foldl (fun bound input => assign bound input.slot input.artifact) []

def RuntimeArtifact.portable (artifact : RuntimeArtifact) : JsValue :=
  .obj
    [("artifactId", .str artifact.artifactId), ("predicate", .str artifact.predicate),
      ("schema", .str artifact.schema), ("typeKey", .str artifact.typeKey),
      ("schemaVersion", .num artifact.schemaVersion),
      ("contentDigest", .str artifact.contentDigest), ("value", artifact.value)]

/-- An artifact that is assigned to `__proto__` becomes the prototype of the inputs. -/
def portableInputs (inputs : List (String × RuntimeArtifact)) : JsValue :=
  if inputs.any fun input => input.1 == "__proto__" then .foreign " must be a plain object"
  else .obj (inputs.map fun input => (input.1, input.2.portable))

def ActorStepPayload.portable (payload : ActorStepPayload) : JsValue :=
  .obj
    [("runId", .str payload.runId), ("stepId", .str payload.stepId),
      ("capabilityId", .str payload.capabilityId), ("inputs", portableInputs payload.inputs),
      ("parameters", .obj payload.parameters), ("configuration", .obj payload.configuration)]

/-- What a step leaves for its publication. -/
structure StepOutputs where
  drafts : List RuntimeOutputDraft
  warnings : List String
  decisions : List String

section Step
variable (host : RuntimeHost) (request : PhysicalProgramExecutionRequest) (step : PhysicalPlanStep)
  (inputs : List RuntimeInputBinding)

def stepQuery (action : AuthorizationAction) (target : AuthorizationTarget)
    (configuration : Record) : ActorAuthorizationRequest :=
  { action := action
    principal := request.principal
    access := request.access
    definitionRef := step.target.definitionRef
    capabilityId := step.capability
    method := step.method
    target := some target
    configuration := some configuration
    inputs := some (authorizationInputs inputs)
    runId := some request.runId
    resource := request.resource }

def spawnRequest (offerId : String) (configuration : Record) : ActorSpawnRequest :=
  { requestId := request.runId ++ ":" ++ step.id ++ ":spawn"
    runId := request.runId
    principal := request.principal
    access := request.access
    offerId := offerId
    requestedCapabilities := [step.capability]
    configuration := configuration
    inputs := authorizationInputs inputs
    resource := request.resource }

def stepPayload (configuration : Record) : ActorStepPayload :=
  { runId := request.runId
    stepId := step.id
    capabilityId := step.capability
    inputs := boundInputs inputs
    parameters := request.parameters.getD []
    configuration := configuration }

def askAllowed (query : ActorAuthorizationRequest) (refusal : String) : Run AllowedDecision := do
  match ← host.askDecide query with
  | .deny _ reasonCode => .throw (refusal ++ ": " ++ reasonCode)
  | .allow decision => pure decision

def askAdmitted (query : ActorSpawnRequest) : Run ActorAdmission := do
  match ← host.askAssess query with
  | .denied _ reasonCode => .throw ("factory denied: " ++ reasonCode)
  | .admitted admission =>
    .lift (demand (admission.grantedCapabilities.contains step.capability)
      ("factory admission omitted " ++ step.capability))
    pure admission

/-- The body of the `try` block: what is done with the spawned actor. -/
def invokeSpawned (capability : Capability) (admission : ActorAdmission) (decisions : List String)
    (spawned : SpawnedActor) : Run StepOutputs := do
  .lift (demand (spawned.advertisement.definitionRef = step.target.definitionRef &&
      spawned.advertisement.executionEnvironment = request.program.executionEnvironment &&
        spawned.advertisement.capabilityIds.contains step.capability)
    ("spawned actor does not satisfy " ++ step.capability))
  let decision ← askAllowed host (stepQuery request step inputs .invoke
    (.materialized spawned.advertisement.instanceId) admission.normalizedConfiguration)
    "invoke denied"
  let payload := stepPayload request step inputs admission.normalizedConfiguration
  .lift (assertPortableRunValue payload.portable "$")
  let response ← host.askDeliver spawned step.method payload
  let result ← .lift (parseActorStepResult host.text response)
  let drafts ← .lift (outputDrafts capability step result)
  pure ⟨drafts, result.warnings, decisions ++ [decision.decisionId]⟩

def executeFactoryStep (capability : Capability) (decisions : List String) : Run StepOutputs :=
  match step.target.placement with
  | .materialized _ => .throw ("executor slice requires a factory target for " ++ step.capability)
  | .factory offerId factoryId configuration => do
    let offer ← host.askFactory factoryId
    .lift (demand (offer.map ActorFactoryOffer.offerId = some offerId)
      ("factory implementation is unavailable for " ++ offerId))
    let decision ← askAllowed host (stepQuery request step inputs .spawn
      (.factory offerId factoryId) configuration) "spawn denied"
    let query := spawnRequest request step inputs offerId
      (spread configuration (decision.forcedConfiguration.getD []))
    let admission ← askAdmitted host step query
    let spawned ← host.askSpawn query admission
    .ensuring (invokeSpawned host request step inputs capability admission
      (decisions ++ [decision.decisionId]) spawned) (host.askRelease spawned)

end Step

/-! ## Publication -/

def assertPublishedOutput (artifact : RuntimeArtifact) (planned : PlanValue)
    (draft : Option RuntimeOutputDraft) : Except String Unit :=
  match draft with
  | none => .error ("published artifact does not prove " ++ planned.predicate)
  | some draft => do
    demand (unifiable planned.predicate artifact.predicate)
      ("published artifact does not prove " ++ planned.predicate)
    demand (artifact.schema = draft.schema) ("published artifact does not use " ++ draft.schema)

def admitOutput (step : PhysicalPlanStep) (drafts : List RuntimeOutputDraft) (values : Values)
    (output : (RuntimeArtifact × PlanValue) × ℕ) : Except String Values := do
  assertPublishedOutput output.1.1 output.1.2 drafts[output.2]?
  assertPortableRunValue output.1.1.value "$"
  pure (assign values (stepValueKey step.id output.2) output.1.1)

/-- What is checked of the publisher's answer, and the values it adds. -/
def admitPublication (step : PhysicalPlanStep) (drafts : List RuntimeOutputDraft) (values : Values)
    (publication : List RuntimeArtifact) : Except String Values := do
  demand (publication.length = step.outputs.length)
    (step.capability ++ " published " ++ toString publication.length ++ " artifacts for " ++
      toString step.outputs.length ++ " planned outputs")
  (publication.zip step.outputs).zipIdx.foldlM (admitOutput step drafts) values

def stepPublication (request : PhysicalProgramExecutionRequest) (step : PhysicalPlanStep)
    (inputs : List RuntimeInputBinding) (drafts : List RuntimeOutputDraft) :
    RuntimeStepPublication :=
  { publicationId := request.runId ++ ":" ++ step.id
    runId := request.runId
    stepId := step.id
    capabilityId := step.capability
    inputs := inputs
    outputs := drafts }

/-! ## The run -/

def capabilityFor (registry : ActorRegistrySnapshot) (capabilityId : String) :
    Except String Capability :=
  match registry.definitions.findSome? fun definition =>
      definition.capabilities.find? fun candidate => candidate.id == capabilityId with
  | none => .error ("planned capability " ++ capabilityId ++ " is absent from registry revision")
  | some capability => .ok capability

/-- The variables of the loop over the steps. -/
structure Progress where
  values : Values
  completedStepIds : List String
  published : List RuntimeArtifact
  policyDecisionIds : List String
  warnings : List String

def Progress.start : Progress := ⟨[], [], [], [], []⟩

section Execute
variable (host : RuntimeHost) (request : PhysicalProgramExecutionRequest)

/-- What is checked of a step before anything is asked. -/
def admitStep (progress : Progress) (step : PhysicalPlanStep) : Except String Capability := do
  demand (step.target.executionEnvironment = request.program.executionEnvironment)
    (step.id ++ " target violates the frozen execution environment")
  match step.dependsOn.find? fun dependency => !progress.completedStepIds.contains dependency with
  | some missing => .error (step.id ++ " depends on incomplete " ++ missing)
  | none => capabilityFor request.registry step.capability

def executeStep (progress : Progress) (step : PhysicalPlanStep) : Run Progress := do
  let capability ← .lift (admitStep request progress step)
  let artifacts ← resolveValues host progress.values step.inputs
  .lift (validateSlots "input" capability.inputSlots capability.requires artifacts)
  let inputs ← .lift (bindInputs capability artifacts)
  let outputs ← executeFactoryStep host request step inputs capability
    (progress.policyDecisionIds ++ [step.target.authorization.decisionId])
  let publication ← host.askPublish (stepPublication request step inputs outputs.drafts)
  let values ← .lift (admitPublication step outputs.drafts progress.values publication)
  pure
    { values := values
      completedStepIds := progress.completedStepIds ++ [step.id]
      published := progress.published ++ publication
      policyDecisionIds := outputs.decisions
      warnings := progress.warnings ++ outputs.warnings }

def executeSteps (steps : List PhysicalPlanStep) : Run Progress :=
  steps.foldlM (executeStep host request) .start

/-- What is checked of the request; principal and access are made of texts. -/
def admitRequest : Except String Unit := do
  assertPortableRunValue (.obj (request.parameters.getD [])) "$"
  assertPortableRunValue (.obj (request.resource.getD [])) "$"
  demand (request.registry.revision = request.program.registryRevision)
    "registry snapshot does not match the physical plan"
  demand (request.principal.subjectId = request.program.plannedFor.subjectId)
    "execution principal does not match the physical plan"
  demand (request.access.tenantId = request.program.plannedFor.tenantId)
    "execution tenant does not match the physical plan"

def executePhysicalProgram : Run PhysicalProgramExecutionResult := do
  .lift (admitRequest request)
  let progress ← executeSteps host request request.program.steps
  let results ← resolveValues host progress.values request.program.results
  let fulfilledPredicates := results.map RuntimeArtifact.predicate
  pure
    { completedStepIds := progress.completedStepIds
      artifacts := progress.published
      fulfilledPredicates := fulfilledPredicates
      remainingGoals := request.program.goals.filter fun goal =>
        !fulfilledPredicates.any fun predicate => unifiable goal predicate
      registryRevision := request.program.registryRevision
      policyDecisionIds := sortBy compareText (unique progress.policyDecisionIds)
      warnings := progress.warnings }

end Execute

end AvenOS.Actors
