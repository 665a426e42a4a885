import AvenOS.Actors.Executor

/-! # From a run request to its result

`createActorPlanExecutor`: admit the request, see the registry through the authorizer, plan in the mode
the request asks for, execute the program, and report what is understood. -/
namespace AvenOS.Actors
open EffectTrace

/-! ## Requests and results -/

inductive PlanRunGoalSpec
  | explore (subject : Ingredient) (factFamilies : List String)
  | goalOnly
  | goalThenEnrich (subject : Ingredient) (factFamilies : List String)

structure PlanRunStartRequest where
  idempotencyKey : String
  executionEnvironment : ExecutionEnvironment
  ingredients : List Ingredient
  goals : List Predicate
  /-- Absent preserves version 1 exact-goal behavior. -/
  goalSpec : Option PlanRunGoalSpec
  parameters : Record
  principal : ActorPrincipal
  access : ActorAccessContext

structure UnderstoodFact where
  predicate : Predicate
  artifactId : String
  schema : Option String

structure PlanRunUnderstandingOutput where
  kind : String
  status : String
  stoppingReason : String
  subjectArtifactId : String
  facts : List UnderstoodFact
  affordances : List AvailableAffordance

structure PlanRunExecutionResult where
  artifactIds : List String
  completedStepIds : List String
  remainingGoals : List Predicate
  registryRevision : ℕ
  policyDecisionIds : List String
  output : Option PlanRunUnderstandingOutput

/-- Host-owned ports; one that is absent answers with nothing. -/
structure ActorExecutionHost extends RuntimeHost where
  executionEnvironment : ExecutionEnvironment
  registry : List Event → Except String ActorRegistrySnapshot
  connect : List Event → HostPort → Except String Unit
  resource : List Event → Except String (Option Record)
  affordances : List Event → Except String (List AffordanceDefinition)
  relatedIngredients : List Event → Except String (List Ingredient)

namespace ActorExecutionHost
variable (host : ActorExecutionHost)

def askRegistry : Run ActorRegistrySnapshot := .ask host.registry .registry

def askConnect (port : HostPort) : Run Unit :=
  .ask (fun history => host.connect history port) (.connect port)

def askResource : Run (Option Record) := .ask host.resource .resource

def askAffordances : Run (List AffordanceDefinition) := .ask host.affordances .affordances

def askRelatedIngredients : Run (List Ingredient) :=
  .ask host.relatedIngredients .relatedIngredients

end ActorExecutionHost

/-! ## Admission -/

def enrichmentSpec : PlanRunGoalSpec → Option (Ingredient × List String)
  | .explore subject factFamilies => some (subject, factFamilies)
  | .goalOnly => none
  | .goalThenEnrich subject factFamilies => some (subject, factFamilies)

def PlanRunStartRequest.enrichment (request : PlanRunStartRequest) :
    Option (Ingredient × List String) :=
  request.goalSpec.bind enrichmentSpec

def assertSubject (request : PlanRunStartRequest) (subject : Ingredient) : Except String Unit := do
  demand (truthy subject.artifactId).isSome "exploration subject requires an artifact"
  demand (request.ingredients.any fun ingredient =>
      ingredient.predicate == subject.predicate && ingredient.artifactId == subject.artifactId)
    "exploration subject is not an admitted ingredient"

def assertGoalRequest (request : PlanRunStartRequest) : Except String Unit := do
  match request.goalSpec with
  | some (.explore _ _) => demand request.goals.isEmpty "exploration cannot include exact goals"
  | _ => demand (!request.goals.isEmpty) "exact execution requires at least one goal"
  match request.enrichment with
  | none => pure ()
  | some (subject, _) => assertSubject request subject

/-! ## Planning -/

def PhysicalPlanResult.program : PhysicalPlanResult → Except String PhysicalProgram
  | .ok program _ => .ok program
  | .failed _ _ reason => .error reason

def PhysicalEnrichmentResult.program : PhysicalEnrichmentResult → Except String PhysicalProgram
  | .ok program _ => .ok program
  | .failed reason _ => .error reason

def planned (locale : Locale) (budget : ℕ) (environment : ExecutionEnvironment)
    (request : PlanRunStartRequest) (view : AuthorizedRegistryView) :
    Option (Except String PhysicalProgram) :=
  let options : PhysicalPlanningOptions := ⟨none, none, environment⟩
  match request.goalSpec with
  | some (.goalThenEnrich _ factFamilies) =>
    (enrichAfterGoalsAuthorized locale budget view request.ingredients request.goals factFamilies
      options).map fun result => result.bind PhysicalEnrichmentResult.program
  | some (.explore _ factFamilies) =>
    (enrichAuthorized locale budget view request.ingredients factFamilies options).map
      fun result => result.bind PhysicalEnrichmentResult.program
  | _ =>
    (solveAuthorized locale budget view request.ingredients request.goals options).map
      fun result => result.bind PhysicalPlanResult.program

structure RunPlan where
  registry : ActorRegistrySnapshot
  view : AuthorizedRegistryView
  program : PhysicalProgram

section Plan
variable (locale : Locale) (budget : ℕ) (host : ActorExecutionHost) (request : PlanRunStartRequest)

/-- The first half of a run: admit, look, plan. Ports are asked one after another. -/
def planRun : Run (Option RunPlan) := do
  .lift (demand (request.executionEnvironment = host.executionEnvironment)
    (host.executionEnvironment.text ++ " execution host cannot run " ++
      request.executionEnvironment.text ++ " placement"))
  .lift (assertGoalRequest request)
  let registry ← host.askRegistry
  host.askConnect .authorizer
  let view ← authorizeRegistryForPlanning registry request.principal ⟨some request.access, [], none⟩
    host.askDecide locale
  match planned locale budget host.executionEnvironment request view with
  | none => pure none
  | some program => do
    let program ← .lift program
    pure (some ⟨registry, view, program⟩)

/-! ## Understanding -/

def uniqueIngredients (ingredients : List Ingredient) : List Ingredient :=
  (ingredients.foldl (fun unique ingredient =>
    assign unique (ingredient.predicate ++ nul ++ ingredient.artifactId.getD "") ingredient)
    ([] : List (String × Ingredient))).map Prod.snd

def understoodFact (artifacts : List RuntimeArtifact) (fact : Ingredient) : List UnderstoodFact :=
  match truthy fact.artifactId with
  | none => []
  | some artifactId =>
    let artifact := artifacts.find? fun candidate => candidate.artifactId == artifactId
    [⟨fact.predicate, artifactId, artifact.map RuntimeArtifact.schema⟩]

def understandingOutput (view : AuthorizedRegistryView) (artifacts : List RuntimeArtifact)
    (subject : Ingredient) : Run (Option PlanRunUnderstandingOutput) :=
  match truthy subject.artifactId with
  | none => .throw "exploration subject requires an artifact"
  | some subjectArtifactId => do
    let currentFacts := request.ingredients ++
      artifacts.map fun artifact => ⟨artifact.predicate, some artifact.artifactId⟩
    let definitions ← host.askAffordances
    let related ← host.askRelatedIngredients
    let capabilities := (view.capabilities.filter fun entry =>
      entry.targets.any fun target => target.executionEnvironment = host.executionEnvironment).map
        AuthorizedCapability.capability
    let facts := uniqueIngredients (currentFacts ++ related)
    pure <| (discoverAffordances locale budget facts capabilities definitions).map fun affordances =>
      { kind := "artifact-understanding"
        status := "complete"
        stoppingReason := "saturated"
        subjectArtifactId := subjectArtifactId
        facts := (uniqueIngredients currentFacts).flatMap (understoodFact artifacts)
        affordances := affordances }

def runOutput (view : AuthorizedRegistryView) (artifacts : List RuntimeArtifact) :
    Run (Option (Option PlanRunUnderstandingOutput)) :=
  match request.enrichment with
  | none => pure (some none)
  | some (subject, _) => do
    let output ← understandingOutput locale budget host request view artifacts subject
    pure (output.map some)

/-! ## Execution -/

def executionRequest (plan : RunPlan) (resource : Option Record) :
    PhysicalProgramExecutionRequest :=
  { runId := request.idempotencyKey
    program := plan.program
    registry := plan.registry
    principal := request.principal
    access := request.access
    parameters := some request.parameters
    resource := resource }

/-- A zero-step program is a valid generic plan. -/
def reportIdle (plan : RunPlan) : Run (Option PlanRunExecutionResult) := do
  let output ← runOutput locale budget host request plan.view []
  pure <| output.map fun output =>
    { artifactIds := []
      completedStepIds := []
      remainingGoals := if request.enrichment.isSome then
          request.goals.filter fun goal => !request.ingredients.any fun ingredient =>
            unifiable goal ingredient.predicate
        else []
      registryRevision := plan.registry.revision
      policyDecisionIds := []
      output := output }

def executeRun (plan : RunPlan) : Run (Option PlanRunExecutionResult) := do
  host.askConnect .factories
  host.askConnect .artifacts
  let resource ← host.askResource
  let result ← executePhysicalProgram host.toRuntimeHost (executionRequest request plan resource)
  let output ← runOutput locale budget host request plan.view result.artifacts
  pure <| output.map fun output =>
    { artifactIds := result.artifacts.map RuntimeArtifact.artifactId
      completedStepIds := result.completedStepIds
      remainingGoals := result.remainingGoals
      registryRevision := result.registryRevision
      policyDecisionIds := result.policyDecisionIds
      output := output }

end Plan

/-- The run of a request; no result means that a budget ran out, of the planner or of the one that
looks for routes of affordances. -/
def createActorPlanExecutor (locale : Locale) (budget affordanceBudget : ℕ)
    (host : ActorExecutionHost) (request : PlanRunStartRequest) :
    Run (Option PlanRunExecutionResult) := do
  match ← planRun locale budget host request with
  | none => pure none
  | some plan =>
    if plan.program.steps.isEmpty then reportIdle locale affordanceBudget host request plan
    else executeRun locale affordanceBudget host request plan

end AvenOS.Actors
