import AvenOS.Actors.Registry
import AvenOS.Foundations.ExceptLoop
import Mathlib.Data.List.MinMax

/-! # Placing a plan

The three planners over the capabilities that an authorized view offers in one environment: each
capability costs what it declares plus its cheapest target, and each step of the program gets a
target by the id of its capability. -/
namespace AvenOS.Actors
open ExceptLoop

structure PhysicalPlanStep extends PlanStep where
  target : AuthorizedActorTarget

/-- Who a program was planned for; an empty tenant is left out. -/
structure PlannedFor where
  subjectId : String
  tenantId : Option String
deriving DecidableEq

structure PhysicalProgram where
  goals : List Predicate
  steps : List PhysicalPlanStep
  totalCost : ℚ
  results : List PlanValue
  registryRevision : ℕ
  plannedFor : PlannedFor
  executionEnvironment : ExecutionEnvironment

structure PhysicalPlanningOptions where
  maxSteps : Option Limit
  maxStates : Option Limit
  /-- One run is placed wholly in one environment. -/
  executionEnvironment : ExecutionEnvironment

inductive PhysicalPlanResult
  | ok (program : PhysicalProgram) (exploredStates : ℕ)
  | failed (unmetGoals : List Predicate) (exploredStates : ℕ) (reason : String)

inductive PhysicalEnrichmentResult
  | ok (program : PhysicalProgram) (exploredInvocations : ℕ)
  | failed (reason : String) (exploredInvocations : ℕ)

def availableCapabilities (view : AuthorizedRegistryView) (environment : ExecutionEnvironment) :
    List AuthorizedCapability :=
  (view.capabilities.map fun entry =>
    { entry with targets := entry.targets.filter fun t => t.executionEnvironment = environment })
  |>.filter fun entry => entry.targets ≠ []

/-- `Math.min(...targets.map((target) => target.cost))`; entries have targets. -/
def cheapestCost (targets : List AuthorizedActorTarget) : ℚ :=
  match targets.map AuthorizedActorTarget.cost with
  | [] => 0
  | cost :: costs => costs.foldl min cost

def placedCapability (entry : AuthorizedCapability) : Capability :=
  { entry.capability with cost := some (entry.capability.cost.getD 1 + cheapestCost entry.targets) }

/-- A `Map` keeps the last value that was set for a key. -/
def attachedTarget (capabilities : List AuthorizedCapability) (capabilityId : String) :
    Option AuthorizedActorTarget :=
  match capabilities.reverse.find? fun entry => entry.capability.id == capabilityId with
  | none => none
  | some entry => entry.targets.head?

def attach (capabilities : List AuthorizedCapability) (step : PlanStep) :
    Except String PhysicalPlanStep :=
  match attachedTarget capabilities step.capability with
  | none => .error ("authorized target disappeared for " ++ step.capability)
  | some target => .ok ⟨step, target⟩

def physicalProgram (view : AuthorizedRegistryView) (logical : AdHocProgram)
    (capabilities : List AuthorizedCapability) (environment : ExecutionEnvironment) :
    Except String PhysicalProgram := do
  let steps ← logical.steps.mapM (attach capabilities)
  pure
    { goals := logical.goals
      steps := steps
      totalCost := logical.totalCost
      results := logical.results
      registryRevision := view.registryRevision
      plannedFor := ⟨view.principal.subjectId, truthy view.access.tenantId⟩
      executionEnvironment := environment }

/-! ## Placing keeps the program -/

section Place
variable {capabilities : List AuthorizedCapability} {environment : ExecutionEnvironment}
  {view : AuthorizedRegistryView} {logical : AdHocProgram} {program : PhysicalProgram}

theorem attach_ok {step : PlanStep} {physical : PhysicalPlanStep} (h : attach capabilities step = .ok physical) :
    ∃ target, attachedTarget capabilities step.capability = some target ∧ physical = ⟨step, target⟩ := by
  unfold attach at h
  cases htarget : attachedTarget capabilities step.capability with
  | none =>
    simp only [htarget] at h
    cases h
  | some target =>
    simp only [htarget] at h
    cases h
    exact ⟨target, rfl, rfl⟩

theorem physicalProgram_fields (h : physicalProgram view logical capabilities environment = .ok program) :
    program.totalCost = logical.totalCost ∧ program.results = logical.results ∧
      program.registryRevision = view.registryRevision ∧
      program.plannedFor = ⟨view.principal.subjectId, truthy view.access.tenantId⟩ ∧
      program.executionEnvironment = environment := by
  obtain ⟨steps, -, hprogram⟩ := bind_eq_ok h
  cases hprogram
  exact ⟨rfl, rfl, rfl, rfl, rfl⟩

theorem physicalProgram_steps (h : physicalProgram view logical capabilities environment = .ok program) :
    program.steps.map PhysicalPlanStep.toPlanStep = logical.steps ∧
      ∀ step ∈ program.steps, step.toPlanStep ∈ logical.steps ∧
        attachedTarget capabilities step.capability = some step.target := by
  obtain ⟨steps, hsteps, hprogram⟩ := bind_eq_ok h
  cases hprogram
  constructor
  · have hkeep : ∀ step physical, attach capabilities step = .ok physical → physical.toPlanStep = id step := by
      intro step physical hattach
      obtain ⟨target, -, rfl⟩ := attach_ok hattach
      rfl
    rw [map_mapM_ok hsteps hkeep, List.map_id]
  · intro step hstep
    obtain ⟨logicalStep, hlogical, hattach⟩ := mem_mapM_ok hsteps hstep
    obtain ⟨target, htarget, rfl⟩ := attach_ok hattach
    exact ⟨hlogical, htarget⟩

end Place

section Planners
variable (locale : Locale) (budget : ℕ) (view : AuthorizedRegistryView)
  (ingredients : List Ingredient)

/-- Search only the capabilities and placements visible to this principal. -/
def solveAuthorized (goals : List Predicate) (options : PhysicalPlanningOptions) :
    Option (Except String PhysicalPlanResult) :=
  let capabilities := availableCapabilities view options.executionEnvironment
  (solve locale budget (capabilities.map placedCapability) ingredients goals
    ⟨options.maxSteps, options.maxStates⟩).map fun
  | .failed unmetGoals exploredStates reason => .ok (.failed unmetGoals exploredStates reason)
  | .ok logical exploredStates =>
    (physicalProgram view logical capabilities options.executionEnvironment).map fun program =>
      .ok program exploredStates

def enrichAuthorized (factFamilies : List String) (options : PhysicalPlanningOptions) :
    Option (Except String PhysicalEnrichmentResult) :=
  let capabilities := availableCapabilities view options.executionEnvironment
  (planEnrichment locale budget (capabilities.map placedCapability) ingredients
    ⟨factFamilies, options.maxSteps⟩).map fun
  | .failed reason exploredInvocations => .ok (.failed reason exploredInvocations)
  | .ok logical exploredInvocations =>
    (physicalProgram view logical capabilities options.executionEnvironment).map fun program =>
      .ok program exploredInvocations

/-- Plan a cheapest directed prefix followed by exhaustive authorized enrichment. -/
def enrichAfterGoalsAuthorized (goals : List Predicate) (factFamilies : List String)
    (options : PhysicalPlanningOptions) : Option (Except String PhysicalEnrichmentResult) :=
  let capabilities := availableCapabilities view options.executionEnvironment
  (planGoalThenEnrichment locale budget (capabilities.map placedCapability) ingredients goals
    ⟨factFamilies, options.maxSteps⟩ options.maxStates).map fun
  | .failed reason exploredInvocations _ => .ok (.failed reason exploredInvocations)
  | .ok logical exploredInvocations _ =>
    (physicalProgram view logical capabilities options.executionEnvironment).map fun program =>
      .ok program exploredInvocations

end Planners

end AvenOS.Actors
