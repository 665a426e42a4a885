import AvenOS.Actors.PlanExecutor
import AvenOS.Actors.PlannerOptimality
import AvenOS.Actors.PlanningNoninterference

/-! # Programs that are planned over a registry

Whatever the mode and whatever the authorizer decides, a planned program applies capabilities of the
registry, its steps take only ingredients and outputs of steps before them, and its results are such
values too. -/
namespace AvenOS.Actors
open EffectTrace ExceptLoop Text

/-! ## Planned programs -/

structure PlannedStep (environment : ExecutionEnvironment) (ingredients : List Ingredient)
    (done : List PhysicalPlanStep) (capability : Capability) (step : PhysicalPlanStep) : Prop where
  named : step.capability = capability.id
  environment : step.target.executionEnvironment = environment
  fresh : step.id ∉ done.map fun step => step.id
  dependsOn : ∀ id ∈ step.dependsOn, id ∈ done.map fun step => step.id
  accepted : List.Forall₂ (fun p (v : PlanValue) => unifiable p v.predicate = true)
    capability.requires step.inputs
  supplied : ∀ v ∈ step.inputs, v ∈ ingredients.map ingredientValue ∨
    ∃ earlier ∈ done, ∃ output, v.source = .step earlier.id output ∧
      earlier.outputs[output]? = some v
  produced : List.Forall₂ (fun p (v : PlanValue) =>
    (parseTerm v.predicate).functor = (parseTerm p).functor ∧ (trim p ≠ "" → v.predicate ≠ ""))
    capability.produces step.outputs

structure PlannedProgram (registry : ActorRegistrySnapshot) (request : PlanRunStartRequest)
    (environment : ExecutionEnvironment) (program : PhysicalProgram) : Prop where
  steps : ∀ done step rest, program.steps = done ++ step :: rest →
    ∃ definition ∈ registry.definitions, ∃ capability ∈ definition.capabilities,
      PlannedStep environment request.ingredients done capability step
  results : ∀ v ∈ program.results, v ∈ request.ingredients.map ingredientValue ∨
    ∃ step ∈ program.steps, ∃ output, v.source = .step step.id output ∧
      step.outputs[output]? = some v
  revision : program.registryRevision = registry.revision
  plannedFor : program.plannedFor = ⟨request.principal.subjectId, truthy request.access.tenantId⟩
  environment : program.executionEnvironment = environment

structure ViewOf (registry : ActorRegistrySnapshot) (request : PlanRunStartRequest)
    (view : AuthorizedRegistryView) : Prop where
  listed : ∀ entry ∈ view.capabilities, ∃ definition ∈ registry.definitions,
    entry.capability ∈ definition.capabilities
  revision : view.registryRevision = registry.revision
  principal : view.principal = request.principal
  access : view.access = request.access

theorem Substitution.Unifies.unifiable {σ : Substitution} {p q : Predicate} (h : σ.Unifies p q) :
    unifiable p q = true := unifiable_iff.2 ⟨σ, h⟩

section Program
variable {registry : ActorRegistrySnapshot} {request : PlanRunStartRequest}
  {environment : ExecutionEnvironment} {view : AuthorizedRegistryView}
  {program : PhysicalProgram}

theorem attachedTarget_environment {id : String} {target : AuthorizedActorTarget}
    (h : attachedTarget (availableCapabilities view environment) id = some target) :
    target.executionEnvironment = environment := by
  unfold attachedTarget at h
  cases hfind : (availableCapabilities view environment).reverse.find? fun entry => entry.capability.id == id with
  | none =>
    simp only [hfind] at h
    cases h
  | some entry =>
    simp only [hfind] at h
    have hentry := List.mem_reverse.mp (List.mem_of_find?_eq_some hfind)
    obtain ⟨hentry, -⟩ := List.mem_filter.mp hentry
    obtain ⟨source, -, rfl⟩ := List.mem_map.mp hentry
    have htarget := (List.mem_filter.mp (List.mem_of_head? h)).2
    exact of_decide_eq_true htarget

theorem planStep_produced (capability : Capability) (m : RequirementMatch) (taken : ℕ) :
    List.Forall₂ (fun p (v : PlanValue) =>
      (parseTerm v.predicate).functor = (parseTerm p).functor ∧ (trim p ≠ "" → v.predicate ≠ ""))
      capability.produces (planStep capability m taken).outputs := by
  refine List.forall₂_iff_get.mpr ⟨by simp [planStep], fun i h₁ h₂ => ?_⟩
  simp only [planStep, List.get_eq_getElem, List.getElem_mapIdx]
  exact ⟨parseTerm_functor_substituteWith _ _, substituteWith_ne_empty⟩

theorem plannedProgram_of_built (hview : ViewOf registry request view)
    (h : PlacedFromBuilt view request.ingredients environment program) :
    PlannedProgram registry request environment program := by
  obtain ⟨logical, hbuilt, hprogram⟩ := h
  obtain ⟨hlogical, hattached⟩ := physicalProgram_steps hprogram
  obtain ⟨-, hresults, hrevision, hplannedFor, henvironment⟩ := physicalProgram_fields hprogram
  have hmem : ∀ {step : PlanStep} {steps : List PhysicalPlanStep}, step ∈ steps.map PhysicalPlanStep.toPlanStep →
        ∃ physical ∈ steps, physical.toPlanStep = step := fun h => List.mem_map.mp h
  refine ⟨?_, ?_, by rw [hrevision, hview.revision], ?_, henvironment⟩
  · intro done step rest hsplit
    have hsplit' : logical.steps = done.map PhysicalPlanStep.toPlanStep ++
        step.toPlanStep :: rest.map PhysicalPlanStep.toPlanStep := by
      rw [← hlogical, hsplit, List.map_append, List.map_cons]
    obtain ⟨hbefore, placed, m, happlies, hstep⟩ := hbuilt.derived.split hsplit'
    obtain ⟨entry, hentry, rfl⟩ := List.mem_map.mp happlies.listed
    obtain ⟨source, hsource, rfl⟩ := List.mem_map.mp (List.mem_filter.mp hentry).1
    obtain ⟨definition, hdefinition, hcapability⟩ := hview.listed source hsource
    refine ⟨definition, hdefinition, source.capability, hcapability, ?_⟩
    have hinputs : step.inputs = m.inputs := congrArg PlanStep.inputs hstep
    have hsupplied : ∀ v ∈ step.inputs, v ∈ request.ingredients.map ingredientValue ∨
        ∃ earlier ∈ done, ∃ output, v.source = .step earlier.id output ∧ earlier.outputs[output]? = some v := by
      intro v hv
      rcases hbefore.fact_source ((mem_matchRequirements.1 happlies.matched).1 v (hinputs ▸ hv)) with
        hv | ⟨earlier, hearlier, output, hfrom, hat⟩
      · exact .inl hv
      · obtain ⟨physical, hphysical, rfl⟩ := hmem hearlier
        exact .inr ⟨physical, hphysical, output, hfrom, hat⟩
    refine ⟨congrArg PlanStep.capability hstep, ?_, ?_, ?_, ?_, hsupplied, ?_⟩
    · exact attachedTarget_environment (hattached step (by rw [hsplit]; simp)).2
    · have hids := hbuilt.derived.nodup_ids
      rw [hsplit', List.map_append, List.map_cons, List.nodup_append] at hids
      intro hfresh
      obtain ⟨earlier, hearlier, heq⟩ := List.mem_map.mp hfresh
      refine hids.2.2 earlier.id ?_ step.id List.mem_cons_self heq
      exact List.mem_map_of_mem (List.mem_map_of_mem hearlier)
    · intro id hid
      have hdepends : step.dependsOn = unique (sourceSteps m.inputs) := congrArg PlanStep.dependsOn hstep
      rw [hdepends, mem_unique, mem_sourceSteps] at hid
      obtain ⟨v, hv, output, hfrom⟩ := hid
      rcases hsupplied v (hinputs ▸ hv) with hv | ⟨earlier, hearlier, output', hfrom', -⟩
      · obtain ⟨ingredient, -, rfl⟩ := List.mem_map.mp hv
        cases hfrom
      · rw [hfrom] at hfrom'
        cases hfrom'
        exact List.mem_map_of_mem hearlier
    · rw [hinputs]
      exact (List.forall₂_map_right_iff.mp (match_unifies happlies.matched)).imp fun p v h => h.unifiable
    · have houtputs : step.outputs = (planStep (placedCapability _) m _).outputs := congrArg PlanStep.outputs hstep
      rw [houtputs]
      exact planStep_produced _ m _
  · intro v hv
    rw [hresults] at hv
    rcases hbuilt.derived.fact_source (hbuilt.results v hv) with hv | ⟨step, hstep, output, hsource, hat⟩
    · exact .inl hv
    · rw [← hlogical] at hstep
      obtain ⟨physical, hphysical, rfl⟩ := hmem hstep
      exact .inr ⟨physical, hphysical, output, hsource, hat⟩
  · rw [hplannedFor, hview.principal, hview.access]

theorem planned_built {locale : Locale} {budget : ℕ}
    (h : planned locale budget environment request view = some (.ok program)) :
    PlacedFromBuilt view request.ingredients environment program := by
  unfold planned at h
  dsimp only at h
  split at h
  · obtain ⟨result, hresult, hprogram⟩ := Option.map_eq_some_iff.mp h
    obtain ⟨outcome, rfl, hok⟩ := bind_eq_ok hprogram
    cases outcome with
    | failed reason exploredInvocations => cases hok
    | ok placed exploredInvocations =>
      cases hok
      exact enrichAfterGoalsAuthorized_built hresult
  · obtain ⟨result, hresult, hprogram⟩ := Option.map_eq_some_iff.mp h
    obtain ⟨outcome, rfl, hok⟩ := bind_eq_ok hprogram
    cases outcome with
    | failed reason exploredInvocations => cases hok
    | ok placed exploredInvocations =>
      cases hok
      exact enrichAuthorized_built hresult
  · obtain ⟨result, hresult, hprogram⟩ := Option.map_eq_some_iff.mp h
    obtain ⟨outcome, rfl, hok⟩ := bind_eq_ok hprogram
    cases outcome with
    | failed unmetGoals exploredStates reason => cases hok
    | ok placed exploredStates =>
      cases hok
      exact solveAuthorized_built hresult

end Program

/-! ## The first half of a run -/

section Plan
variable {locale : Locale} {budget : ℕ} {host : ActorExecutionHost} {request : PlanRunStartRequest}
  {history : List Event}

def Listed (registry : ActorRegistrySnapshot) (found : List AuthorizedCapability) : Prop :=
  ∀ entry ∈ found, ∃ definition ∈ registry.definitions,
    entry.capability ∈ definition.capabilities

theorem authorizeCapability_listed {registry : ActorRegistrySnapshot}
    {decide : ActorAuthorizationRequest → Run ActorAuthorizationDecision}
    {definition : ActorDefinition} (hdefinition : definition ∈ registry.definitions)
    {capability : Capability} (hcapability : capability ∈ definition.capabilities)
    {principal : ActorPrincipal} {options : PlanningAuthorizationOptions}
    {found : List AuthorizedCapability} (hfound : Listed registry found) :
    Yields (authorizeCapability registry principal options decide locale definition.ref found
      capability) (Listed registry) := by
  unfold authorizeCapability
  refine (yields_any _).bind fun decision _ => ?_
  cases decision with
  | deny decisionId reasonCode => exact yields_pure hfound
  | allow decision =>
    refine (yields_any _).bind fun targets _ => (yields_any _).bind fun targets _ => ?_
    split
    · exact yields_pure hfound
    · refine yields_pure fun entry hentry => ?_
      rcases List.mem_append.mp hentry with hentry | hentry
      · exact hfound entry hentry
      · rw [List.mem_singleton.mp hentry]
        exact ⟨definition, hdefinition, hcapability⟩

theorem authorizeRegistryForPlanning_view (registry : ActorRegistrySnapshot)
    (decide : ActorAuthorizationRequest → Run ActorAuthorizationDecision) :
    Yields (authorizeRegistryForPlanning registry request.principal ⟨some request.access, [], none⟩
      decide locale) (ViewOf registry request) := by
  unfold authorizeRegistryForPlanning
  have hlisted : Listed registry [] := by simp [Listed]
  refine (yields_loop hlisted fun found definition hdefinition hfound => ?_).bind
    fun capabilities hcapabilities => yields_pure ⟨hcapabilities, rfl, rfl, rfl⟩
  exact yields_loop hfound fun found capability hcapability hfound =>
    authorizeCapability_listed hdefinition hcapability hfound

theorem planRun_yields : Yields (planRun locale budget host request) fun plan? => ∀ plan, plan? = some plan →
      assertGoalRequest request = .ok () ∧
        PlannedProgram plan.registry request host.executionEnvironment plan.program := by
  unfold planRun
  refine (yields_any _).bind fun _ _ => ?_
  refine (yields_lift fun _ hadmitted => hadmitted).bind fun _ hadmitted => ?_
  refine (yields_any _).bind fun registry _ => (yields_any _).bind fun _ _ => ?_
  refine (authorizeRegistryForPlanning_view registry _).bind fun view hview => ?_
  cases hplanned : planned locale budget host.executionEnvironment request view with
  | none => exact yields_pure (by simp)
  | some program =>
    refine (yields_lift fun program' hprogram => hprogram).bind fun program' hprogram => ?_
    refine yields_pure fun plan hplan => ?_
    cases hplan
    rw [hprogram] at hplanned
    exact ⟨hadmitted, plannedProgram_of_built hview (planned_built hplanned)⟩

end Plan

end AvenOS.Actors
