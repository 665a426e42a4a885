import AvenOS.Actors.PlannedProgram
import AvenOS.Actors.HostBehavior

/-! # What is planned can be executed

Every mode of planning builds programs whose steps, inputs and results the executor can resolve, so
with a host that behaves the run succeeds. The executor has factory targets and durable inputs only;
both are conditions. -/
namespace AvenOS.Actors
open EffectTrace ExceptLoop Text

/-! ## A whole program -/

structure WellFormedRegistry (schemaOf : String → String) (registry : ActorRegistrySnapshot) :
    Prop where
  slots : ∀ definition ∈ registry.definitions, ∀ capability ∈ definition.capabilities,
    WellFormedSlots schemaOf capability
  unambiguous : ∀ definition ∈ registry.definitions, ∀ capability ∈ definition.capabilities,
    ∀ definition' ∈ registry.definitions, ∀ capability' ∈ definition'.capabilities,
      capability.id = capability'.id → capability = capability'

/-- The programs the executor supports: factories make every actor, and artifacts are consumed. -/
structure Supported (program : PhysicalProgram) : Prop where
  factories : ∀ step ∈ program.steps, ∃ offerId factoryId configuration,
    step.target.placement = .factory offerId factoryId configuration
  durable : ∀ step ∈ program.steps, ∀ v ∈ step.inputs, Durable v

theorem capabilityFor_ok {schemaOf : String → String} {registry : ActorRegistrySnapshot}
    (hregistry : WellFormedRegistry schemaOf registry) {definition : ActorDefinition}
    (hdefinition : definition ∈ registry.definitions) {capability : Capability}
    (hcapability : capability ∈ definition.capabilities) :
    capabilityFor registry capability.id = .ok capability := by
  unfold capabilityFor
  cases hfind : registry.definitions.findSome? fun definition =>
      definition.capabilities.find? fun candidate => candidate.id == capability.id with
  | none =>
    rw [List.findSome?_eq_none_iff] at hfind
    have hnone := List.find?_eq_none.mp (hfind definition hdefinition) capability hcapability
    simp at hnone
  | some found =>
    obtain ⟨definition', hdefinition', hfound⟩ := List.exists_of_findSome?_eq_some hfind
    have hid : found.id = capability.id := by simpa using List.find?_some hfound
    rw [hregistry.unambiguous definition' hdefinition' found (List.mem_of_find?_eq_some hfound)
      definition hdefinition capability hcapability hid]

section Run
variable {schemaOf : String → String} {host : ActorExecutionHost} {request : PlanRunStartRequest}
  {plan : RunPlan} {execution : PhysicalProgramExecutionRequest}

/-- What the state of the loop has after some steps. -/
structure Advanced (schemaOf : String → String) (done : List PhysicalPlanStep)
    (progress : Progress) : Prop where
  resolvable : Resolvable schemaOf done progress.values
  completed : progress.completedStepIds = done.map fun step => step.id

variable {environment : ExecutionEnvironment} {registry : ActorRegistrySnapshot} {program : PhysicalProgram}

theorem executeStep_succeeds {ingredients : List Ingredient} {host : RuntimeHost}
    (hregistry : WellFormedRegistry schemaOf execution.registry)
    (hhost : HostBehaves schemaOf host execution.registry ingredients execution.program)
    (hparameters : PortableValue (.obj (execution.parameters.getD [])))
    (henvironment : execution.program.executionEnvironment = environment) (hsupported : Supported execution.program)
    {step : PhysicalPlanStep} (hstep : step ∈ execution.program.steps) {definition : ActorDefinition}
    (hdefinition : definition ∈ execution.registry.definitions) {capability : Capability}
    (hcapability : capability ∈ definition.capabilities) {done : List PhysicalPlanStep}
    (hplanned : PlannedStep environment ingredients done capability step) {progress : Progress}
    (hprogress : Advanced schemaOf done progress) :
    Succeeds (executeStep host execution progress step) (Advanced schemaOf (done ++ [step])) := by
  have hwell := hregistry.slots definition hdefinition capability hcapability
  obtain ⟨offerId, factoryId, configuration, hfactory⟩ := hsupported.factories step hstep
  obtain ⟨slots, hslots, hfit⟩ := hwell.inputs
  unfold executeStep
  have hadmitted : admitStep execution progress step = .ok capability := by
    unfold admitStep
    have hnone : (step.dependsOn.find? fun dependency =>
        !progress.completedStepIds.contains dependency) = none := by
      refine List.find?_eq_none.mpr fun id hid => ?_
      have hdone := hplanned.dependsOn id hid
      rw [← hprogress.completed] at hdone
      simpa using hdone
    rw [demand_true (by rw [hplanned.environment, henvironment]; simp), hnone, hplanned.named]
    exact capabilityFor_ok hregistry hdefinition hcapability
  refine (succeeds_lift (A := fun found => capability = found) hadmitted rfl).bind ?_
  rintro _ rfl
  refine (resolveValues_succeeds hhost hprogress.resolvable hplanned.supplied
    (hsupported.durable step hstep)).bind fun artifacts hcommitted => ?_
  have hvalid : validateSlots "input" capability.inputSlots capability.requires artifacts = .ok () := by
    rw [hslots]
    exact validateSlots_ok hfit hplanned.accepted hcommitted
  refine (succeeds_check hvalid).bind fun _ _ => ?_
  have hlength : slots.length = artifacts.length := by
    rw [hfit.length_eq, hplanned.accepted.length_eq, hcommitted.length_eq]
  obtain ⟨inputs, hinputs, hbound⟩ := bindInputs_ok hslots hlength
  refine (succeeds_lift (A := fun found => inputs = found) hinputs rfl).bind ?_
  rintro _ rfl
  have hportable : ∀ input ∈ inputs, input.slot ≠ "__proto__" ∧ PortableValue input.artifact.value := by
    intro input hinput
    obtain ⟨⟨slot, hslot, hname⟩, hartifact⟩ := hbound input hinput
    obtain ⟨i, hi⟩ := List.mem_iff_getElem?.mp hslot
    obtain ⟨p, -, hslot⟩ := forall₂_getElem? hfit.flip hi
    obtain ⟨j, hj⟩ := List.mem_iff_getElem?.mp hartifact
    obtain ⟨v, -, hcommits⟩ := forall₂_getElem? hcommitted hj
    exact ⟨hname ▸ hslot.named, hcommits.portable⟩
  refine (executeFactoryStep_succeeds hhost hparameters hdefinition hcapability hwell
    hplanned.named hplanned.produced hportable hstep hfactory _).bind fun outputs hdrafts => ?_
  refine (succeeds_ask fun history => hhost.publish history _).bind fun publication hpublication => ?_
  refine (succeeds_lift (A := fun values => _ = values) (admitPublication_ok hdrafts hpublication) rfl).bind ?_
  rintro _ rfl
  exact succeeds_pure ⟨hprogress.resolvable.published hplanned.fresh hdrafts hpublication,
    by simp [hprogress.completed]⟩

theorem executeSteps_succeeds {host : RuntimeHost} (hprogram : PlannedProgram registry request environment program)
    (hregistry : WellFormedRegistry schemaOf registry)
    (hhost : HostBehaves schemaOf host registry request.ingredients program)
    (hparameters : PortableValue (.obj (execution.parameters.getD []))) (hsupported : Supported program)
    (hexecution : execution.program = program) (hsnapshot : execution.registry = registry) :
    Succeeds (executeSteps host execution program.steps) (Advanced schemaOf program.steps) := by
  subst hexecution hsnapshot
  refine succeeds_loop ⟨by simp [Resolvable], rfl⟩ fun done progress step rest hsplit hprogress => ?_
  obtain ⟨definition, hdefinition, capability, hcapability, hplanned⟩ := hprogram.steps done step rest hsplit
  exact executeStep_succeeds hregistry hhost hparameters hprogram.environment hsupported
    (by rw [hsplit]; simp) hdefinition hcapability hplanned hprogress

/-- What is asked before the program and after it. -/
structure PortsAnswer (host : ActorExecutionHost) : Prop where
  connect : ∀ history port, host.connect history port = .ok ()
  resource : ∀ history, ∃ resource, host.resource history = .ok resource ∧
    PortableValue (.obj (resource.getD []))
  affordances : ∀ history, ∃ definitions, host.affordances history = .ok definitions
  relatedIngredients : ∀ history, ∃ related, host.relatedIngredients history = .ok related

/-! ## What is published -/

/-- Whatever happened before and however the program ends, it publishes these steps. -/
def PublishesSteps {α : Type} (x : Run α) (ids : List String) : Prop :=
  ∀ history, Emits x history fun _ events => publishedSteps events = ids

section Publishes
variable {α β : Type} {x : Run α} {f : α → Run β} {A : α → Prop} {ids : List String}

theorem publishesSteps_pure (a : α) : PublishesSteps (pure a) [] := fun _ => emits_pure rfl

theorem publishesSteps_throw (e : String) : PublishesSteps (.throw e : Run α) [] := fun _ => emits_throw rfl

theorem publishesSteps_lift (r : Except String α) : PublishesSteps (.lift r) [] := fun _ => emits_lift rfl

theorem publishesSteps_ask {answer : List Event → Except String α} {event : Except String α → Event}
    (h : ∀ r, (event r).quiet = true) : PublishesSteps (.ask answer event) [] :=
  fun _ => emits_ask fun r _ => publishedSteps_eq_nil (publications_quiet (by simpa using h r))

theorem PublishesSteps.bind_quiet (hx : PublishesSteps x ids) (hf : ∀ a, PublishesSteps (f a) []) :
    PublishesSteps (x >>= f) ids := by
  intro history
  refine (hx history).bind (fun a events h => ?_) fun e events h => h
  refine (hf a _).mono fun r more hmore => ?_
  rw [publishedSteps_append, h, hmore, List.append_nil]

theorem PublishesSteps.then (hx : PublishesSteps x []) (hok : Succeeds x A)
    (hf : ∀ a, A a → PublishesSteps (f a) ids) : PublishesSteps (x >>= f) ids := by
  intro history
  refine (hok.emits (hx history)).bind ?_ ?_
  · rintro a events ⟨_, ⟨⟩, hA, h⟩
    refine (hf a hA _).mono fun r more hmore => ?_
    rw [publishedSteps_append, h, hmore, List.nil_append]
  · rintro e events ⟨_, ⟨⟩, -⟩

end Publishes

theorem executeSteps_publishes {host : RuntimeHost} {A : Progress → Prop}
    {steps : List PhysicalPlanStep} (hsteps : ∀ step ∈ steps, step ∈ execution.program.steps)
    (hok : Succeeds (executeSteps host execution steps) A) (history : List Event) :
    Emits (executeSteps host execution steps) history fun r events => ∃ progress,
      r = .ok progress ∧ A progress ∧ Executed host execution steps progress events := by
  have hexecuted : Emits (executeSteps host execution steps) history fun r events =>
      ∀ progress, r = .ok progress → Executed host execution steps progress events := by
    refine emits_loop (I := fun done progress before => Executed host execution done progress before)
      (executed_start host execution) ?_ fun progress before h _ heq => by cases heq; exact h
    intro done progress before step rest hsplit hdone
    refine (executeStep_emits hdone.recorded).mono fun r events htrace => ?_
    have hnext := hdone.next (hsteps step (by rw [hsplit]; simp)) htrace
    cases r with
    | ok next => exact hnext
    | error e => simp
  refine (hok.emits hexecuted).mono ?_
  rintro r events ⟨progress, rfl, hA, h⟩
  exact ⟨progress, rfl, hA, h progress rfl⟩

/-! ## The second half of a run -/

/-- What the second half of a run relies on. -/
structure ReadyToRun (schemaOf : String → String) (host : ActorExecutionHost)
    (request : PlanRunStartRequest) (plan : RunPlan) : Prop where
  planned : PlannedProgram plan.registry request host.executionEnvironment plan.program
  registry : WellFormedRegistry schemaOf plan.registry
  behaves : HostBehaves schemaOf host.toRuntimeHost plan.registry request.ingredients plan.program
  ports : PortsAnswer host
  supported : Supported plan.program
  parameters : PortableValue (.obj request.parameters)
  tenant : request.access.tenantId ≠ some ""

def stepIds (program : PhysicalProgram) : List String := program.steps.map fun step => step.id

section
variable (h : ReadyToRun schemaOf host request plan)
include h

variable {resource : Option Record}

theorem admitRequest_ok (hresource : PortableValue (.obj (resource.getD []))) :
    admitRequest (executionRequest request plan resource) = .ok () := by
  have htenant : truthy request.access.tenantId = request.access.tenantId := by
    cases htenant : request.access.tenantId with
    | none => rfl
    | some tenantId =>
      have hne : tenantId ≠ "" := fun heq => h.tenant (by rw [htenant, heq])
      simp [truthy, hne]
  have hplannedFor := h.planned.plannedFor
  have hrevision : (executionRequest request plan resource).registry.revision =
      (executionRequest request plan resource).program.registryRevision := h.planned.revision.symm
  have hsubject : (executionRequest request plan resource).principal.subjectId =
      (executionRequest request plan resource).program.plannedFor.subjectId :=
    (congrArg PlannedFor.subjectId hplannedFor).symm
  have hsame : (executionRequest request plan resource).access.tenantId =
      (executionRequest request plan resource).program.plannedFor.tenantId :=
    ((congrArg PlannedFor.tenantId hplannedFor).trans htenant).symm
  have hparameters : assertPortableRunValue
      (.obj ((executionRequest request plan resource).parameters.getD [])) "$" = .ok () :=
    h.parameters "$"
  have hresource' : assertPortableRunValue
      (.obj ((executionRequest request plan resource).resource.getD [])) "$" = .ok () := hresource "$"
  unfold admitRequest
  rw [hparameters, hresource', demand_true (decide_eq_true hrevision),
    demand_true (decide_eq_true hsubject), demand_true (decide_eq_true hsame)]
  rfl

theorem execution_steps_succeed (resource : Option Record) : Succeeds (executeSteps host.toRuntimeHost
      (executionRequest request plan resource) plan.program.steps) (Advanced schemaOf plan.program.steps) :=
  executeSteps_succeeds h.planned h.registry h.behaves h.parameters h.supported rfl rfl

theorem executePhysicalProgram_publishes (hresource : PortableValue (.obj (resource.getD []))) :
    PublishesSteps (executePhysicalProgram host.toRuntimeHost
      (executionRequest request plan resource)) (stepIds plan.program) := by
  unfold executePhysicalProgram
  refine (publishesSteps_lift _).then (succeeds_check (admitRequest_ok h hresource)) fun _ _ => ?_
  intro history
  refine (executeSteps_publishes (fun _ hstep => hstep) (execution_steps_succeed h resource) history).bind ?_ ?_
  · rintro progress events ⟨_, ⟨⟩, -, hexecuted⟩
    refine (resolveValues_emits hexecuted.recorded _).bind ?_ ?_
    · rintro results asked ⟨hasked, -⟩
      refine emits_pure ?_
      rw [List.append_nil, publishedSteps_append, hexecuted.published,
        publishedSteps_eq_nil (publications_quiet hasked), List.append_nil]
      rfl
    · rintro e asked ⟨hasked, -⟩
      rw [publishedSteps_append, hexecuted.published,
        publishedSteps_eq_nil (publications_quiet hasked), List.append_nil]
      rfl
  · rintro e events ⟨_, ⟨⟩, -⟩

theorem executePhysicalProgram_succeeds (hdurable : ∀ v ∈ plan.program.results, Durable v)
    (hresource : PortableValue (.obj (resource.getD []))) :
    Succeeds (executePhysicalProgram host.toRuntimeHost (executionRequest request plan resource))
      fun result => result.completedStepIds = stepIds plan.program := by
  unfold executePhysicalProgram
  refine (succeeds_check (admitRequest_ok h hresource)).bind fun _ _ => ?_
  refine (execution_steps_succeed h resource).bind fun progress hprogress => ?_
  refine (resolveValues_succeeds h.behaves hprogress.resolvable h.planned.results hdurable).bind fun results _ => ?_
  exact succeeds_pure hprogress.completed

end

/-! ## The output of a run -/

variable {locale : Locale}

theorem runOutput_quiet (budget : ℕ) (view : AuthorizedRegistryView) (artifacts : List RuntimeArtifact) :
    PublishesSteps (runOutput locale budget host request view artifacts) [] := by
  unfold runOutput
  cases request.enrichment with
  | none => exact publishesSteps_pure _
  | some spec =>
    refine PublishesSteps.bind_quiet ?_ fun _ => publishesSteps_pure _
    unfold understandingOutput
    split
    · exact publishesSteps_throw _
    · refine (publishesSteps_ask fun _ => rfl).bind_quiet fun _ => ?_
      exact (publishesSteps_ask fun _ => rfl).bind_quiet fun _ => publishesSteps_pure _

theorem enrichment_subject {subject : Ingredient} {factFamilies : List String}
    (hadmitted : assertGoalRequest request = .ok ()) (h : request.enrichment = some (subject, factFamilies)) :
    ∃ artifactId, truthy subject.artifactId = some artifactId := by
  have hsubject : assertSubject request subject = .ok () := by
    unfold assertGoalRequest at hadmitted
    rw [h] at hadmitted
    dsimp only at hadmitted
    split at hadmitted <;> exact (bind_eq_ok hadmitted).choose_spec.2
  unfold assertSubject at hsubject
  obtain ⟨⟨⟩, hsome, -⟩ := bind_eq_ok hsubject
  exact Option.isSome_iff_exists.mp (demand_ok hsome)

theorem runOutput_succeeds (hports : PortsAnswer host) (hadmitted : assertGoalRequest request = .ok ())
    (view : AuthorizedRegistryView) (artifacts : List RuntimeArtifact) :
    SucceedsEventually (fun budget => runOutput locale budget host request view artifacts) fun _ => True := by
  unfold runOutput
  cases henrichment : request.enrichment with
  | none => exact fun history => ⟨0, fun _ _ => ⟨none, history, rfl, trivial⟩⟩
  | some spec =>
    obtain ⟨subject, factFamilies⟩ := spec
    obtain ⟨artifactId, hid⟩ := enrichment_subject hadmitted henrichment
    refine SucceedsEventually.map_some (A := fun _ => True) (g := some) ?_ fun _ _ => trivial
    simp only [understandingOutput, hid]
    refine Succeeds.bind_eventually (A := fun _ => True) (succeeds_ask fun history => ?_) fun definitions _ => ?_
    · obtain ⟨definitions, hdefinitions⟩ := hports.affordances history
      exact ⟨definitions, hdefinitions, trivial⟩
    refine Succeeds.bind_eventually (A := fun _ => True) (succeeds_ask fun history => ?_) fun related _ => ?_
    · obtain ⟨related, hrelated⟩ := hports.relatedIngredients history
      exact ⟨related, hrelated, trivial⟩
    obtain ⟨enough, henough⟩ := discoverAffordances_returns locale (uniqueIngredients ((request.ingredients ++
        artifacts.map fun artifact => ⟨artifact.predicate, some artifact.artifactId⟩) ++ related))
      ((view.capabilities.filter fun entry => entry.targets.any fun target =>
        target.executionEnvironment = host.executionEnvironment).map AuthorizedCapability.capability)
      definitions
    refine eventually_pure ⟨enough, fun budget hbudget => ?_⟩
    rw [Option.isSome_map]
    exact henough budget hbudget

/-! ## The whole run -/

theorem reportIdle_publishes (h : plan.program.steps = []) (budget : ℕ) :
    PublishesSteps (reportIdle locale budget host request plan) (stepIds plan.program) := by
  rw [stepIds, h]
  exact (runOutput_quiet budget _ _).bind_quiet fun _ => publishesSteps_pure _

theorem executeRun_publishes (h : ReadyToRun schemaOf host request plan) (budget : ℕ) :
    PublishesSteps (executeRun locale budget host request plan) (stepIds plan.program) := by
  unfold executeRun
  have hconnect : ∀ port, Succeeds (host.askConnect port) fun _ => True := fun port =>
    succeeds_ask fun history => ⟨(), h.ports.connect history port, trivial⟩
  have hquiet : ∀ port, PublishesSteps (host.askConnect port) [] := fun port =>
    publishesSteps_ask fun _ => rfl
  refine (hquiet _).then (hconnect _) fun _ _ => (hquiet _).then (hconnect _) fun _ _ => ?_
  refine (publishesSteps_ask fun _ => rfl).then (succeeds_ask h.ports.resource) fun resource hresource => ?_
  refine (executePhysicalProgram_publishes h hresource).bind_quiet fun result => ?_
  exact (runOutput_quiet budget _ _).bind_quiet fun _ => publishesSteps_pure _

def Reports (program : PhysicalProgram) (result : PlanRunExecutionResult) : Prop :=
  result.completedStepIds = stepIds program

theorem reportIdle_succeeds (hports : PortsAnswer host)
    (hadmitted : assertGoalRequest request = .ok ()) (h : plan.program.steps = []) :
    SucceedsEventually (fun budget => reportIdle locale budget host request plan) (Reports plan.program) :=
  (runOutput_succeeds hports hadmitted plan.view []).map_some fun _ _ => by
    simp [Reports, stepIds, h]

theorem executeRun_succeeds (h : ReadyToRun schemaOf host request plan)
    (hadmitted : assertGoalRequest request = .ok ()) (hdurable : ∀ v ∈ plan.program.results, Durable v) :
    SucceedsEventually (fun budget => executeRun locale budget host request plan) (Reports plan.program) := by
  unfold executeRun
  have hconnect : ∀ port, Succeeds (host.askConnect port) fun _ => True := fun port =>
    succeeds_ask fun history => ⟨(), h.ports.connect history port, trivial⟩
  refine (hconnect .factories).bind_eventually fun _ _ => ?_
  refine (hconnect .artifacts).bind_eventually fun _ _ => ?_
  refine Succeeds.bind_eventually (succeeds_ask h.ports.resource) fun resource hresource => ?_
  refine (executePhysicalProgram_succeeds h hdurable hresource).bind_eventually fun result hresult => ?_
  exact (runOutput_succeeds h.ports hadmitted plan.view result.artifacts).map_some fun _ _ => hresult

theorem PlannedProgram.nodup_stepIds (h : PlannedProgram registry request environment program) :
    (stepIds program).Nodup := by
  have hprefix : ∀ done rest, program.steps = done ++ rest → (done.map fun step => step.id).Nodup := by
    intro done
    induction done using List.reverseRecOn with
    | nil => exact fun _ _ => List.nodup_nil
    | append_singleton done step ih =>
      intro rest hsplit
      have hsplit' : program.steps = done ++ step :: rest := by simpa using hsplit
      obtain ⟨_, _, _, _, hplanned⟩ := h.steps done step rest hsplit'
      rw [List.map_append, List.map_singleton, List.nodup_append]
      refine ⟨ih _ hsplit', List.nodup_singleton _, ?_⟩
      rintro a ha b hb rfl
      rw [List.mem_singleton.mp hb] at ha
      exact hplanned.fresh ha
  exact hprefix _ [] (List.append_nil _).symm

theorem createActorPlanExecutor_planned {budget : ℕ} {history before : List Event}
    (hplan : planRun locale budget host request history = (.ok (some plan), before)) (affordanceBudget : ℕ) :
    createActorPlanExecutor locale budget affordanceBudget host request history =
      (if plan.program.steps.isEmpty then reportIdle locale affordanceBudget host request plan
        else executeRun locale affordanceBudget host request plan) before := by
  unfold createActorPlanExecutor
  rw [bind_run, hplan]

/-- What is planned is published, every step once, and reported if its results are artifacts. -/
theorem createActorPlanExecutor_agrees {budget : ℕ} {history before : List Event}
    (hplan : planRun locale budget host request history = (.ok (some plan), before))
    (hregistry : WellFormedRegistry schemaOf plan.registry)
    (hhost : HostBehaves schemaOf host.toRuntimeHost plan.registry request.ingredients plan.program)
    (hports : PortsAnswer host) (hsupported : Supported plan.program)
    (hparameters : PortableValue (.obj request.parameters)) (htenant : request.access.tenantId ≠ some "") :
    (stepIds plan.program).Nodup ∧ (∀ affordanceBudget, ∃ events,
      (createActorPlanExecutor locale budget affordanceBudget host request history).2 =
        before ++ events ∧ publishedSteps events = stepIds plan.program) ∧
    ((plan.program.steps = [] ∨ ∀ v ∈ plan.program.results, Durable v) →
      ∃ enough, ∀ affordanceBudget ≥ enough, ∃ result,
        (createActorPlanExecutor locale budget affordanceBudget host request history).1 =
          .ok (some result) ∧ result.completedStepIds = stepIds plan.program) := by
  obtain ⟨hadmitted, hplanned⟩ := planRun_yields _ _ _ hplan plan rfl
  have hready : ReadyToRun schemaOf host request plan :=
    ⟨hplanned, hregistry, hhost, hports, hsupported, hparameters, htenant⟩
  refine ⟨hplanned.nodup_stepIds, fun affordanceBudget => ?_, fun hdurable => ?_⟩
  · rw [createActorPlanExecutor_planned hplan]
    by_cases hsteps : plan.program.steps.isEmpty = true
    · rw [if_pos hsteps]
      exact reportIdle_publishes (List.isEmpty_iff.mp hsteps) affordanceBudget before
    · rw [if_neg hsteps]
      exact executeRun_publishes hready affordanceBudget before
  · have heventually : SucceedsEventually (fun affordanceBudget =>
        if plan.program.steps.isEmpty then reportIdle locale affordanceBudget host request plan
        else executeRun locale affordanceBudget host request plan) (Reports plan.program) := by
      by_cases hsteps : plan.program.steps.isEmpty = true
      · simp only [if_pos hsteps]
        exact reportIdle_succeeds hports hadmitted (List.isEmpty_iff.mp hsteps)
      · simp only [if_neg hsteps]
        refine executeRun_succeeds hready hadmitted (hdurable.resolve_left fun hnil => ?_)
        exact hsteps (List.isEmpty_iff.mpr hnil)
    obtain ⟨enough, henough⟩ := heventually before
    refine ⟨enough, fun affordanceBudget hbudget => ?_⟩
    obtain ⟨result, after, hrun, hreports⟩ := henough affordanceBudget hbudget
    refine ⟨result, ?_, hreports⟩
    rw [createActorPlanExecutor_planned hplan]
    exact congrArg Prod.fst hrun

end Run

/-! ## A mail that is relayed -/

def relaySlot (name : String) : CapabilitySlot := ⟨name, name, some "text", none, .one⟩

def relayCapability (id : String) (requires produces : List Predicate) : Capability :=
  ⟨id, "relay", "relay", requires, produces, none, none, none, some (requires.map relaySlot),
    some (produces.map relaySlot)⟩

def relaySnapshot : ActorRegistrySnapshot :=
  ⟨1, "now", [⟨"relay", [relayCapability "send" ["note"] ["mail"]]⟩], [],
    [⟨"offer", "factory", "relay", ["send"], .server, none, none, none⟩]⟩

def relayActor : SpawnedActor :=
  ⟨"actor", ⟨"instance", "relay", ["send"], .available, .server, none, none, none⟩⟩

def relayArtifact (artifactId : String) (predicate : Predicate) : RuntimeArtifact :=
  ⟨artifactId, predicate, "text", "text", 1, "digest", .null⟩

/-- Everything is allowed, and every answer is the promised one. -/
def relayHost (snapshot : ActorRegistrySnapshot) : ActorExecutionHost where
  resolveFactory := fun _ factoryId =>
    .ok (some ⟨"offer", factoryId, "relay", ["send"], .server, none, none, none⟩)
  decide := fun _ _ => .ok (.allow ⟨"decision", none⟩)
  assess := fun _ query => .ok (.admitted ⟨"admission", query.requestedCapabilities, []⟩)
  spawn := fun _ _ _ => .ok relayActor
  deliver := fun _ _ _ _ =>
    .ok ⟨.ok (.obj [("ok", .bool true), ("outputs", .obj [("mail", .null)])]), ""⟩
  release := fun _ _ => .ok ()
  resolve := fun _ artifactId expected => .ok (some (relayArtifact artifactId expected))
  publish := fun _ publication =>
    .ok (publication.outputs.map fun draft => { relayArtifact "published" draft.predicate with
      schema := draft.schema })
  earliest := fun _ => 0
  text := fun _ => ""
  executionEnvironment := .server
  registry := fun _ => .ok snapshot
  connect := fun _ _ => .ok ()
  resource := fun _ => .ok none
  affordances := fun _ => .ok []
  relatedIngredients := fun _ => .ok []

def relayRequest (ingredients : List Ingredient) (goals : List Predicate) : PlanRunStartRequest :=
  ⟨"run", .server, ingredients, goals, none, [], ⟨"alice", .user, [], none⟩, .empty⟩

/-- What the host has to know of a plan. -/
structure PlanSummary where
  definitions : List ActorDefinition
  targets : List (String × String × Option String)
  inputs : List (List PlanValue)
  results : List PlanValue
  environment : ExecutionEnvironment
deriving DecidableEq

def offerOf : Placement → Option String
  | .materialized _ => none
  | .factory offerId _ _ => some offerId

def RunPlan.summary (plan : RunPlan) : PlanSummary :=
  { definitions := plan.registry.definitions
    targets := plan.program.steps.map fun step =>
      (step.capability, step.target.definitionRef, offerOf step.target.placement)
    inputs := plan.program.steps.map fun step => step.inputs
    results := plan.program.results
    environment := plan.program.executionEnvironment }

def planSummary (host : ActorExecutionHost) (request : PlanRunStartRequest) : Option PlanSummary :=
  match planRun .plain 20 host request [] with
  | (.ok (some plan), _) => some plan.summary
  | _ => none

variable {request : PlanRunStartRequest}

theorem planned_of_summary {host : ActorExecutionHost} {summary : PlanSummary}
    (h : planSummary host request = some summary) :
    ∃ plan before, planRun .plain 20 host request [] = (.ok (some plan), before) ∧ plan.summary = summary := by
  unfold planSummary at h
  split at h
  · rename_i plan before hplan
    exact ⟨plan, before, hplan, Option.some.inj h⟩
  · cases h

section Relay
variable {snapshot : ActorRegistrySnapshot} {request : PlanRunStartRequest} {plan : RunPlan}

def textSchema : String → String := fun _ => "text"

theorem relaySlot_wellFormed {p : Predicate} (hblank : trim p ≠ "") (hproto : p ≠ "__proto__") :
    WellFormedSlot textSchema (relaySlot p) p :=
  ⟨rfl, rfl, by simp [textSchema], hblank, fun _ h => h, hproto⟩

theorem relayHost_ports : PortsAnswer (relayHost snapshot) :=
  ⟨fun _ _ => rfl, fun _ => ⟨none, rfl, portable_obj (by simp)⟩, fun _ => ⟨[], rfl⟩, fun _ => ⟨[], rfl⟩⟩

theorem relay_wellFormed (h : plan.summary.definitions = relaySnapshot.definitions) :
    WellFormedRegistry textSchema plan.registry := by
  have hdefinitions : plan.registry.definitions = relaySnapshot.definitions := h
  constructor
  · rw [hdefinitions]
    simp only [relaySnapshot, List.forall_mem_singleton]
    exact ⟨⟨_, rfl, .cons (relaySlot_wellFormed (by decide) (by decide)) .nil⟩,
      ⟨_, rfl, .cons (relaySlot_wellFormed (by decide) (by decide)) .nil⟩⟩
  · rw [hdefinitions]
    decide

theorem relayHost_behaves (hdefinitions : plan.summary.definitions = relaySnapshot.definitions)
    (htargets : ∀ target ∈ plan.summary.targets, target.1 = "send" ∧ target.2.1 = "relay" ∧
      ∀ offerId ∈ target.2.2, offerId = "offer") (henvironment : plan.summary.environment = .server) :
    HostBehaves textSchema (relayHost snapshot).toRuntimeHost plan.registry request.ingredients
      plan.program := by
  have htarget : ∀ step ∈ plan.program.steps, step.capability = "send" ∧
      step.target.definitionRef = "relay" ∧ ∀ offerId factoryId configuration,
        step.target.placement = .factory offerId factoryId configuration → offerId = "offer" := by
    intro step hstep
    obtain ⟨hcapability, href, hoffer⟩ := htargets _ (List.mem_map_of_mem hstep)
    refine ⟨hcapability, href, fun offerId factoryId configuration hplacement => ?_⟩
    exact hoffer offerId (by rw [hplacement]; rfl)
  have hartifact : ∀ artifactId p, Commits textSchema (relayArtifact artifactId p) p :=
    fun _ _ => ⟨fun _ h => h, rfl, fun _ => rfl⟩
  refine ⟨fun _ _ _ => ⟨_, rfl⟩, ?_, fun _ _ => ⟨_, rfl, fun _ h => h, portable_obj (by simp)⟩, ?_, ?_,
    fun _ _ => rfl, fun _ ingredient _ artifactId _ => ⟨_, rfl, hartifact artifactId _⟩, ?_⟩
  · intro history step hstep offerId factoryId configuration hplacement
    exact ⟨_, rfl, ((htarget step hstep).2.2 _ _ _ hplacement).symm⟩
  · intro history query admission step hstep offerId factoryId configuration _ _ _
    obtain ⟨hcapability, href, -⟩ := htarget step hstep
    have hserver : plan.program.executionEnvironment = .server := henvironment
    exact ⟨relayActor, rfl, href.symm, hserver.symm, by simp [hcapability, relayActor]⟩
  · intro history actor payload definition hdefinition capability hcapability _ method
    have hdefinitions' : plan.registry.definitions = relaySnapshot.definitions := hdefinitions
    rw [hdefinitions'] at hdefinition
    simp only [relaySnapshot, List.mem_singleton] at hdefinition
    subst hdefinition
    rw [List.mem_singleton.mp hcapability]
    refine ⟨_, rfl, [("ok", .bool true), ("outputs", .obj [("mail", .null)])], [("mail", .null)], [],
      rfl, rfl, rfl, rfl, fun _ => rfl, ?_⟩
    rintro slots ⟨⟩
    simp [relaySlot]
  · intro history publication
    refine ⟨_, rfl, List.forall₂_map_right_iff.mpr (List.forall₂_same.mpr fun draft _ => ?_)⟩
    exact ⟨fun _ h => h, rfl, fun _ => rfl⟩

theorem supported_of_summary (hoffers : ∀ target ∈ plan.summary.targets, target.2.2.isSome = true)
    (hinputs : ∀ inputs ∈ plan.summary.inputs, ∀ v ∈ inputs, ∀ artifactId,
      v.source = .ingredient artifactId → (truthy artifactId).isSome = true) : Supported plan.program := by
  constructor
  · intro step hstep
    have hoffer := hoffers _ (List.mem_map_of_mem hstep)
    cases hplacement : step.target.placement with
    | materialized instanceId =>
      rw [hplacement] at hoffer
      cases hoffer
    | factory offerId factoryId configuration => exact ⟨_, _, _, rfl⟩
  · exact fun step hstep => hinputs _ (List.mem_map_of_mem hstep)

end Relay

def relaySummary : PlanSummary :=
  ⟨relaySnapshot.definitions, [("send", "relay", some "offer")],
    [[⟨"note", .ingredient (some "a1")⟩]], [⟨"mail", .step "step-1" 0⟩], .server⟩

theorem relay_planned : planSummary (relayHost relaySnapshot)
    (relayRequest [⟨"note", some "a1"⟩] ["mail"]) = some relaySummary := by decide +kernel

theorem createActorPlanExecutor_agrees_relay : ∃ plan before, planRun .plain 20 (relayHost relaySnapshot)
        (relayRequest [⟨"note", some "a1"⟩] ["mail"]) [] = (.ok (some plan), before) ∧
      (stepIds plan.program).Nodup ∧ (∀ affordanceBudget, ∃ events,
        (createActorPlanExecutor .plain 20 affordanceBudget (relayHost relaySnapshot)
          (relayRequest [⟨"note", some "a1"⟩] ["mail"]) []).2 = before ++ events ∧
          publishedSteps events = stepIds plan.program) ∧
      ((plan.program.steps = [] ∨ ∀ v ∈ plan.program.results, Durable v) →
        ∃ enough, ∀ affordanceBudget ≥ enough, ∃ result,
          (createActorPlanExecutor .plain 20 affordanceBudget (relayHost relaySnapshot)
            (relayRequest [⟨"note", some "a1"⟩] ["mail"]) []).1 = .ok (some result) ∧
            result.completedStepIds = stepIds plan.program) := by
  obtain ⟨plan, before, hplan, hsummary⟩ := planned_of_summary relay_planned
  have hdefinitions : plan.summary.definitions = relaySnapshot.definitions := by
    rw [hsummary]
    rfl
  have henvironment : plan.summary.environment = .server := by
    rw [hsummary]
    rfl
  refine ⟨plan, before, hplan, createActorPlanExecutor_agrees hplan
    (relay_wellFormed hdefinitions) (relayHost_behaves hdefinitions ?_ henvironment)
    relayHost_ports (supported_of_summary ?_ ?_) (portable_obj (by simp [relayRequest])) (by decide)⟩
  all_goals
    rw [hsummary]
    simp [relaySummary, truthy]

/-! ## What is not supported -/

def runOutcome (host : ActorExecutionHost) (request : PlanRunStartRequest) :
    Option String × List String :=
  match createActorPlanExecutor .plain 20 20 host request [] with
  | (.error e, events) => (some e, publishedSteps events)
  | (.ok _, events) => (none, publishedSteps events)

def RefusesPlanned (host : ActorExecutionHost) (request : PlanRunStartRequest) (complaint : String)
    (published : List String) : Prop :=
  ∃ plan before, planRun .plain 20 host request [] = (.ok (some plan), before) ∧
    WellFormedRegistry textSchema plan.registry ∧
    HostBehaves textSchema host.toRuntimeHost plan.registry request.ingredients plan.program ∧
    PortsAnswer host ∧ runOutcome host request = (some complaint, published)

/-- Only an actor that runs already. -/
def residentSnapshot : ActorRegistrySnapshot :=
  { relaySnapshot with offers := [], instances := [relayActor.advertisement] }

/-- Another definition whose capability has the same id. -/
def sharedSnapshot : ActorRegistrySnapshot :=
  { relaySnapshot with
    definitions := relaySnapshot.definitions ++
      [⟨"fax", [relayCapability "send" ["letter"] ["mail"]]⟩]
    offers := [⟨"offer", "factory", "fax", ["send"], .server, none, none, none⟩] }

/-- A resolver that answers with an artifact of its own choice. -/
def looseHost : ActorExecutionHost :=
  { relayHost { relaySnapshot with
      definitions := [⟨"relay", [relayCapability "send" ["note(a)"] ["mail"]]⟩] } with
    resolve := fun _ artifactId _ => .ok (some (relayArtifact artifactId "note(b)")) }

theorem refuses_of_summary {snapshot : ActorRegistrySnapshot} {s : PlanSummary} {complaint : String}
    {published : List String} (hplanned : planSummary (relayHost snapshot) request = some s)
    (hdefinitions : s.definitions = relaySnapshot.definitions)
    (htargets : ∀ target ∈ s.targets, target.1 = "send" ∧ target.2.1 = "relay" ∧
      ∀ offerId ∈ target.2.2, offerId = "offer") (henvironment : s.environment = .server)
    (houtcome : runOutcome (relayHost snapshot) request = (some complaint, published)) :
    RefusesPlanned (relayHost snapshot) request complaint published := by
  obtain ⟨plan, before, hplan, rfl⟩ := planned_of_summary hplanned
  exact ⟨plan, before, hplan, relay_wellFormed hdefinitions,
    relayHost_behaves hdefinitions htargets henvironment, relayHost_ports, houtcome⟩

/-- The failures of the executor that are not a matter of how the host behaves. -/
theorem planned_runs_refused :
    RefusesPlanned (relayHost relaySnapshot) (relayRequest [⟨"note", none⟩] ["mail"])
      "ingredient note has no artifact" [] ∧
    RefusesPlanned (relayHost relaySnapshot)
      (relayRequest [⟨"note", some "a1"⟩, ⟨"badge", none⟩] ["mail", "badge"])
      "ingredient badge has no artifact" ["step-1"] ∧
    RefusesPlanned (relayHost residentSnapshot) (relayRequest [⟨"note", some "a1"⟩] ["mail"])
      "executor slice requires a factory target for send" [] ∧
    RefusesPlanned (relayHost relaySnapshot)
      { relayRequest [⟨"note", some "a1"⟩] ["mail"] with access := ⟨some "", none, none⟩ }
      "execution tenant does not match the physical plan" [] ∧
    runOutcome (relayHost sharedSnapshot) (relayRequest [⟨"letter", some "a1"⟩] ["mail"]) =
      (some "input slot note does not accept letter", []) ∧
    runOutcome looseHost (relayRequest [⟨"note(X)", some "a1"⟩] ["mail"]) =
      (some "input slot note(a) does not accept note(b)", []) := by
  refine ⟨?_, ?_, ?_, ?_, by decide +kernel, by decide +kernel⟩
  · exact refuses_of_summary (s := { relaySummary with inputs := [[⟨"note", .ingredient none⟩]] })
      (by decide +kernel) rfl (by simp [relaySummary]) rfl (by decide +kernel)
  · exact refuses_of_summary (s := { relaySummary with
        results := [⟨"mail", .step "step-1" 0⟩, ⟨"badge", .ingredient none⟩] })
      (by decide +kernel) rfl (by simp [relaySummary]) rfl (by decide +kernel)
  · exact refuses_of_summary (s := { relaySummary with targets := [("send", "relay", none)] })
      (by decide +kernel) rfl (by simp) rfl (by decide +kernel)
  · exact refuses_of_summary (s := relaySummary)
      (by decide +kernel) rfl (by simp [relaySummary]) rfl (by decide +kernel)

end AvenOS.Actors
