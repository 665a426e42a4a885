import AvenOS.Actors.Executor

/-! # No publication without its gate

The events of a run, whatever the host answers or throws: one gate before each publication, every
spawned actor released once and before anything is published, and the published steps are a prefix of
the program. -/
namespace AvenOS.Actors
open EffectTrace ExceptLoop Text

/-! ## Reading a trace -/

def Event.quiet : Event → Bool
  | .spawn _ _ (.ok _) => false
  | .release _ _ => false
  | .publish _ _ => false
  | _ => true

/-- The actor that is alive after an event; nothing is made or published while one is, and only that
one is released. -/
def lifeStep (alive : Option SpawnedActor) : Event → Option (Option SpawnedActor)
  | .spawn _ _ (.ok actor) => if alive = none then some (some actor) else none
  | .release actor _ => if alive = some actor then some none else none
  | .publish _ _ => if alive = none then some none else none
  | _ => some alive

/-- Every actor is released once, before the next is made and before anything is published. -/
def Released (events : List Event) : Prop := events.foldlM lifeStep none = some none

def publications (events : List Event) : List RuntimeStepPublication :=
  events.filterMap fun
    | .publish publication _ => some publication
    | _ => none

def publishedSteps (events : List Event) : List String :=
  events.filterMap fun
    | .publish publication (.ok _) => some publication.stepId
    | _ => none

section Trace
variable {a b events : List Event}

theorem publications_append : publications (a ++ b) = publications a ++ publications b := List.filterMap_append

theorem publishedSteps_append : publishedSteps (a ++ b) = publishedSteps a ++ publishedSteps b := List.filterMap_append

theorem Released.append (ha : Released a) (hb : Released b) : Released (a ++ b) := by
  unfold Released at ha hb ⊢
  rw [List.foldlM_append, ha]
  exact hb

variable {alive : Option SpawnedActor}

theorem lifeStep_quiet {e : Event} (h : e.quiet = true) : lifeStep alive e = some alive := by
  cases e with
  | spawn request admission answer => cases answer <;> first | rfl | cases h
  | _ => first | rfl | cases h

theorem lifeSteps_quiet (h : ∀ e ∈ events, e.quiet = true) : events.foldlM lifeStep alive = some alive := by
  induction events with
  | nil => rfl
  | cons e events ih =>
    rw [List.foldlM_cons, lifeStep_quiet (h e List.mem_cons_self)]
    exact ih fun e he => h e (List.mem_cons_of_mem _ he)

theorem Released.quiet (h : ∀ e ∈ events, e.quiet = true) : Released events := lifeSteps_quiet h

theorem publications_quiet (h : ∀ e ∈ events, e.quiet = true) : publications events = [] := by
  refine List.filterMap_eq_nil_iff.mpr fun e he => ?_
  have hquiet := h e he
  cases e <;> first | rfl | cases hquiet

theorem released_life {request : ActorSpawnRequest} {admission : ActorAdmission}
    {actor : SpawnedActor} {answer : Except String Unit} (ha : ∀ e ∈ a, e.quiet = true)
    (hb : ∀ e ∈ b, e.quiet = true) :
    Released (a ++ .spawn request admission (.ok actor) :: (b ++ [.release actor answer])) ∧
      publications (a ++ .spawn request admission (.ok actor) :: (b ++ [.release actor answer])) = [] := by
  constructor
  · refine (Released.quiet ha).append ?_
    change (b ++ [Event.release actor answer]).foldlM lifeStep (some actor) = some none
    rw [List.foldlM_append, lifeSteps_quiet hb]
    simp [lifeStep]
  · rw [publications_append, publications_quiet ha, List.nil_append]
    change publications (b ++ [.release actor answer]) = []
    rw [publications_append, publications_quiet hb]
    rfl

theorem publishedSteps_eq_nil (h : publications events = []) : publishedSteps events = [] := by
  refine List.filterMap_eq_nil_iff.mpr fun e he => ?_
  have hnone := List.filterMap_eq_nil_iff.mp h e he
  cases e <;> first | rfl | cases hnone

end Trace

/-! ## The gate of a publication -/

/-- What was decided and answered on the way to one publication. -/
structure Gate where
  capability : Capability
  artifacts : List RuntimeArtifact
  inputs : List RuntimeInputBinding
  offerId : String
  factoryId : String
  configuration : Record
  offer : ActorFactoryOffer
  spawnDecision : AllowedDecision
  admission : ActorAdmission
  spawned : SpawnedActor
  invokeDecision : AllowedDecision
  response : HandlerResult
  result : ActorStepResult
  drafts : List RuntimeOutputDraft

section Gate
variable (request : PhysicalProgramExecutionRequest) (step : PhysicalPlanStep) (gate : Gate)

def Gate.spawnQuery : ActorSpawnRequest :=
  spawnRequest request step gate.inputs gate.offerId
    (spread gate.configuration (gate.spawnDecision.forcedConfiguration.getD []))

/-- An allowed spawn, an admission, a spawn, an allowed invocation, an answer, a release. -/
def Gate.events : List Event :=
  [.resolveFactory gate.factoryId (.ok (some gate.offer)),
    .decide (stepQuery request step gate.inputs .spawn (.factory gate.offerId gate.factoryId)
      gate.configuration) (.ok (.allow gate.spawnDecision)),
    .assess (gate.spawnQuery request step) (.ok (.admitted gate.admission)),
    .spawn (gate.spawnQuery request step) gate.admission (.ok gate.spawned),
    .decide (stepQuery request step gate.inputs .invoke
      (.materialized gate.spawned.advertisement.instanceId) gate.admission.normalizedConfiguration)
      (.ok (.allow gate.invokeDecision)),
    .deliver gate.spawned step.method
      (stepPayload request step gate.inputs gate.admission.normalizedConfiguration)
      (.ok gate.response),
    .release gate.spawned (.ok ())]

def Gate.publication : RuntimeStepPublication :=
  stepPublication request step gate.inputs gate.drafts

end Gate

/-- Where an input comes from: the resolver's answer, or an output that was published. -/
def ResolvedBy (earlier : List Event) (value : PlanValue) (artifact : RuntimeArtifact) : Prop :=
  match value.source with
  | .ingredient artifactId => ∃ id, truthy artifactId = some id ∧
      .resolve id value.predicate (.ok (some artifact)) ∈ earlier
  | .step stepId output => ∃ publication answer, .publish publication (.ok answer) ∈ earlier ∧
      publication.stepId = stepId ∧ answer[output]? = some artifact

/-- The checks between the events of a gate. -/
structure Gate.Opened (host : RuntimeHost) (request : PhysicalProgramExecutionRequest)
    (step : PhysicalPlanStep) (gate : Gate) : Prop where
  target : step.target.placement = .factory gate.offerId gate.factoryId gate.configuration
  offered : gate.offer.offerId = gate.offerId
  granted : step.capability ∈ gate.admission.grantedCapabilities
  spawned : gate.spawned.advertisement.definitionRef = step.target.definitionRef ∧
    gate.spawned.advertisement.executionEnvironment = request.program.executionEnvironment ∧
    step.capability ∈ gate.spawned.advertisement.capabilityIds
  answered : parseActorStepResult host.text gate.response = .ok gate.result
  drafted : outputDrafts gate.capability step gate.result = .ok gate.drafts

/-- The gate opened for the inputs of the step, and the answer covers the declared outputs. -/
structure Gate.Passed (host : RuntimeHost) (request : PhysicalProgramExecutionRequest)
    (step : PhysicalPlanStep) (earlier : List Event) (gate : Gate) : Prop
    extends gate.Opened host request step where
  capability : capabilityFor request.registry step.capability = .ok gate.capability
  resolved : List.Forall₂ (ResolvedBy earlier) step.inputs gate.artifacts
  bound : bindInputs gate.capability gate.artifacts = .ok gate.inputs
  /-- A name that every object answers to is covered by any answer. -/
  covered : ∀ slot ∈ gate.capability.outputSlots.getD [], slot.name ∉ inheritedNames →
    ∃ value, gate.result.outputs.lookup slot.name = some value

def Gated (host : RuntimeHost) (request : PhysicalProgramExecutionRequest) (events : List Event) :
    Prop :=
  ∀ before publication answer, before ++ [.publish publication answer] <+: events →
    ∃ step ∈ request.program.steps, ∃ earlier, ∃ gate : Gate,
      before = earlier ++ gate.events request step ∧
        publication = gate.publication request step ∧ gate.Passed host request step earlier

/-! ## What one step emits -/

theorem demand_ok {condition : Bool} {complaint : String} (h : demand condition complaint = .ok ()) :
    condition = true := by
  cases condition with
  | true => rfl
  | false => cases h

section Step
variable {host : RuntimeHost} {request : PhysicalProgramExecutionRequest} {step : PhysicalPlanStep}
  {inputs : List RuntimeInputBinding} {history : List Event}

theorem askAllowed_emits (query : ActorAuthorizationRequest) (refusal : String) :
    Emits (askAllowed host query refusal) history fun r events => (∀ e ∈ events, e.quiet = true) ∧
        ∀ decision, r = .ok decision → events = [.decide query (.ok (.allow decision))] := by
  unfold askAllowed
  refine emits_ask_bind (fun answer => ?_) fun e => ⟨by simp [Event.quiet], by simp⟩
  cases answer with
  | deny decisionId reasonCode => exact emits_throw ⟨by simp [Event.quiet], by simp⟩
  | allow decision =>
    refine emits_pure ⟨by simp [Event.quiet], ?_⟩
    intro decision' h
    cases h
    rfl

theorem askAdmitted_emits (query : ActorSpawnRequest) :
    Emits (askAdmitted host step query) history fun r events => (∀ e ∈ events, e.quiet = true) ∧
        ∀ admission, r = .ok admission → events = [.assess query (.ok (.admitted admission))] ∧
          step.capability ∈ admission.grantedCapabilities := by
  unfold askAdmitted
  refine emits_ask_bind (fun answer => ?_) fun e => ⟨by simp [Event.quiet], by simp⟩
  cases answer with
  | denied decisionId reasonCode => exact emits_throw ⟨by simp [Event.quiet], by simp⟩
  | admitted admission =>
    refine emits_lift_bind (fun _ hgranted => ?_) fun e _ => ⟨by simp [Event.quiet], by simp⟩
    refine emits_pure ⟨by simp [Event.quiet], ?_⟩
    intro admission' h
    cases h
    exact ⟨rfl, by simpa using demand_ok hgranted⟩

theorem invokeSpawned_emits (capability : Capability) (admission : ActorAdmission)
    (decisions : List String) (spawned : SpawnedActor) :
    Emits (invokeSpawned host request step inputs capability admission decisions spawned) history
      fun r events => (∀ e ∈ events, e.quiet = true) ∧ ∀ outputs, r = .ok outputs →
          (spawned.advertisement.definitionRef = step.target.definitionRef ∧
            spawned.advertisement.executionEnvironment = request.program.executionEnvironment ∧
            step.capability ∈ spawned.advertisement.capabilityIds) ∧ ∃ decision response result,
            events = [.decide (stepQuery request step inputs .invoke
                (.materialized spawned.advertisement.instanceId) admission.normalizedConfiguration)
                (.ok (.allow decision)), .deliver spawned step.method
                (stepPayload request step inputs admission.normalizedConfiguration) (.ok response)] ∧
            parseActorStepResult host.text response = .ok result ∧
            outputDrafts capability step result = .ok outputs.drafts := by
  unfold invokeSpawned
  refine emits_lift_bind (fun _ hspawned => ?_) fun e _ => ⟨by simp, by simp⟩
  refine (askAllowed_emits _ _).bind ?_ fun e events h => ⟨h.1, by simp⟩
  rintro decision events ⟨-, hdecision⟩
  cases hdecision decision rfl
  refine emits_lift_bind (fun _ _ => ?_) fun e _ => ⟨by simp [Event.quiet], by simp⟩
  refine emits_ask_bind (fun response => ?_) fun e => ⟨by simp [Event.quiet], by simp⟩
  refine emits_lift_bind (fun result hresult => ?_) fun e _ => ⟨by simp [Event.quiet], by simp⟩
  refine emits_lift_bind (fun drafts hdrafts => ?_) fun e _ => ⟨by simp [Event.quiet], by simp⟩
  refine emits_pure ⟨by simp [Event.quiet], ?_⟩
  intro outputs h
  cases h
  refine ⟨by simpa [and_assoc] using demand_ok hspawned, decision, response, result, rfl, hresult, hdrafts⟩

/-- A factory step emits its gate, or stops on the way with nothing alive. -/
def FactoryTrace (host : RuntimeHost) (request : PhysicalProgramExecutionRequest)
    (step : PhysicalPlanStep) (capability : Capability) (artifacts : List RuntimeArtifact)
    (inputs : List RuntimeInputBinding) (r : Except String StepOutputs) (events : List Event) :
    Prop :=
  Released events ∧ publications events = [] ∧
    ∀ outputs, r = .ok outputs → ∃ gate : Gate, events = gate.events request step ∧
      gate.capability = capability ∧ gate.artifacts = artifacts ∧ gate.inputs = inputs ∧
        gate.drafts = outputs.drafts ∧ gate.Opened host request step

theorem FactoryTrace.quiet {capability : Capability} {artifacts : List RuntimeArtifact}
    {e : String} {events : List Event} (h : ∀ event ∈ events, event.quiet = true) :
    FactoryTrace host request step capability artifacts inputs (.error e) events :=
  ⟨.quiet h, publications_quiet h, by simp⟩

theorem executeFactoryStep_emits (capability : Capability) (artifacts : List RuntimeArtifact)
    (decisions : List String) : Emits (executeFactoryStep host request step inputs capability decisions) history
      (FactoryTrace host request step capability artifacts inputs) := by
  unfold executeFactoryStep
  cases hplacement : step.target.placement with
  | materialized instanceId => exact emits_throw (.quiet (by simp))
  | factory offerId factoryId configuration =>
    refine emits_ask_bind (fun offer => ?_) fun e => .quiet (by simp [Event.quiet])
    refine emits_lift_bind (fun _ hoffer => ?_) fun e _ => .quiet (by simp [Event.quiet])
    obtain ⟨offer, rfl, hoffered⟩ := Option.map_eq_some_iff.mp (of_decide_eq_true (demand_ok hoffer))
    refine (askAllowed_emits _ _).bind ?_ fun e events h => .quiet (by simpa [Event.quiet] using h.1)
    rintro spawnDecision events ⟨-, hspawnDecision⟩
    cases hspawnDecision spawnDecision rfl
    refine (askAdmitted_emits _).bind ?_ fun e events h => .quiet (by simpa [Event.quiet] using h.1)
    rintro admission events ⟨-, hadmission⟩
    obtain ⟨rfl, hgranted⟩ := hadmission admission rfl
    refine emits_ask_bind (fun spawned => ?_) fun e => .quiet (by simp [Event.quiet])
    refine (invokeSpawned_emits capability admission _ spawned).ensuring ?_
    rintro r events ⟨hquiet, hok⟩
    have hopening : ∀ e ∈ [Event.resolveFactory factoryId (.ok (some offer)),
        .decide (stepQuery request step inputs .spawn (.factory offerId factoryId) configuration)
          (.ok (.allow spawnDecision)),
        .assess (spawnRequest request step inputs offerId
          (spread configuration (spawnDecision.forcedConfiguration.getD [])))
          (.ok (.admitted admission))], e.quiet = true := by simp [Event.quiet]
    refine emits_ask fun answer _ => ⟨fun hreleased => ?_, fun e _ => ?_⟩
    · obtain ⟨hlife, hpublications⟩ := released_life hopening hquiet
      refine ⟨hlife, hpublications, fun outputs houtputs => ?_⟩
      obtain ⟨hspawned, invokeDecision, response, result, rfl, hresult, hdrafts⟩ := hok outputs houtputs
      cases hreleased
      exact ⟨⟨capability, artifacts, inputs, offerId, factoryId, configuration, offer, spawnDecision,
        admission, spawned, invokeDecision, response, result, outputs.drafts⟩, rfl, rfl, rfl, rfl, rfl,
        hplacement, hoffered, hgranted, hspawned, hresult, hdrafts⟩
    · obtain ⟨hlife, hpublications⟩ := released_life hopening hquiet
      exact ⟨hlife, hpublications, by simp⟩

end Step

/-! ## Where values come from -/

theorem stepValueKey_injective {a b : String} {m n : ℕ} (h : stepValueKey a m = stepValueKey b n) : a = b ∧ m = n := by
  have hdigits : ∀ k : ℕ, ':' ∉ (toString k).toList := fun k hc =>
    absurd (mem_toString_nat hc) (by decide)
  have hlist : a.toList ++ ':' :: (toString m).toList = b.toList ++ ':' :: (toString n).toList := by
    have hchars := congrArg String.toList h
    simpa [stepValueKey, String.toList_append] using hchars
  rcases List.append_eq_append_iff.mp hlist with ⟨gap, hb, hgap⟩ | ⟨gap, ha, hgap⟩
  · cases gap with
    | nil =>
      rw [List.nil_append, List.cons.injEq, String.toList_inj] at hgap
      rw [List.append_nil, String.toList_inj] at hb
      exact ⟨hb.symm, toString_nat_injective hgap.2⟩
    | cons c gap =>
      rw [List.cons_append, List.cons.injEq] at hgap
      exact absurd (hgap.2 ▸ List.mem_append_right gap List.mem_cons_self) (hdigits m)
  · cases gap with
    | nil =>
      rw [List.nil_append, List.cons.injEq, String.toList_inj] at hgap
      rw [List.append_nil, String.toList_inj] at ha
      exact ⟨ha, toString_nat_injective hgap.2.symm⟩
    | cons c gap =>
      rw [List.cons_append, List.cons.injEq] at hgap
      exact absurd (hgap.2 ▸ List.mem_append_right gap List.mem_cons_self) (hdigits n)

def Recorded (earlier : List Event) (values : Values) : Prop :=
  ∀ entry ∈ values, ∃ publication answer output, .publish publication (.ok answer) ∈ earlier ∧
    entry.1 = stepValueKey publication.stepId output ∧ answer[output]? = some entry.2

variable {earlier later : List Event} {α : Type} {name : String}

theorem Recorded.mono {values : Values} (h : Recorded earlier values) (hsub : earlier ⊆ later) :
    Recorded later values := by
  intro entry hentry
  obtain ⟨publication, answer, output, hpublished, hkey, houtput⟩ := h entry hentry
  exact ⟨publication, answer, output, hsub hpublished, hkey, houtput⟩

theorem ResolvedBy.mono {value : PlanValue} {artifact : RuntimeArtifact} (h : ResolvedBy earlier value artifact)
    (hsub : earlier ⊆ later) : ResolvedBy later value artifact := by
  unfold ResolvedBy at h ⊢
  split at h
  · obtain ⟨id, hid, hresolved⟩ := h
    exact ⟨id, hid, hsub hresolved⟩
  · obtain ⟨publication, answer, hpublished, hstep, houtput⟩ := h
    exact ⟨publication, answer, hsub hpublished, hstep, houtput⟩

variable {record : List (String × α)} {value : α}

theorem mem_assign {entry : String × α} (h : entry ∈ assign record name value) :
    entry = (name, value) ∨ entry ∈ record := by
  unfold assign at h
  split at h
  · obtain ⟨field, hfield, rfl⟩ := List.mem_map.mp h
    split
    · exact .inl rfl
    · exact .inr hfield
  · rcases List.mem_append.mp h with h | h
    · exact .inr h
    · exact .inl (List.mem_singleton.mp h)

theorem mem_of_lookup (h : record.lookup name = some value) : (name, value) ∈ record := by
  obtain ⟨front, back, rfl, -⟩ := List.lookup_eq_some_iff.mp h
  simp

section Resolve
variable {host : RuntimeHost} {values : Values} {earlier history : List Event}

theorem resolveValue_emits (hvalues : Recorded earlier values) (value : PlanValue) :
    Emits (resolveValue host values value) history fun r events => (∀ e ∈ events, e.quiet = true) ∧
        ∀ artifact, r = .ok artifact → ResolvedBy (earlier ++ events) value artifact := by
  unfold resolveValue ResolvedBy
  cases value.source with
  | step stepId output =>
    dsimp only
    cases hlookup : values.lookup (stepValueKey stepId output) with
    | none => exact emits_throw ⟨by simp, by simp⟩
    | some artifact =>
      refine emits_pure ⟨by simp, ?_⟩
      intro artifact' h
      cases h
      obtain ⟨publication, answer, output', hpublished, hkey, houtput⟩ := hvalues _ (mem_of_lookup hlookup)
      obtain ⟨rfl, rfl⟩ := stepValueKey_injective hkey
      exact ⟨publication, answer, by simpa using hpublished, rfl, houtput⟩
  | ingredient artifactId =>
    dsimp only
    cases hid : truthy artifactId with
    | none => exact emits_throw ⟨by simp, by simp⟩
    | some id =>
      refine emits_ask_bind (fun answer => ?_) fun e => ⟨by simp [Event.quiet], by simp⟩
      cases answer with
      | none => exact emits_throw ⟨by simp [Event.quiet], by simp⟩
      | some artifact =>
        refine emits_lift_bind (fun _ _ => ?_) fun e _ => ⟨by simp [Event.quiet], by simp⟩
        refine emits_pure ⟨by simp [Event.quiet], ?_⟩
        intro artifact' h
        cases h
        exact ⟨id, rfl, by simp⟩

theorem resolveValues_emits (hvalues : Recorded earlier values) (inputs : List PlanValue) :
    Emits (resolveValues host values inputs) history fun r events => (∀ e ∈ events, e.quiet = true) ∧
        ∀ artifacts, r = .ok artifacts → List.Forall₂ (ResolvedBy (earlier ++ events)) inputs artifacts := by
  refine emits_all_ok (T := fun events => ResolvedBy (earlier ++ events)) ?_
    fun value _ history => resolveValue_emits hvalues value
  intro events more value artifact h hsub
  exact h.mono (List.append_subset.mpr
    ⟨List.subset_append_left _ _, List.Subset.trans hsub (List.subset_append_right _ _)⟩)

end Resolve

/-! ## A whole step -/

section Step
variable {host : RuntimeHost} {request : PhysicalProgramExecutionRequest} {step : PhysicalPlanStep}
  {progress : Progress} {history : List Event}

/-- How a step ends: before its publication, with the publisher refusing, with its answer
rejected, or with its answer admitted. -/
inductive StepTrace (host : RuntimeHost) (request : PhysicalProgramExecutionRequest)
    (progress : Progress) (step : PhysicalPlanStep) (earlier : List Event) :
    Except String Progress → List Event → Prop
  | stopped {e : String} {events : List Event} :
      Released events → publications events = [] →
      StepTrace host request progress step earlier (.error e) events
  | refused {e : String} {asked : List Event} {gate : Gate} :
      (∀ event ∈ asked, event.quiet = true) →
      gate.Passed host request step (earlier ++ asked) →
      StepTrace host request progress step earlier (.error e)
        (asked ++ (gate.events request step ++
          [.publish (gate.publication request step) (.error e)]))
  | rejected {e : String} {asked : List Event} {gate : Gate} {answer : List RuntimeArtifact} :
      (∀ event ∈ asked, event.quiet = true) →
      gate.Passed host request step (earlier ++ asked) →
      admitPublication step gate.drafts progress.values answer = .error e →
      StepTrace host request progress step earlier (.error e)
        (asked ++ (gate.events request step ++
          [.publish (gate.publication request step) (.ok answer)]))
  | published {next : Progress} {asked : List Event} {gate : Gate} {answer : List RuntimeArtifact} :
      (∀ event ∈ asked, event.quiet = true) →
      gate.Passed host request step (earlier ++ asked) →
      admitPublication step gate.drafts progress.values answer = .ok next.values →
      next.completedStepIds = progress.completedStepIds ++ [step.id] →
      StepTrace host request progress step earlier (.ok next)
        (asked ++ (gate.events request step ++
          [.publish (gate.publication request step) (.ok answer)]))

variable {earlier : List Event} {capability : Capability}

theorem StepTrace.quiet {events : List Event} {e : String} (h : ∀ event ∈ events, event.quiet = true) :
    StepTrace host request progress step earlier (.error e) events :=
  .stopped (.quiet h) (publications_quiet h)

theorem admitStep_ok (h : admitStep request progress step = .ok capability) :
    capabilityFor request.registry step.capability = .ok capability := by
  obtain ⟨-, -, hmatch⟩ := bind_eq_ok h
  split at hmatch
  · cases hmatch
  · exact hmatch

theorem outputDrafts_covered {result : ActorStepResult} {drafts : List RuntimeOutputDraft}
    (h : outputDrafts capability step result = .ok drafts) :
    ∀ slot ∈ capability.outputSlots.getD [], slot.name ∉ inheritedNames →
      ∃ value, result.outputs.lookup slot.name = some value := by
  intro slot hslot hname
  obtain ⟨-, -, hmatch⟩ := bind_eq_ok h
  dsimp only at hmatch
  split at hmatch
  · cases hmatch
  · obtain ⟨index, hindex, hat⟩ := List.mem_iff_getElem.mp hslot
    have hmem : (slot, index) ∈ (capability.outputSlots.getD []).zipIdx :=
      List.mem_zipIdx_iff_getElem?.mpr (by simp [hat, hindex])
    obtain ⟨draft, -, hdraft⟩ := mapM_ok_mem hmatch hmem
    obtain ⟨⟨⟩, hcovered, -⟩ := bind_eq_ok hdraft
    have hown : (result.outputs.any fun field => field.1 == slot.name) = true := by
      simpa [hasName, hname] using demand_ok hcovered
    obtain ⟨field, hfield, heq⟩ := List.any_eq_true.mp hown
    refine Option.isSome_iff_exists.mp (List.lookup_isSome_iff.mpr ⟨field, hfield, ?_⟩)
    rw [eq_of_beq heq]
    exact beq_self_eq_true _

theorem executeStep_emits (hvalues : Recorded earlier progress.values) :
    Emits (executeStep host request progress step) history (StepTrace host request progress step earlier) := by
  unfold executeStep
  refine emits_lift_bind (fun capability hcapability => ?_) fun e _ => .quiet (by simp)
  refine (resolveValues_emits hvalues step.inputs).bind ?_ fun e events h => .quiet h.1
  rintro artifacts asked ⟨hasked, hresolved⟩
  refine emits_lift_bind (fun _ _ => ?_) fun e _ => .quiet (by simpa using hasked)
  refine emits_lift_bind (fun inputs hinputs => ?_) fun e _ => .quiet (by simpa using hasked)
  refine (executeFactoryStep_emits capability artifacts _).bind ?_ ?_
  · rintro outputs events ⟨-, -, hgate⟩
    obtain ⟨gate, rfl, rfl, rfl, rfl, hdrafts, hopened⟩ := hgate outputs rfl
    have hpassed : gate.Passed host request step (earlier ++ asked) :=
      ⟨hopened, admitStep_ok hcapability, hresolved _ rfl, hinputs, outputDrafts_covered hopened.drafted⟩
    rw [← hdrafts]
    refine emits_ask_bind (fun answer => ?_) fun e => .refused hasked hpassed
    refine emits_lift_bind (fun values hadmitted => ?_) fun e hrejected =>
      .rejected hasked hpassed hrejected
    exact emits_pure (.published hasked hpassed hadmitted rfl)
  · rintro e events ⟨hreleased, hpublications, -⟩
    refine .stopped ((Released.quiet hasked).append hreleased) ?_
    rw [publications_append, publications_quiet hasked, hpublications]
    rfl

end Step

/-! ## A whole run -/

section Run
variable {host : RuntimeHost} {request : PhysicalProgramExecutionRequest}
  {done : List PhysicalPlanStep} {step : PhysicalPlanStep} {progress : Progress}
  {before events : List Event}

theorem Gated.append (h : Gated host request before) (hevents : publications events = []) :
    Gated host request (before ++ events) := by
  induction events using List.reverseRecOn with
  | nil => rwa [List.append_nil]
  | append_singleton events event ih =>
    rw [publications_append, List.append_eq_nil_iff] at hevents
    intro earlier publication answer hprefix
    rw [← List.append_assoc, List.prefix_concat_iff] at hprefix
    rcases hprefix with heq | hprefix
    · obtain ⟨-, hlast⟩ := List.append_inj' heq rfl
      cases hlast
      cases hevents.2
    · exact ih hevents.1 earlier publication answer hprefix

variable {gate : Gate} {rest : List PhysicalPlanStep} {e : String}

theorem Gated.publish (h : Gated host request before) (hstep : step ∈ request.program.steps) {earlier : List Event}
    (hbefore : before = earlier ++ gate.events request step) (hpassed : gate.Passed host request step earlier)
    (answer : Except String (List RuntimeArtifact)) :
    Gated host request (before ++ [.publish (gate.publication request step) answer]) := by
  intro earlier' publication answer' hprefix
  rw [List.prefix_concat_iff] at hprefix
  rcases hprefix with heq | hprefix
  · obtain ⟨rfl, hlast⟩ := List.append_inj' heq rfl
    cases hlast
    exact ⟨step, hstep, earlier, gate, hbefore, rfl, hpassed⟩
  · exact h earlier' publication answer' hprefix

def publicationId (request : PhysicalProgramExecutionRequest) (step : PhysicalPlanStep) : String :=
  request.runId ++ ":" ++ step.id

/-- The state of the loop after some steps, and what they emitted. -/
structure Executed (host : RuntimeHost) (request : PhysicalProgramExecutionRequest)
    (done : List PhysicalPlanStep) (progress : Progress) (events : List Event) : Prop where
  released : Released events
  gated : Gated host request events
  recorded : Recorded events progress.values
  completed : progress.completedStepIds = done.map fun step => step.id
  published : publishedSteps events = done.map fun step => step.id
  asked : (publications events).map RuntimeStepPublication.publicationId =
    done.map (publicationId request)

/-- The run stopped at a step: the steps before it are published, and the step itself if its
publication was answered and the answer rejected. -/
structure Stopped (host : RuntimeHost) (request : PhysicalProgramExecutionRequest)
    (done : List PhysicalPlanStep) (step : PhysicalPlanStep) (e : String) (events : List Event) :
    Prop where
  released : Released events
  gated : Gated host request events
  published : publishedSteps events = (done.map fun step => step.id) ∨
    publishedSteps events = (done.map fun step => step.id) ++ [step.id] ∧
      ∃ earlier, ∃ gate : Gate, ∃ values answer,
        events = earlier ++ [.publish (gate.publication request step) (.ok answer)] ∧
          admitPublication step gate.drafts values answer = .error e
  asked : (publications events).map RuntimeStepPublication.publicationId <+:
    (done ++ [step]).map (publicationId request)

theorem executed_start (host : RuntimeHost) (request : PhysicalProgramExecutionRequest) :
    Executed host request [] .start [] :=
  ⟨rfl, fun before publication answer h => by simp at h, by simp [Recorded, Progress.start], rfl, rfl, rfl⟩

theorem gate_quiet (request : PhysicalProgramExecutionRequest) (step : PhysicalPlanStep)
    (gate : Gate) : Released (gate.events request step) ∧ publications (gate.events request step) = [] := by
  refine ⟨?_, rfl⟩
  simp [Released, Gate.events, lifeStep]

theorem admitPublication_recorded {values : Values} {answer : List RuntimeArtifact}
    (hrecorded : Recorded before progress.values)
    (h : admitPublication step gate.drafts progress.values answer = .ok values) :
    Recorded (before ++ [.publish (gate.publication request step) (.ok answer)]) values := by
  obtain ⟨⟨⟩, -, hloop⟩ := bind_eq_ok h
  refine foldlM_invariant ?_ hloop (hrecorded.mono (List.subset_append_left _ _))
  rintro values ⟨⟨artifact, planned⟩, output⟩ hmem values' hvalues hadmit entry hentry
  obtain ⟨⟨⟩, -, hadmit⟩ := bind_eq_ok hadmit
  obtain ⟨⟨⟩, -, hadmit⟩ := bind_eq_ok hadmit
  cases hadmit
  rcases mem_assign hentry with rfl | hentry
  · have hzip : (answer.zip step.outputs)[output]? = some (artifact, planned) := List.mem_zipIdx_iff_getElem?.mp hmem
    exact ⟨gate.publication request step, answer, output, by simp, rfl, (List.getElem?_zip_eq_some.mp hzip).1⟩
  · exact hvalues entry hentry

theorem Executed.publish {asked : List Event} (answer : Except String (List RuntimeArtifact))
    (h : Executed host request done progress before) (hstep : step ∈ request.program.steps)
    (hasked : ∀ event ∈ asked, event.quiet = true) (hpassed : gate.Passed host request step (before ++ asked)) :
    let after := before ++ (asked ++ (gate.events request step ++ [.publish (gate.publication request step) answer]))
    Released after ∧ Gated host request after ∧ (publications after).map RuntimeStepPublication.publicationId =
        (done ++ [step]).map (publicationId request) ∧
      publishedSteps after = (done.map fun step => step.id) ++
        publishedSteps [.publish (gate.publication request step) answer] := by
  obtain ⟨hlife, hnone⟩ := gate_quiet request step gate
  have hquiet := publications_quiet hasked
  refine ⟨?_, ?_, ?_, ?_⟩
  · exact h.released.append ((Released.quiet hasked).append (hlife.append rfl))
  · have hbefore := (h.gated.append hquiet).append hnone
    have hgated := hbefore.publish hstep rfl hpassed answer
    simpa only [List.append_assoc] using hgated
  · simp only [publications_append, hquiet, hnone, List.map_append, h.asked, List.nil_append]
    rfl
  · simp only [publishedSteps_append, publishedSteps_eq_nil hquiet, publishedSteps_eq_nil hnone,
      h.published, List.nil_append]

/-- What holds after one more step. -/
def Continued (host : RuntimeHost) (request : PhysicalProgramExecutionRequest)
    (done : List PhysicalPlanStep) (step : PhysicalPlanStep) :
    Except String Progress → List Event → Prop
  | .ok next, events => Executed host request (done ++ [step]) next events
  | .error e, events => Stopped host request done step e events

theorem Executed.next {r : Except String Progress} (h : Executed host request done progress before)
    (hstep : step ∈ request.program.steps) (htrace : StepTrace host request progress step before r events) :
    Continued host request done step r (before ++ events) := by
  cases htrace with
  | @stopped e events hreleased hpublications =>
    refine ⟨h.released.append hreleased, h.gated.append hpublications, .inl ?_, ?_⟩
    · rw [publishedSteps_append, publishedSteps_eq_nil hpublications, List.append_nil, h.published]
    · rw [publications_append, hpublications, List.append_nil, h.asked, List.map_append]
      exact List.prefix_append _ _
  | @refused e asked gate hasked hpassed =>
    obtain ⟨hreleased, hgated, hids, hpublished⟩ := h.publish (.error e) hstep hasked hpassed
    refine ⟨hreleased, hgated, .inl ?_, hids ▸ List.prefix_refl _⟩
    rw [hpublished]
    exact List.append_nil _
  | @rejected e asked gate answer hasked hpassed hrejected =>
    obtain ⟨hreleased, hgated, hids, hpublished⟩ := h.publish (.ok answer) hstep hasked hpassed
    refine ⟨hreleased, hgated, .inr ⟨hpublished, before ++ (asked ++ gate.events request step), gate,
      progress.values, answer, ?_, hrejected⟩, hids ▸ List.prefix_refl _⟩
    simp only [List.append_assoc]
  | @published next asked gate answer hasked hpassed hadmitted hcompleted =>
    obtain ⟨hreleased, hgated, hids, hpublished⟩ := h.publish (.ok answer) hstep hasked hpassed
    have hquiet := h.recorded.mono (List.subset_append_left before (asked ++ gate.events request step))
    have hrecorded : Recorded (before ++ (asked ++ gate.events request step) ++
        [.publish (gate.publication request step) (.ok answer)]) next.values :=
      admitPublication_recorded hquiet hadmitted
    refine ⟨hreleased, hgated, ?_, ?_, ?_, hids⟩
    · simpa only [List.append_assoc] using hrecorded
    · rw [hcompleted, h.completed, List.map_append]
      rfl
    · rw [hpublished, List.map_append]
      rfl

/-- The run fails at a step: the loop over the steps before it goes through, and the step fails. -/
def FailsAt (host : RuntimeHost) (request : PhysicalProgramExecutionRequest)
    (done : List PhysicalPlanStep) (step : PhysicalPlanStep) (e : String) (events : List Event) :
    Prop :=
  ∃ progress before, executeSteps host request done [] = (.ok progress, before) ∧
    executeStep host request progress step before = (.error e, events)

theorem executeSteps_emits {steps : List PhysicalPlanStep} (hsteps : ∀ step ∈ steps, step ∈ request.program.steps) :
    Emits (executeSteps host request steps) [] fun r events =>
      match r with
      | .ok progress => Executed host request steps progress events
      | .error e => ∃ done step rest, steps = done ++ step :: rest ∧
          FailsAt host request done step e events ∧ Stopped host request done step e events := by
  refine emits_loop (I := fun done progress before => Executed host request done progress before ∧
      executeSteps host request done [] = (.ok progress, before))
    ⟨executed_start host request, rfl⟩ ?_ fun progress before h => h.1
  rintro done progress before step rest hsplit ⟨hexecuted, hrun⟩
  have hstep := hsteps step (by rw [hsplit]; simp)
  refine (executeStep_emits hexecuted.recorded).outcome.mono ?_
  rintro r events ⟨htrace, houtcome⟩
  have hnext := hexecuted.next hstep htrace
  cases r with
  | ok next => exact ⟨hnext, (foldlM_snoc_run hrun).trans houtcome⟩
  | error e => exact ⟨done, step, rest, hsplit, ⟨progress, before, hrun, houtcome⟩, hnext⟩

theorem FailsAt.stopped (h : FailsAt host request done step e events)
    (hsplit : request.program.steps = done ++ step :: rest) : Stopped host request done step e events := by
  obtain ⟨progress, before, hrun, hfails⟩ := h
  have hdone : ∀ s ∈ done, s ∈ request.program.steps := fun s hs => by
    rw [hsplit]
    exact List.mem_append_left _ hs
  have hsteps : Emits (executeSteps host request done) [] _ := executeSteps_emits hdone
  obtain ⟨events', hevents', hexecuted⟩ := hsteps
  rw [hrun] at hevents' hexecuted
  cases hevents'
  have hlast : Emits (executeStep host request progress step) before _ := executeStep_emits hexecuted.recorded
  obtain ⟨more, hmore, htrace⟩ := hlast
  rw [hfails] at hmore htrace
  cases hmore
  exact hexecuted.next (by rw [hsplit]; simp) htrace

/-! ## Every run is safe -/

structure SafeRun (host : RuntimeHost) (request : PhysicalProgramExecutionRequest)
    (outcome : Except String PhysicalProgramExecutionResult) (events : List Event) : Prop where
  gated : Gated host request events
  released : Released events
  distinct : (request.program.steps.map fun step => step.id).Nodup →
    ((publications events).map RuntimeStepPublication.publicationId).Nodup
  succeeded : ∀ result, outcome = .ok result →
    publishedSteps events = request.program.steps.map fun step => step.id
  /-- A run that fails is refused, fails at a step, or fails at its results. -/
  failed : ∀ e, outcome = .error e →
    (admitRequest request = .error e ∧ events = []) ∨
    (∃ done step rest, request.program.steps = done ++ step :: rest ∧
      FailsAt host request done step e events) ∨
    publishedSteps events = request.program.steps.map fun step => step.id
  /-- Failing at a step, the steps before it are published, each once and in order; the step itself
  only if what is wrong is the publisher's answer. -/
  failedAt : ∀ done step rest e, request.program.steps = done ++ step :: rest →
    FailsAt host request done step e events →
      publishedSteps events = (done.map fun step => step.id) ∨
      publishedSteps events = (done.map fun step => step.id) ++ [step.id] ∧
        ∃ earlier, ∃ gate : Gate, ∃ values answer,
          events = earlier ++ [.publish (gate.publication request step) (.ok answer)] ∧
            admitPublication step gate.drafts values answer = .error e

theorem nodup_publicationIds (h : (request.program.steps.map fun step => step.id).Nodup) :
    (request.program.steps.map (publicationId request)).Nodup := by
  have hmap : request.program.steps.map (publicationId request) =
      (request.program.steps.map fun step => step.id).map (request.runId ++ ":" ++ ·) := by
    simp [publicationId]
  rw [hmap]
  refine h.map fun a b hab => ?_
  have hchars := congrArg String.toList hab
  simpa [String.toList_append, String.toList_inj] using hchars

theorem Stopped.distinct (h : Stopped host request done step e events)
    (hsplit : request.program.steps = done ++ step :: rest)
    (hids : (request.program.steps.map fun step => step.id).Nodup) :
    ((publications events).map RuntimeStepPublication.publicationId).Nodup := by
  refine (nodup_publicationIds hids).sublist (h.asked.sublist.trans ?_)
  rw [hsplit]
  simp

theorem Executed.safe {more : List Event} (outcome : Except String PhysicalProgramExecutionResult)
    (h : Executed host request request.program.steps progress events)
    (hmore : ∀ e ∈ more, e.quiet = true) : SafeRun host request outcome (events ++ more) := by
  have hnone := publications_quiet hmore
  have hpublished : publishedSteps (events ++ more) = request.program.steps.map fun step => step.id := by
    rw [publishedSteps_append, publishedSteps_eq_nil hnone, List.append_nil, h.published]
  refine ⟨h.gated.append hnone, h.released.append (.quiet hmore), fun hids => ?_,
    fun _ _ => hpublished, fun _ _ => .inr (.inr hpublished),
    fun _ _ _ _ hsplit hfails => (hfails.stopped hsplit).published⟩
  rw [publications_append, hnone, List.append_nil, h.asked]
  exact nodup_publicationIds hids

theorem executePhysicalProgram_emits (host : RuntimeHost) (request : PhysicalProgramExecutionRequest) :
    Emits (executePhysicalProgram host request) [] (SafeRun host request) := by
  unfold executePhysicalProgram
  refine emits_lift_bind (fun _ _ => ?_) fun e hrefused => ?_
  · refine (executeSteps_emits fun _ h => h).bind ?_ ?_
    · intro progress events hexecuted
      refine (resolveValues_emits hexecuted.recorded _).bind ?_ ?_
      · rintro results asked ⟨hasked, -⟩
        refine emits_pure ?_
        rw [List.append_nil]
        exact hexecuted.safe _ hasked
      · rintro e asked ⟨hasked, -⟩
        exact hexecuted.safe _ hasked
    · rintro e events ⟨done, step, rest, hsplit, hfails, hstopped⟩
      refine ⟨hstopped.gated, hstopped.released, hstopped.distinct hsplit, by simp, fun e' he => ?_,
        fun _ _ _ _ hsplit hfails => (hfails.stopped hsplit).published⟩
      cases he
      exact .inr (.inl ⟨done, step, rest, hsplit, hfails⟩)
  · have hstart := executed_start host request
    refine ⟨hstart.gated, hstart.released, fun _ => List.nodup_nil, by simp, fun e' he => ?_,
      fun _ _ _ _ hsplit hfails => (hfails.stopped hsplit).published⟩
    cases he
    exact .inl ⟨hrefused, rfl⟩

/-- Whatever the host answers or throws. -/
theorem executePhysicalProgram_safe (host : RuntimeHost) (request : PhysicalProgramExecutionRequest) :
    SafeRun host request (executePhysicalProgram host request []).1
      (executePhysicalProgram host request []).2 := by
  obtain ⟨events, hevents, hsafe⟩ := executePhysicalProgram_emits host request
  rw [hevents, List.nil_append]
  exact hsafe

end Run

/-! ## A program that names two steps alike -/

def pingCapability : Capability :=
  ⟨"ping", "pinger", "ping", [], [], none, none, none, some [], some []⟩

def pingTarget : AuthorizedActorTarget where
  placement := .factory "offer" "factory" []
  definitionRef := "pinger"
  executionEnvironment := .server
  cost := 0
  latencyMs := none
  authorization := ⟨"decision", none⟩

def pingStep : PhysicalPlanStep :=
  ⟨⟨"step-1", "ping", "pinger", "ping", [], [], [], 1⟩, pingTarget⟩

def pingOffer : ActorFactoryOffer :=
  ⟨"offer", "factory", "pinger", ["ping"], .server, none, none, none⟩

def pingActor : SpawnedActor :=
  ⟨"actor", ⟨"instance", "pinger", ["ping"], .available, .server, none, none, none⟩⟩

/-- Everything is allowed, and every answer is empty. -/
def pingHost : RuntimeHost where
  resolveFactory := fun _ _ => .ok (some pingOffer)
  decide := fun _ _ => .ok (.allow ⟨"decision", none⟩)
  assess := fun _ _ => .ok (.admitted ⟨"admission", ["ping"], []⟩)
  spawn := fun _ _ _ => .ok pingActor
  deliver := fun _ _ _ _ => .ok ⟨.ok (.obj [("ok", .bool true), ("outputs", .obj [])]), ""⟩
  release := fun _ _ => .ok ()
  resolve := fun _ _ _ => .ok none
  publish := fun _ _ => .ok []
  earliest := fun _ => 0
  text := fun _ => ""

def pingRequest : PhysicalProgramExecutionRequest where
  runId := "run"
  program := ⟨[], [pingStep, pingStep], 2, [], 1, ⟨"alice", none⟩, .server⟩
  registry := ⟨1, "now", [⟨"pinger", [pingCapability]⟩], [], []⟩
  principal := ⟨"alice", .user, [], none⟩
  access := .empty
  parameters := none
  resource := none

/-- Two steps of one id are published under one publication id. -/
theorem publication_ids_repeat : ¬ ((publications (executePhysicalProgram pingHost pingRequest []).2).map
      RuntimeStepPublication.publicationId).Nodup := by
  have hids : (publications (executePhysicalProgram pingHost pingRequest []).2).map
      RuntimeStepPublication.publicationId = ["run:step-1", "run:step-1"] := by decide +kernel
  rw [hids]
  decide

end AvenOS.Actors
