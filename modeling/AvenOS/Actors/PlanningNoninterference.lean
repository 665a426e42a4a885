import AvenOS.Actors.PhysicalPlanner
import AvenOS.Actors.Saturation

/-! # What a plan may depend on, and where it is placed

`visible` erases from a snapshot everything the authorizer hides and everything that lies elsewhere.
Planning cannot tell a snapshot from what is visible of it. The targets of a program are looked up
once more, by capability id only, and are the ones that were paid for as long as entries that share
an id cost the same. -/
namespace AvenOS.Actors
open StableSort ExceptLoop

/-- Everything about a planning request except the snapshot; the authorizer is a pure function. -/
structure PlanningRun where
  locale : Locale
  budget : ℕ
  decide : ActorAuthorizationRequest → ActorAuthorizationDecision
  principal : ActorPrincipal
  authorization : PlanningAuthorizationOptions
  ingredients : List Ingredient
  goals : List Predicate
  factFamilies : List String
  planning : PhysicalPlanningOptions

def ActorAuthorizationDecision.allowed : ActorAuthorizationDecision → Option AllowedDecision
  | .allow decision => some decision
  | .deny _ _ => none

@[simp] theorem allowed_allow (decision : AllowedDecision) :
    (ActorAuthorizationDecision.allow decision).allowed = some decision := rfl

@[simp] theorem allowed_deny (decisionId reasonCode : String) :
    (ActorAuthorizationDecision.deny decisionId reasonCode).allowed = none := rfl

def PhysicalProgram.forgetRevision (program : PhysicalProgram) : PhysicalProgram :=
  { program with registryRevision := 0 }

def PhysicalPlanResult.forgetRevision : PhysicalPlanResult → PhysicalPlanResult
  | .ok program exploredStates => .ok program.forgetRevision exploredStates
  | .failed unmetGoals exploredStates reason => .failed unmetGoals exploredStates reason

def PhysicalEnrichmentResult.forgetRevision : PhysicalEnrichmentResult → PhysicalEnrichmentResult
  | .ok program exploredInvocations => .ok program.forgetRevision exploredInvocations
  | .failed reason exploredInvocations => .failed reason exploredInvocations

/-- The answers of the three planners. -/
structure Outcomes where
  solved : Option (Except String PhysicalPlanResult)
  enriched : Option (Except String PhysicalEnrichmentResult)
  enrichedAfterGoals : Option (Except String PhysicalEnrichmentResult)

def Outcomes.forgetRevision (outcomes : Outcomes) : Outcomes :=
  ⟨outcomes.solved.map fun r => r.map PhysicalPlanResult.forgetRevision,
    outcomes.enriched.map fun r => r.map PhysicalEnrichmentResult.forgetRevision,
    outcomes.enrichedAfterGoals.map fun r => r.map PhysicalEnrichmentResult.forgetRevision⟩

namespace PlanningRun
variable (run : PlanningRun) (snapshot : ActorRegistrySnapshot)

def view : AuthorizedRegistryView :=
  authorizeRegistryForPlanning (m := Id) snapshot run.principal run.authorization run.decide
    run.locale

def outcomes : Outcomes :=
  ⟨solveAuthorized run.locale run.budget (run.view snapshot) run.ingredients run.goals run.planning,
    enrichAuthorized run.locale run.budget (run.view snapshot) run.ingredients run.factFamilies
      run.planning,
    enrichAfterGoalsAuthorized run.locale run.budget (run.view snapshot) run.ingredients run.goals
      run.factFamilies run.planning⟩

/-! ## What is visible of a snapshot -/

def environment : ExecutionEnvironment := run.planning.executionEnvironment

def discover (definitionRef : String) (capability : Capability) : Option AllowedDecision :=
  (run.decide (discoverQuery run.principal run.authorization definitionRef capability)).allowed

def planInstance (definitionRef : String) (capability : Capability)
    (candidate : ActorInstanceAdvertisement) : Option AllowedDecision :=
  (run.decide (planInstanceQuery run.principal run.authorization definitionRef capability
    candidate)).allowed

def planOffer (definitionRef : String) (capability : Capability) (offer : ActorFactoryOffer) :
    Option AllowedDecision :=
  (run.decide (planOfferQuery run.principal run.authorization definitionRef capability
    offer)).allowed

/-- The target an instance is for a capability, unless it is none or lies elsewhere. -/
def instanceOption (capturedAt definitionRef : String) (capability : Capability)
    (candidate : ActorInstanceAdvertisement) : Option AuthorizedActorTarget :=
  if candidate.definitionRef = definitionRef ∧ capability.id ∈ candidate.capabilityIds ∧
      usableInstance candidate capturedAt = true ∧
      candidate.executionEnvironment = run.environment then
    (run.planInstance definitionRef capability candidate).map
      (instanceTarget definitionRef candidate)
  else none

def offerOption (definitionRef : String) (capability : Capability) (offer : ActorFactoryOffer) :
    Option AuthorizedActorTarget :=
  if offer.definitionRef = definitionRef ∧ capability.id ∈ offer.capabilityIds ∧
      offer.executionEnvironment = run.environment then
    (run.planOffer definitionRef capability offer).map
      (factoryTarget offer (offerConfiguration run.authorization offer))
  else none

def targets (definitionRef : String) (capability : Capability) : List AuthorizedActorTarget :=
  snapshot.instances.filterMap
      (run.instanceOption snapshot.capturedAt definitionRef capability) ++
    snapshot.offers.filterMap (run.offerOption definitionRef capability)

def offered (definitionRef : String) (capability : Capability) : Bool :=
  (run.discover definitionRef capability).isSome && !(run.targets snapshot definitionRef
    capability).isEmpty

def advertisable (definitionRef capabilityId : String)
    (allowed : Capability → Option AllowedDecision) : Bool :=
  snapshot.definitions.any fun definition => definition.ref = definitionRef &&
    definition.capabilities.any fun capability => capability.id = capabilityId &&
      (run.discover definitionRef capability).isSome && (allowed capability).isSome

def visibleDefinition (definition : ActorDefinition) : Option ActorDefinition :=
  let capabilities := definition.capabilities.filter (run.offered snapshot definition.ref)
  if capabilities = [] then none else some { definition with capabilities }

def visibleInstance (candidate : ActorInstanceAdvertisement) : Option ActorInstanceAdvertisement :=
  let capabilityIds := candidate.capabilityIds.filter fun id =>
    run.advertisable snapshot candidate.definitionRef id fun capability =>
      run.planInstance candidate.definitionRef capability candidate
  if candidate.executionEnvironment = run.environment ∧ capabilityIds ≠ [] then
    some { candidate with capabilityIds }
  else none

def visibleOffer (offer : ActorFactoryOffer) : Option ActorFactoryOffer :=
  let capabilityIds := offer.capabilityIds.filter fun id =>
    run.advertisable snapshot offer.definitionRef id fun capability =>
      run.planOffer offer.definitionRef capability offer
  if offer.executionEnvironment = run.environment ∧ capabilityIds ≠ [] then
    some { offer with capabilityIds }
  else none

/-- The snapshot without its revision and without anything hidden or placed elsewhere. -/
def visible : ActorRegistrySnapshot where
  revision := 0
  capturedAt := snapshot.capturedAt
  definitions := snapshot.definitions.filterMap (run.visibleDefinition snapshot)
  instances := snapshot.instances.filterMap (run.visibleInstance snapshot)
  offers := snapshot.offers.filterMap (run.visibleOffer snapshot)

/-! ## The view is what is visible -/

/-- What a capability contributes to the available ones. -/
def entry (definitionRef : String) (capability : Capability) : List AuthorizedCapability :=
  if run.offered snapshot definitionRef capability then
    [⟨capability, sortBy (compareTargets run.locale) (run.targets snapshot definitionRef
      capability)⟩]
  else []

variable {run snapshot}

variable {definitionRef : String} {capability : Capability} {target : AuthorizedActorTarget}

theorem instanceOption_eq_some {capturedAt : String} {candidate : ActorInstanceAdvertisement} :
    run.instanceOption capturedAt definitionRef capability candidate = some target ↔
      (candidate.definitionRef = definitionRef ∧ capability.id ∈ candidate.capabilityIds ∧
        usableInstance candidate capturedAt = true ∧ candidate.executionEnvironment = run.environment) ∧
      ∃ decision, run.planInstance definitionRef capability candidate = some decision ∧
        instanceTarget definitionRef candidate decision = target := by
  unfold instanceOption
  rw [Option.ite_none_right_eq_some, Option.map_eq_some_iff]

theorem offerOption_eq_some {offer : ActorFactoryOffer} : run.offerOption definitionRef capability offer = some target ↔
      (offer.definitionRef = definitionRef ∧ capability.id ∈ offer.capabilityIds ∧
        offer.executionEnvironment = run.environment) ∧
      ∃ decision, run.planOffer definitionRef capability offer = some decision ∧
        factoryTarget offer (offerConfiguration run.authorization offer) decision = target := by
  unfold offerOption
  rw [Option.ite_none_right_eq_some, Option.map_eq_some_iff]

theorem mem_targets_environment (h : target ∈ run.targets snapshot definitionRef capability) :
    target.executionEnvironment = run.environment := by
  rcases List.mem_append.mp h with h | h
  · obtain ⟨candidate, -, hoption⟩ := List.mem_filterMap.mp h
    obtain ⟨⟨-, -, -, henvironment⟩, decision, -, rfl⟩ := instanceOption_eq_some.1 hoption
    exact henvironment
  · obtain ⟨offer, -, hoption⟩ := List.mem_filterMap.mp h
    obtain ⟨⟨-, -, henvironment⟩, decision, -, rfl⟩ := offerOption_eq_some.1 hoption
    exact henvironment

end PlanningRun

variable {α β : Type}

variable {p : α → Bool} {f : α → Option β} {l : List α} {target : AuthorizedActorTarget}

theorem filter_flatMap_toList {q : β → Bool} {g : α → Option β}
    (hpoint : ∀ a, g a = if p a then (f a).filter q else none) (l : List α) :
    ((l.filter p).flatMap fun a => (f a).toList).filter q = l.filterMap g := by
  induction l with
  | nil => rfl
  | cons a l ih =>
    rw [List.filterMap_cons, hpoint a]
    cases hp : p a with
    | false => simpa [List.filter_cons, hp] using ih
    | true =>
      rw [List.filter_cons_of_pos hp, List.flatMap_cons, List.filter_append, ih]
      cases hf : f a with
      | none => simp
      | some b => cases hq : q b <;> simp [Option.filter, hq]

theorem flatMap_filterMap {γ : Type} {g : β → List γ} {k : α → List γ} (hpoint : ∀ a ∈ l, (f a).elim [] g = k a) :
    (l.filterMap f).flatMap g = l.flatMap k := by
  induction l with
  | nil => rfl
  | cons a l ih =>
    rw [List.flatMap_cons, ← ih fun b hb => hpoint b (List.mem_cons_of_mem a hb), ← hpoint a List.mem_cons_self]
    cases hf : f a <;> simp [hf]

theorem flatMap_filter {g : α → List β} (hdropped : ∀ a ∈ l, p a = false → g a = []) :
    (l.filter p).flatMap g = l.flatMap g := by
  induction l with
  | nil => rfl
  | cons a l ih =>
    have hrest := ih fun b hb => hdropped b (List.mem_cons_of_mem a hb)
    cases hp : p a with
    | false => simp [hp, hrest, hdropped a List.mem_cons_self hp]
    | true => simp [hp, hrest]

theorem foldlM_appends {body : List β → α → Id (List β)} {contribution : α → List β}
    (hbody : ∀ found a, (body found a).run = found ++ contribution a) (l : List α)
    (found : List β) : (l.foldlM (m := Id) body found).run = found ++ l.flatMap contribution := by
  induction l generalizing found with
  | nil => exact (List.append_nil found).symm
  | cons a l ih =>
    rw [List.foldlM_cons, List.flatMap_cons, ← List.append_assoc, ← hbody]
    exact ih _

/-! ## What the planners place -/

def PlacedFromBuilt (view : AuthorizedRegistryView) (ingredients : List Ingredient)
    (environment : ExecutionEnvironment) (program : PhysicalProgram) : Prop :=
  ∃ logical, Built ((availableCapabilities view environment).map placedCapability) ingredients
      logical ∧
    physicalProgram view logical (availableCapabilities view environment) environment = .ok program

section Planners
variable {locale : Locale} {budget : ℕ} {view : AuthorizedRegistryView}
  {ingredients : List Ingredient} {goals : List Predicate} {factFamilies : List String}
  {options : PhysicalPlanningOptions} {program : PhysicalProgram} {explored : ℕ}

theorem solveAuthorized_built (h : solveAuthorized locale budget view ingredients goals options =
      some (.ok (.ok program explored))) :
    PlacedFromBuilt view ingredients options.executionEnvironment program := by
  obtain ⟨result, hsolve, hresult⟩ := Option.map_eq_some_iff.mp h
  cases result with
  | failed unmetGoals exploredStates reason => cases hresult
  | ok logical exploredStates =>
    obtain ⟨placed, hplaced, heq⟩ := map_eq_ok hresult
    cases heq
    exact ⟨logical, solve_built hsolve, hplaced⟩

theorem enrichAuthorized_built (h : enrichAuthorized locale budget view ingredients factFamilies options =
      some (.ok (.ok program explored))) :
    PlacedFromBuilt view ingredients options.executionEnvironment program := by
  obtain ⟨result, henrich, hresult⟩ := Option.map_eq_some_iff.mp h
  cases result with
  | failed reason exploredInvocations => cases hresult
  | ok logical exploredInvocations =>
    obtain ⟨placed, hplaced, heq⟩ := map_eq_ok hresult
    cases heq
    exact ⟨logical, planEnrichment_built henrich, hplaced⟩

theorem enrichAfterGoalsAuthorized_built
    (h : enrichAfterGoalsAuthorized locale budget view ingredients goals factFamilies options =
      some (.ok (.ok program explored))) :
    PlacedFromBuilt view ingredients options.executionEnvironment program := by
  obtain ⟨result, henrich, hresult⟩ := Option.map_eq_some_iff.mp h
  cases result with
  | failed reason exploredInvocations exploredStates => cases hresult
  | ok logical exploredInvocations exploredStates =>
    obtain ⟨placed, hplaced, heq⟩ := map_eq_ok hresult
    cases heq
    exact ⟨logical, planGoalThenEnrichment_built henrich, hplaced⟩

end Planners

instance compareTargets_consistent (locale : Locale) : Std.TransCmp (compareTargets locale) := by
  unfold compareTargets
  have hid : Std.TransCmp fun left right =>
      locale.localeCompare (targetId left) (targetId right) := transCmp_on locale.localeCompare targetId
  infer_instance

/-! ## The cheapest target -/

variable {targets : List AuthorizedActorTarget}

theorem cheapestCost_eq_iff (h : targets ≠ []) {cost : ℚ} : cheapestCost targets = cost ↔
      (∃ target ∈ targets, target.cost = cost) ∧ ∀ target ∈ targets, cost ≤ target.cost := by
  cases targets with
  | nil => exact absurd rfl h
  | cons target targets =>
    have hmin : ((target :: targets).map AuthorizedActorTarget.cost).min? = some cost ↔ _ := List.min?_eq_some_iff
    rw [List.map_cons, List.min?_cons', Option.some.injEq, ← List.map_cons] at hmin
    simpa [cheapestCost, eq_comm (a := cost)] using hmin

theorem cheapestCost_le (h : target ∈ targets) : cheapestCost targets ≤ target.cost :=
  ((cheapestCost_eq_iff (List.ne_nil_of_mem h)).mp rfl).2 target h

theorem sortBy_head_cost {locale : Locale} {rest : List AuthorizedActorTarget}
    (h : sortBy (compareTargets locale) targets = target :: rest) : cheapestCost targets = target.cost := by
  have hmem : target ∈ targets := mem_sortBy.1 (h ▸ List.mem_cons_self)
  refine (cheapestCost_eq_iff (List.ne_nil_of_mem hmem)).mpr ⟨⟨target, hmem, rfl⟩, fun other ho => ?_⟩
  have hle := sortBy_head_le (compareTargets locale) h ho
  by_contra hlt
  have hgt : compareOn AuthorizedActorTarget.cost target other = .gt := by
    simpa [compareOn, compare_gt_iff_gt] using hlt
  rw [compareTargets, compareLex, hgt] at hle
  cases hle

theorem cheapestCost_sortBy (locale : Locale) (h : targets ≠ []) :
    cheapestCost (sortBy (compareTargets locale) targets) = cheapestCost targets := by
  have hmin := (cheapestCost_eq_iff h).mp rfl
  refine (cheapestCost_eq_iff (sortBy_ne_nil h)).mpr ?_
  simpa only [mem_sortBy] using hmin

namespace PlanningRun
variable {run : PlanningRun} {snapshot : ActorRegistrySnapshot}

/-- All targets of a capability, wherever they lie, as the loops collect them. -/
def placements (run : PlanningRun) (snapshot : ActorRegistrySnapshot) (definitionRef : String)
    (capability : Capability) : List AuthorizedActorTarget :=
  ((candidateInstances snapshot definitionRef capability).flatMap fun candidate =>
      ((run.planInstance definitionRef capability candidate).map
        (instanceTarget definitionRef candidate)).toList) ++
    (candidateOffers snapshot definitionRef capability).flatMap fun offer =>
      ((run.planOffer definitionRef capability offer).map
        (factoryTarget offer (offerConfiguration run.authorization offer))).toList

theorem planInstance_eq (definitionRef : String) (capability : Capability)
    (found : List AuthorizedActorTarget) (candidate : ActorInstanceAdvertisement) :
    (AvenOS.Actors.planInstance (m := Id) run.principal run.authorization run.decide definitionRef
        capability found candidate).run =
      found ++ ((run.planInstance definitionRef capability candidate).map
        (instanceTarget definitionRef candidate)).toList := by
  unfold AvenOS.Actors.planInstance PlanningRun.planInstance
  cases hdecision : run.decide (planInstanceQuery run.principal run.authorization definitionRef
      capability candidate) with
  | allow decision =>
    simp only [bind, pure, Id.run, allowed_allow, Option.map_some, Option.toList_some]
  | deny decisionId reasonCode =>
    simp only [bind, pure, Id.run, allowed_deny, Option.map_none, Option.toList_none, List.append_nil]

theorem planOffer_eq (definitionRef : String) (capability : Capability)
    (found : List AuthorizedActorTarget) (offer : ActorFactoryOffer) :
    (AvenOS.Actors.planOffer (m := Id) run.principal run.authorization run.decide definitionRef
        capability found offer).run =
      found ++ ((run.planOffer definitionRef capability offer).map
        (factoryTarget offer (offerConfiguration run.authorization offer))).toList := by
  unfold AvenOS.Actors.planOffer PlanningRun.planOffer
  cases hdecision : run.decide (planOfferQuery run.principal run.authorization definitionRef capability offer) with
  | allow decision =>
    simp only [bind, pure, Id.run, allowed_allow, Option.map_some, Option.toList_some]
  | deny decisionId reasonCode =>
    simp only [bind, pure, Id.run, allowed_deny, Option.map_none, Option.toList_none, List.append_nil]

theorem authorizeCapability_eq (run : PlanningRun) (snapshot : ActorRegistrySnapshot)
    (definitionRef : String) (found : List AuthorizedCapability) (capability : Capability) :
    (authorizeCapability (m := Id) snapshot run.principal run.authorization run.decide run.locale
        definitionRef found capability).run =
      found ++ if (run.discover definitionRef capability).isSome &&
          !(run.placements snapshot definitionRef capability).isEmpty then
        [⟨capability, sortBy (compareTargets run.locale)
          (run.placements snapshot definitionRef capability)⟩] else [] := by
  unfold authorizeCapability discover
  rw [Id.run_bind]
  cases hdecision : run.decide (discoverQuery run.principal run.authorization definitionRef capability) with
  | deny decisionId reasonCode =>
    simp [Id.run, pure]
  | allow decision =>
    dsimp only [Id.run]
    change Id.run _ = _
    rw [Id.run_bind, foldlM_appends (planInstance_eq definitionRef capability),
      Id.run_bind, foldlM_appends (planOffer_eq definitionRef capability), List.nil_append]
    change (if run.placements snapshot definitionRef capability = [] then found else
      found ++ [⟨capability, sortBy (compareTargets run.locale)
        (run.placements snapshot definitionRef capability)⟩]) = _
    by_cases hnil : run.placements snapshot definitionRef capability = [] <;> simp [hnil]

theorem view_principal : (run.view snapshot).principal = run.principal := rfl

theorem view_access : (run.view snapshot).access = run.authorization.access.getD .empty := rfl

theorem view_capabilities : (run.view snapshot).capabilities = snapshot.definitions.flatMap fun definition =>
      definition.capabilities.flatMap fun capability => if (run.discover definition.ref capability).isSome &&
            !(run.placements snapshot definition.ref capability).isEmpty then
          [⟨capability, sortBy (compareTargets run.locale)
            (run.placements snapshot definition.ref capability)⟩] else [] := by
  have hloop := foldlM_appends (fun found (definition : ActorDefinition) =>
    foldlM_appends (authorizeCapability_eq run snapshot definition.ref)
      definition.capabilities found) snapshot.definitions []
  rw [List.nil_append] at hloop
  exact hloop

theorem filter_placements (definitionRef : String) (capability : Capability) :
    ((run.placements snapshot definitionRef capability).filter fun t =>
        t.executionEnvironment = run.environment) = run.targets snapshot definitionRef capability := by
  unfold placements targets
  rw [List.filter_append]
  congr 1
  · refine filter_flatMap_toList (fun candidate => ?_) snapshot.instances
    unfold instanceOption
    by_cases henvironment : candidate.executionEnvironment = run.environment
    · cases run.planInstance definitionRef capability candidate <;>
        simp [instanceTarget, henvironment, and_assoc, Option.filter]
    · cases run.planInstance definitionRef capability candidate <;>
        simp [instanceTarget, henvironment, Option.filter]
  · refine filter_flatMap_toList (fun offer => ?_) snapshot.offers
    unfold offerOption
    by_cases henvironment : offer.executionEnvironment = run.environment
    · cases run.planOffer definitionRef capability offer <;>
        simp [factoryTarget, henvironment, Option.filter]
    · cases run.planOffer definitionRef capability offer <;>
        simp [factoryTarget, henvironment, Option.filter]

theorem availableCapabilities_view : availableCapabilities (run.view snapshot) run.environment =
      snapshot.definitions.flatMap fun definition =>
        definition.capabilities.flatMap (run.entry snapshot definition.ref) := by
  unfold availableCapabilities
  rw [view_capabilities, List.map_flatMap, List.filter_flatMap]
  refine List.flatMap_congr fun definition _ => ?_
  rw [List.map_flatMap, List.filter_flatMap]
  refine List.flatMap_congr fun capability _ => ?_
  unfold entry offered
  rw [← filter_placements]
  cases run.discover definition.ref capability with
  | none => simp
  | some decision =>
    by_cases hnil : run.placements snapshot definition.ref capability = []
    · simp [hnil]
    · rw [if_pos (by simp [hnil])]
      simp only [List.map_cons, List.map_nil, filter_sortBy]
      generalize ((run.placements snapshot definition.ref capability).filter fun t =>
        t.executionEnvironment = run.environment) = targets
      cases targets with
      | nil => simp [sortBy]
      | cons target targets => simp [sortBy_ne_nil]

/-! ## Nothing hidden is needed -/

variable {definition : ActorDefinition} {capability : Capability}

section
variable (hdefinition : definition ∈ snapshot.definitions)
include hdefinition

theorem advertisable_of_mem {allowed : Capability → Option AllowedDecision}
    (hcapability : capability ∈ definition.capabilities)
    (hdiscover : (run.discover definition.ref capability).isSome = true)
    (hallowed : (allowed capability).isSome = true) :
    run.advertisable snapshot definition.ref capability.id allowed = true := by
  simp only [advertisable, List.any_eq_true, Bool.and_eq_true, decide_eq_true_eq]
  exact ⟨definition, hdefinition, rfl, capability, hcapability, ⟨rfl, hdiscover⟩, hallowed⟩

theorem visibleInstance_bind (hcapability : capability ∈ definition.capabilities)
    (hdiscover : (run.discover definition.ref capability).isSome = true)
    (candidate : ActorInstanceAdvertisement) : (run.visibleInstance snapshot candidate).bind
        (run.instanceOption snapshot.capturedAt definition.ref capability) =
      run.instanceOption snapshot.capturedAt definition.ref capability candidate := by
  ext target
  unfold visibleInstance
  simp only [Option.bind_eq_some_iff, Option.ite_none_right_eq_some, Option.some.injEq, instanceOption_eq_some]
  constructor
  · rintro ⟨_, ⟨-, rfl⟩, ⟨href, hid, husable, henvironment⟩, decision, hplan, htarget⟩
    exact ⟨⟨href, (List.mem_filter.mp hid).1, husable, henvironment⟩, decision, hplan, htarget⟩
  · rintro ⟨⟨href, hid, husable, henvironment⟩, decision, hplan, htarget⟩
    have hids : capability.id ∈ candidate.capabilityIds.filter fun id =>
        run.advertisable snapshot candidate.definitionRef id fun c =>
          run.planInstance candidate.definitionRef c candidate := by
      refine List.mem_filter.mpr ⟨hid, ?_⟩
      rw [href]
      exact advertisable_of_mem hdefinition hcapability hdiscover (by simp [hplan])
    exact ⟨_, ⟨⟨henvironment, List.ne_nil_of_mem hids⟩, rfl⟩,
      ⟨href, hids, husable, henvironment⟩, decision, hplan, htarget⟩

theorem visibleOffer_bind (hcapability : capability ∈ definition.capabilities)
    (hdiscover : (run.discover definition.ref capability).isSome = true) (offer : ActorFactoryOffer) :
    (run.visibleOffer snapshot offer).bind (run.offerOption definition.ref capability) =
      run.offerOption definition.ref capability offer := by
  ext target
  unfold visibleOffer
  simp only [Option.bind_eq_some_iff, Option.ite_none_right_eq_some, Option.some.injEq, offerOption_eq_some]
  constructor
  · rintro ⟨_, ⟨-, rfl⟩, ⟨href, hid, henvironment⟩, decision, hplan, htarget⟩
    exact ⟨⟨href, (List.mem_filter.mp hid).1, henvironment⟩, decision, hplan, htarget⟩
  · rintro ⟨⟨href, hid, henvironment⟩, decision, hplan, htarget⟩
    have hids : capability.id ∈ offer.capabilityIds.filter fun id =>
        run.advertisable snapshot offer.definitionRef id fun c =>
          run.planOffer offer.definitionRef c offer := by
      refine List.mem_filter.mpr ⟨hid, ?_⟩
      rw [href]
      exact advertisable_of_mem hdefinition hcapability hdiscover (by simp [hplan])
    exact ⟨_, ⟨⟨henvironment, List.ne_nil_of_mem hids⟩, rfl⟩, ⟨href, hids, henvironment⟩, decision, hplan, htarget⟩

theorem targets_visible (hcapability : capability ∈ definition.capabilities)
    (hdiscover : (run.discover definition.ref capability).isSome = true) :
    run.targets (run.visible snapshot) definition.ref capability = run.targets snapshot definition.ref capability := by
  simp only [targets, visible, List.filterMap_filterMap, visibleInstance_bind hdefinition hcapability hdiscover,
    visibleOffer_bind hdefinition hcapability hdiscover]

theorem entry_visible (hcapability : capability ∈ definition.capabilities) :
    run.entry (run.visible snapshot) definition.ref capability = run.entry snapshot definition.ref capability := by
  unfold entry offered
  cases hdiscover : run.discover definition.ref capability with
  | none => rfl
  | some decision => rw [targets_visible hdefinition hcapability (by simp [hdiscover])]

end

theorem availableCapabilities_visible : availableCapabilities (run.view (run.visible snapshot)) run.environment =
      availableCapabilities (run.view snapshot) run.environment := by
  rw [availableCapabilities_view, availableCapabilities_view]
  refine flatMap_filterMap fun definition hdefinition => ?_
  have hentries : (definition.capabilities.filter (run.offered snapshot definition.ref)).flatMap
      (run.entry (run.visible snapshot) definition.ref) =
        definition.capabilities.flatMap (run.entry snapshot definition.ref) := by
    rw [flatMap_filter]
    · exact List.flatMap_congr fun capability hcapability => entry_visible hdefinition hcapability
    · intro capability hcapability hoffered
      rw [entry_visible hdefinition hcapability, entry, hoffered]
      rfl
  unfold visibleDefinition
  by_cases hnil : definition.capabilities.filter (run.offered snapshot definition.ref) = []
  · rw [if_pos hnil, ← hentries, hnil]
    rfl
  · rw [if_neg hnil, ← hentries]
    rfl

/-! ## What planners make of the entries -/

theorem physicalProgram_forget {α : Type} {make : PhysicalProgram → α} {forget : α → α}
    (hmake : ∀ program, forget (make program) = forget (make program.forgetRevision))
    (other : ActorRegistrySnapshot) (logical : AdHocProgram)
    (capabilities : List AuthorizedCapability) (environment : ExecutionEnvironment) :
    ((physicalProgram (run.view snapshot) logical capabilities environment).map make).map forget =
      ((physicalProgram (run.view other) logical capabilities environment).map make).map forget := by
  unfold physicalProgram
  rw [view_principal, view_principal, view_access, view_access]
  cases logical.steps.mapM (attach capabilities) with
  | error e => rfl
  | ok steps =>
    refine congrArg Except.ok ?_
    conv_lhs => rw [hmake]
    conv_rhs => rw [hmake]
    rfl

variable {other : ActorRegistrySnapshot} {program : PhysicalProgram}

theorem outcomes_congr (h : availableCapabilities (run.view snapshot) run.environment =
      availableCapabilities (run.view other) run.environment) :
    (run.outcomes snapshot).forgetRevision = (run.outcomes other).forgetRevision := by
  unfold environment at h
  unfold outcomes Outcomes.forgetRevision solveAuthorized enrichAuthorized enrichAfterGoalsAuthorized
  simp only [h, Option.map_map]
  congr 2
  · funext result
    cases result with
    | failed unmetGoals exploredStates reason => rfl
    | ok logical exploredStates => exact physicalProgram_forget (fun _ => rfl) other logical _ _
  · funext result
    cases result with
    | failed reason exploredInvocations => rfl
    | ok logical exploredInvocations => exact physicalProgram_forget (fun _ => rfl) other logical _ _
  · funext result
    cases result with
    | failed reason exploredInvocations exploredStates => rfl
    | ok logical exploredInvocations exploredStates =>
      exact physicalProgram_forget (fun _ => rfl) other logical _ _

theorem outcomes_visible (h : run.visible snapshot = run.visible other) :
    (run.outcomes snapshot).forgetRevision = (run.outcomes other).forgetRevision := by
  apply outcomes_congr
  rw [← availableCapabilities_visible, h, availableCapabilities_visible]

/-! ## What a step is placed on -/

/-- An allowed target that advertises the capability, in the environment and not expired. -/
def Usable (run : PlanningRun) (snapshot : ActorRegistrySnapshot) (capabilityId : String)
    (target : AuthorizedActorTarget) : Prop :=
  ∃ definition ∈ snapshot.definitions, ∃ capability ∈ definition.capabilities,
    capability.id = capabilityId ∧ run.offered snapshot definition.ref capability = true ∧
      target ∈ run.targets snapshot definition.ref capability

/-- A step applies an offered capability, on a cheapest target, at the cost of both. -/
structure PlacedStep (run : PlanningRun) (snapshot : ActorRegistrySnapshot)
    (step : PhysicalPlanStep) : Prop where
  usable : run.Usable snapshot step.capability step.target
  environment : step.target.executionEnvironment = run.environment
  cheapest : ∀ target, run.Usable snapshot step.capability target → step.target.cost ≤ target.cost
  paid : ∃ definition ∈ snapshot.definitions, ∃ capability ∈ definition.capabilities,
    run.offered snapshot definition.ref capability = true ∧ step.capability = capability.id ∧
      step.actor = capability.actor ∧ step.method = capability.method ∧
        step.cost = capability.cost.getD 1 + step.target.cost

structure WellPlaced (run : PlanningRun) (snapshot : ActorRegistrySnapshot)
    (program : PhysicalProgram) : Prop where
  steps : ∀ step ∈ program.steps, run.PlacedStep snapshot step
  totalCost : program.totalCost = (program.steps.map fun step => step.cost).sum

def Returns (run : PlanningRun) (snapshot : ActorRegistrySnapshot) (program : PhysicalProgram) :
    Prop :=
  (∃ explored, (run.outcomes snapshot).solved = some (.ok (.ok program explored))) ∨
  (∃ explored, (run.outcomes snapshot).enriched = some (.ok (.ok program explored))) ∨
  ∃ explored, (run.outcomes snapshot).enrichedAfterGoals = some (.ok (.ok program explored))

/-- Offered capabilities that share an id have equally cheap targets. -/
def SharedIdsCostAlike (run : PlanningRun) (snapshot : ActorRegistrySnapshot) : Prop :=
  ∀ definition ∈ snapshot.definitions, ∀ capability ∈ definition.capabilities,
    ∀ definition' ∈ snapshot.definitions, ∀ capability' ∈ definition'.capabilities,
      capability.id = capability'.id →
      run.offered snapshot definition.ref capability = true →
      run.offered snapshot definition'.ref capability' = true →
        cheapestCost (run.targets snapshot definition.ref capability) =
          cheapestCost (run.targets snapshot definition'.ref capability')

theorem mem_available {entry : AuthorizedCapability} :
    entry ∈ availableCapabilities (run.view snapshot) run.environment ↔
      ∃ definition ∈ snapshot.definitions, ∃ capability ∈ definition.capabilities,
        run.offered snapshot definition.ref capability = true ∧ entry = ⟨capability, sortBy (compareTargets run.locale)
            (run.targets snapshot definition.ref capability)⟩ := by
  rw [availableCapabilities_view]
  simp only [List.mem_flatMap, PlanningRun.entry, List.mem_ite_nil_right, List.mem_singleton]

/-! ## The second lookup -/

theorem attachedTarget_offered (hdefinition : definition ∈ snapshot.definitions)
    (hcapability : capability ∈ definition.capabilities)
    (hoffered : run.offered snapshot definition.ref capability = true) :
    ∃ definition' ∈ snapshot.definitions, ∃ capability' ∈ definition'.capabilities,
      capability'.id = capability.id ∧ run.offered snapshot definition'.ref capability' = true ∧
      ∃ target ∈ run.targets snapshot definition'.ref capability',
        attachedTarget (availableCapabilities (run.view snapshot) run.environment) capability.id = some target ∧
          target.cost = cheapestCost (run.targets snapshot definition'.ref capability') := by
  have hentry := mem_available.2 ⟨definition, hdefinition, capability, hcapability, hoffered, rfl⟩
  unfold attachedTarget
  cases hfind : (availableCapabilities (run.view snapshot) run.environment).reverse.find?
      fun entry => entry.capability.id == capability.id with
  | none =>
    have hnone := List.find?_eq_none.mp hfind _ (List.mem_reverse.mpr hentry)
    simp at hnone
  | some entry =>
    have hid : entry.capability.id = capability.id := by simpa using List.find?_some hfind
    obtain ⟨definition', hdefinition', capability', hcapability', hoffered', rfl⟩ :=
      mem_available.1 (List.mem_reverse.mp (List.mem_of_find?_eq_some hfind))
    refine ⟨definition', hdefinition', capability', hcapability', hid, hoffered', ?_⟩
    have hne : run.targets snapshot definition'.ref capability' ≠ [] := by
      intro hnil
      simp [offered, hnil] at hoffered'
    cases hsorted : sortBy (compareTargets run.locale) (run.targets snapshot definition'.ref capability') with
    | nil => exact absurd hsorted (sortBy_ne_nil hne)
    | cons target rest =>
      exact ⟨target, mem_sortBy.1 (hsorted ▸ List.mem_cons_self), rfl, (sortBy_head_cost hsorted).symm⟩

def AttachesAsPriced (run : PlanningRun) (snapshot : ActorRegistrySnapshot) : Prop :=
  ∀ definition ∈ snapshot.definitions, ∀ capability ∈ definition.capabilities,
    run.offered snapshot definition.ref capability = true →
      ∃ target, attachedTarget (availableCapabilities (run.view snapshot) run.environment)
            capability.id = some target ∧
          target.cost = cheapestCost (run.targets snapshot definition.ref capability)

theorem attached_as_priced_iff : run.AttachesAsPriced snapshot ↔ run.SharedIdsCostAlike snapshot := by
  constructor
  · intro h definition hdefinition capability hcapability definition' hdefinition' capability'
      hcapability' hid hoffered hoffered'
    obtain ⟨target, htarget, hcost⟩ := h definition hdefinition capability hcapability hoffered
    obtain ⟨target', htarget', hcost'⟩ := h definition' hdefinition' capability' hcapability' hoffered'
    rw [hid, htarget', Option.some.injEq] at htarget
    rw [← hcost, ← hcost', htarget]
  · intro h definition hdefinition capability hcapability hoffered
    obtain ⟨definition', hdefinition', capability', hcapability', hid, hoffered', target, -,
      hattached, hcost⟩ := attachedTarget_offered hdefinition hcapability hoffered
    exact ⟨target, hattached, hcost.trans (h definition' hdefinition' capability' hcapability'
      definition hdefinition capability hcapability hid hoffered' hoffered)⟩

theorem placedStep_of_applies (hshared : run.SharedIdsCostAlike snapshot) {facts : List PlanValue}
    {placed : Capability} {m : RequirementMatch} {taken : ℕ} {step : PhysicalPlanStep}
    (happlies : Applies ((availableCapabilities (run.view snapshot) run.environment).map
      placedCapability) facts placed m) (hlogical : step.toPlanStep = planStep placed m taken)
    (hattach : attachedTarget (availableCapabilities (run.view snapshot) run.environment)
      step.capability = some step.target) : run.PlacedStep snapshot step := by
  obtain ⟨entry, hentry, rfl⟩ := List.mem_map.mp happlies.listed
  obtain ⟨definition, hdefinition, capability, hcapability, hoffered, rfl⟩ := mem_available.1 hentry
  obtain ⟨definition', hdefinition', capability', hcapability', hid, hoffered', target, htarget,
    hattached, hcost⟩ := attachedTarget_offered hdefinition hcapability hoffered
  obtain ⟨logical, attached⟩ := step
  dsimp only at hlogical hattach
  subst hlogical
  cases Option.some.inj (hattached.symm.trans hattach)
  have hprice := hcost.trans (hshared definition' hdefinition' capability' hcapability' definition
    hdefinition capability hcapability hid hoffered' hoffered)
  refine ⟨⟨definition', hdefinition', capability', hcapability', hid, hoffered', htarget⟩,
    mem_targets_environment htarget, ?_, ?_⟩
  · rintro other ⟨definition'', hdefinition'', capability'', hcapability'', hid'', hoffered'', hother⟩
    rw [hcost, hshared definition' hdefinition' capability' hcapability' definition'' hdefinition''
      capability'' hcapability'' (hid.trans hid''.symm) hoffered' hoffered'']
    exact cheapestCost_le hother
  · refine ⟨definition, hdefinition, capability, hcapability, hoffered, rfl, rfl, rfl, ?_⟩
    have hne : run.targets snapshot definition.ref capability ≠ [] := by
      intro hnil
      simp [offered, hnil] at hoffered
    simp only [planStep, placedCapability, Option.getD_some, cheapestCost_sortBy run.locale hne, hprice]

theorem wellPlaced_of_built (hshared : run.SharedIdsCostAlike snapshot) {logical : AdHocProgram}
    (hbuilt : Built ((availableCapabilities (run.view snapshot) run.environment).map
      placedCapability) run.ingredients logical) (hprogram : physicalProgram (run.view snapshot) logical
      (availableCapabilities (run.view snapshot) run.environment) run.environment = .ok program) :
    run.WellPlaced snapshot program := by
  obtain ⟨hlogical, hattached⟩ := physicalProgram_steps hprogram
  refine ⟨fun step hstep => ?_, ?_⟩
  · obtain ⟨hmem, htarget⟩ := hattached step hstep
    obtain ⟨before, after, placed, m, -, happlies, heq⟩ := hbuilt.derived.mem hmem
    exact placedStep_of_applies hshared happlies heq htarget
  · rw [(physicalProgram_fields hprogram).1, hbuilt.totalCost, ← hlogical, List.map_map]
    rfl

/-- Nothing hidden matters, and every program is placed on what was paid for. -/
structure PlansFaithfully (run : PlanningRun) (snapshot : ActorRegistrySnapshot) : Prop where
  noninterference : ∀ other, run.visible snapshot = run.visible other →
    (run.outcomes snapshot).forgetRevision = (run.outcomes other).forgetRevision
  placement : ∀ program, run.Returns snapshot program → run.WellPlaced snapshot program

theorem returns_placed (hshared : run.SharedIdsCostAlike snapshot) (h : run.Returns snapshot program) :
    run.WellPlaced snapshot program := by
  have hplaced : PlacedFromBuilt (run.view snapshot) run.ingredients run.environment program := by
    rcases h with ⟨explored, h⟩ | ⟨explored, h⟩ | ⟨explored, h⟩
    · exact solveAuthorized_built h
    · exact enrichAuthorized_built h
    · exact enrichAfterGoalsAuthorized_built h
  obtain ⟨logical, hbuilt, hprogram⟩ := hplaced
  exact wellPlaced_of_built hshared hbuilt hprogram

end PlanningRun

/-! ## Two definitions with one capability id -/

def copyId : String := "os.aven:capability:acme.docs.pages:copy@1"

def pagesRef : String := "os.aven:actor:acme:docs.pages@1"

def docsRef : String := "os.aven:actor:acme.docs:pages@1"

def copierDefinition (ref : String) : ActorDefinition :=
  ⟨ref, [⟨copyId, ref, "copy", ["page(X)"], ["copy(X)"], none, none, none, none, none⟩]⟩

def copierOffer (ref : String) (cost : ℚ) : ActorFactoryOffer :=
  ⟨ref ++ "-offer", ref ++ "-factory", ref, [copyId], .server, none, some cost, none⟩

/-- Both actors have a method `copy`; the second is made at its own cost. -/
def copierSnapshot (cost : ℚ) : ActorRegistrySnapshot :=
  ⟨1, "2024-01-01T00:00:00.000Z", [copierDefinition pagesRef, copierDefinition docsRef], [],
    [copierOffer pagesRef 0, copierOffer docsRef cost]⟩

def copierRun : PlanningRun where
  locale := .plain
  budget := 20
  decide := fun _ => .allow ⟨"decision", none⟩
  principal := ⟨"alice", .user, [], none⟩
  authorization := ⟨none, [], none⟩
  ingredients := [⟨"page(a)", some "artifact-1"⟩]
  goals := ["copy(a)"]
  factFamilies := ["copy"]
  planning := ⟨none, none, .server⟩

def solvedCosts (run : PlanningRun) (snapshot : ActorRegistrySnapshot) :
    Option (List (ℚ × ℚ)) :=
  match (run.outcomes snapshot).solved with
  | some (.ok (.ok program _)) => some (program.steps.map fun s => (s.cost, s.target.cost))
  | _ => none

theorem returns_of_solvedCosts {run : PlanningRun} {snapshot : ActorRegistrySnapshot}
    {costs : List (ℚ × ℚ)} (h : solvedCosts run snapshot = some costs) :
    ∃ program, run.Returns snapshot program ∧ program.steps.map (fun s => (s.cost, s.target.cost)) = costs := by
  unfold solvedCosts at h
  split at h
  · rename_i program explored hsolved
    exact ⟨program, Or.inl ⟨explored, hsolved⟩, Option.some.inj h⟩
  · cases h

end AvenOS.Actors
