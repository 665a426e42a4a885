import AvenOS.Actors.Term
import AvenOS.Foundations.StableSort
import Mathlib.Data.ENat.Basic
import Mathlib.Algebra.Order.Ring.Rat

/-! # The capability planner

The data and the three planners of `planner.ts`: `solve` (uniform-cost search for one cheapest
program), `planEnrichment` (every admitted invocation, once) and `planGoalThenEnrichment`. A loop
of the source that has no bound of its own runs on a budget here and answers `none` when it is
spent; costs are rationals, and the order of `localeCompare` is any consistent comparator. -/
namespace AvenOS.Actors
open Text StableSort

structure Locale where
  localeCompare : String → String → Ordering
  consistent : Std.TransCmp localeCompare

instance (locale : Locale) : Std.TransCmp locale.localeCompare := locale.consistent

/-- A bound on a count: a number, or `Infinity`. -/
abbrev Limit := ℕ∞

inductive Mode
  | transform
  | observe
  | effect
  | stream
  | view
deriving DecidableEq, Repr

inductive Cardinality
  | one
  | optional
  | many
deriving DecidableEq, Repr

structure CapabilitySlot where
  name : String
  predicate : Predicate
  schema : Option String
  role : Option String
  cardinality : Cardinality
deriving DecidableEq, Repr

/-- One invocable operation advertised by an actor. -/
structure Capability where
  id : String
  actor : String
  method : String
  requires : List Predicate
  produces : List Predicate
  cost : Option ℚ
  available : Option Bool
  mode : Option Mode
  inputSlots : Option (List CapabilitySlot)
  outputSlots : Option (List CapabilitySlot)
deriving DecidableEq, Repr

/-- A durable value which is already available when planning starts. -/
structure Ingredient where
  predicate : Predicate
  artifactId : Option String
deriving DecidableEq, Repr

inductive ValueSource
  | ingredient (artifactId : Option String)
  | step (stepId : String) (output : ℕ)
deriving DecidableEq, Repr

structure PlanValue where
  predicate : Predicate
  source : ValueSource
deriving DecidableEq, Repr

structure PlanStep where
  id : String
  capability : String
  actor : String
  method : String
  inputs : List PlanValue
  outputs : List PlanValue
  dependsOn : List String
  cost : ℚ
deriving DecidableEq, Repr

structure AdHocProgram where
  goals : List Predicate
  steps : List PlanStep
  totalCost : ℚ
  /-- Final facts, including their symbolic or durable source. -/
  results : List PlanValue
deriving DecidableEq, Repr

inductive SolveResult
  | ok (program : AdHocProgram) (exploredStates : ℕ)
  | failed (unmetGoals : List Predicate) (exploredStates : ℕ) (reason : String)
deriving DecidableEq, Repr

structure SolveOptions where
  maxSteps : Option Limit
  maxStates : Option Limit

structure EnrichmentOptions where
  /-- Predicate functors or namespace prefixes admitted by the skill. -/
  factFamilies : List String
  maxSteps : Option Limit

inductive EnrichmentPlanResult
  | ok (program : AdHocProgram) (exploredInvocations : ℕ)
  | failed (reason : String) (exploredInvocations : ℕ)
deriving DecidableEq, Repr

inductive GoalThenEnrichmentPlanResult
  | ok (program : AdHocProgram) (exploredInvocations exploredStates : ℕ)
  | failed (reason : String) (exploredInvocations exploredStates : ℕ)
deriving DecidableEq, Repr

def DEFAULT_MAX_STEPS : Limit := 24
def DEFAULT_MAX_STATES : Limit := 2000
def DEFAULT_MAX_ENRICHMENT_STEPS : Limit := 512

def Limit.text (limit : Limit) : String :=
  match limit with
  | ⊤ => "Infinity"
  | (n : ℕ) => toString n

/-- An empty artifact id is left out, as the truth test of the source does. -/
def truthy (text : Option String) : Option String := text.filter (· ≠ "")

def ingredientValue (ingredient : Ingredient) : PlanValue :=
  ⟨ingredient.predicate, .ingredient (truthy ingredient.artifactId)⟩

/-! ## Matching requirements -/

structure RequirementMatch where
  bindings : Bindings
  inputs : List PlanValue
deriving DecidableEq, Repr

inductive RequirementSearchLimit
  | reached
deriving DecidableEq, Repr

structure MatchOptions where
  maxAttempts : Limit
  maxMatches : Limit

def MatchOptions.unlimited : MatchOptions := ⟨⊤, ⊤⟩

/-- What the nested `visit` has written so far. -/
structure Visit where
  found : List RequirementMatch
  attempts : ℕ

def candidates (requirement : Predicate) (facts : List PlanValue) : List PlanValue :=
  let term := parseTerm requirement
  facts.filter fun fact =>
    let other := parseTerm fact.predicate
    other.functor == term.functor && other.args.length == term.args.length

def visit (options : MatchOptions) : List (Predicate × List PlanValue) → Bindings →
    List PlanValue → Visit → Except RequirementSearchLimit Visit
  | [], bindings, inputs, v =>
    if options.maxMatches ≤ v.found.length then .ok v
    else .ok { v with found := v.found ++ [⟨bindings, inputs⟩] }
  | (requirement, facts) :: rest, bindings, inputs, v =>
    if options.maxMatches ≤ v.found.length then .ok v
    else
      facts.foldlM (fun v fact =>
        if options.maxMatches ≤ v.found.length then .ok v
        else if options.maxAttempts < v.attempts + 1 then .error .reached
        else
          let v := { v with attempts := v.attempts + 1 }
          match unify requirement fact.predicate bindings with
          | none => .ok v
          | some next => visit options rest next (inputs ++ [fact]) v) v

def matchRequirementsWith (options : MatchOptions) (requirements : List Predicate)
    (facts : List PlanValue) : Except RequirementSearchLimit (List RequirementMatch) :=
  if requirements = [] then .ok [⟨[], []⟩]
  else
    (visit options (requirements.map fun r => (r, candidates r facts)) [] [] ⟨[], 0⟩).map
      Visit.found

/-- Without limits nothing is thrown: `matchRequirementsWith_unlimited`. -/
def matchRequirements (requirements : List Predicate) (facts : List PlanValue) :
    List RequirementMatch :=
  match matchRequirementsWith .unlimited requirements facts with
  | .ok found => found
  | .error _ => []

/-! ## The cheapest program -/

structure SearchState where
  facts : List PlanValue
  steps : List PlanStep
  cost : ℚ
deriving DecidableEq, Repr

def resolveGoals (goals : List Predicate) (facts : List PlanValue) : Option (List PlanValue) :=
  (matchRequirements goals facts).head?.map RequirementMatch.inputs

/-- The code units a string is compared by when `sort` has no comparator. -/
def codeUnits (text : String) : List ℕ :=
  text.toList.flatMap fun c =>
    if c.toNat < 0x10000 then [c.toNat]
    else [0xD800 + (c.toNat - 0x10000) / 0x400, 0xDC00 + (c.toNat - 0x10000) % 0x400]

def compareText (a b : String) : Ordering := compare (codeUnits a) (codeUnits b)

def Locale.plain : Locale :=
  ⟨compareText, by unfold compareText; exact inferInstanceAs (Std.TransCmp (compareOn codeUnits))⟩

def stateKey (state : SearchState) : String :=
  "|".intercalate (sortBy compareText (state.facts.map PlanValue.predicate))

def compareStates (locale : Locale) : SearchState → SearchState → Ordering :=
  compareLex (compareOn SearchState.cost) <|
    compareLex (compareOn fun s => s.steps.length) fun a b =>
      locale.localeCompare (stateKey a) (stateKey b)

def byId (locale : Locale) (a b : Capability) : Ordering := locale.localeCompare a.id b.id

/-- Values as a `Set` keeps them: each once, where it was first added. -/
def unique (ids : List String) : List String := ids.eraseDups

def stepName (n : ℕ) : String := "step-" ++ toString n

def sourceSteps (inputs : List PlanValue) : List String :=
  inputs.flatMap fun input =>
    match input.source with
    | .step stepId _ => [stepId]
    | .ingredient _ => []

/-- The step that invokes a capability after `taken` steps, with the outputs it promises. -/
def planStep (capability : Capability) (m : RequirementMatch) (taken : ℕ) : PlanStep :=
  let stepId := stepName (taken + 1)
  { id := stepId
    capability := capability.id
    actor := capability.actor
    method := capability.method
    inputs := m.inputs
    outputs := capability.produces.mapIdx fun output p =>
      ⟨substitute p m.bindings, .step stepId output⟩
    dependsOn := unique (sourceSteps m.inputs)
    cost := capability.cost.getD 1 }

/-- Every output is already unifiable with a known fact. -/
def addsNothing (capability : Capability) (m : RequirementMatch) (facts : List PlanValue) : Bool :=
  (capability.produces.map fun p => substitute p m.bindings).all fun p =>
    facts.any fun f => (unify f.predicate p []).isSome

def successor (state : SearchState) (capability : Capability) (m : RequirementMatch) :
    SearchState :=
  let step := planStep capability m state.steps.length
  { facts := state.facts ++ step.outputs
    steps := state.steps ++ [step]
    cost := state.cost + step.cost }

/-- What the two nested loops of `solve` push on the queue. -/
def successors (locale : Locale) (capabilities : List Capability) (state : SearchState) :
    List SearchState :=
  (sortBy (byId locale) capabilities).flatMap fun capability =>
    if capability.available = some false then []
    else
      ((matchRequirements capability.requires state.facts).filter fun m =>
        !addsNothing capability m state.facts).map (successor state capability)

/-- One capability in one pass of `closure`: its first match only. -/
def closeCapability (state : List PlanValue × Bool) (capability : Capability) :
    List PlanValue × Bool :=
  if capability.available = some false then state
  else
    match (matchRequirements capability.requires state.1).head? with
    | none => state
    | some m =>
      (capability.produces.map fun p => substitute p m.bindings).foldl (fun state predicate =>
        if state.1.any fun fact => (unify fact.predicate predicate []).isSome then state
        else (state.1 ++ [⟨predicate, .step ("closure-" ++ capability.id) 0⟩], true)) state

/-- A cheap reachability pass used only to make failure diagnostics useful. -/
def closure (capabilities : List Capability) (maxSteps : Limit) :
    ℕ → ℕ → List PlanValue → Option (List PlanValue)
  | budget, pass, facts =>
    if maxSteps ≤ pass then some facts
    else
      match budget with
      | 0 => none
      | budget + 1 =>
        let (facts', changed) := capabilities.foldl closeCapability (facts, false)
        if changed then closure capabilities maxSteps budget (pass + 1) facts' else some facts'

/-- The variables of the search loop. -/
structure Search where
  queue : List SearchState
  best : List (String × ℚ)
  exploredStates : ℕ

def Search.start (ingredients : List Ingredient) : Search :=
  ⟨[⟨ingredients.map ingredientValue, [], 0⟩], [], 0⟩

section Solve
variable (locale : Locale) (capabilities : List Capability) (ingredients : List Ingredient)
  (goals : List Predicate) (maxSteps maxStates : Limit)

/-- What `solve` returns when the loop ends without a program. -/
def unsolved (budget exploredStates : ℕ) : Option SolveResult :=
  (closure capabilities maxSteps budget 0 (ingredients.map ingredientValue)).map fun reachable =>
    let unmetGoals := goals.filter fun goal =>
      !reachable.any fun fact => (unify goal fact.predicate []).isSome
    .failed unmetGoals exploredStates <|
      if maxStates ≤ exploredStates then "search limit reached after " ++ maxStates.text ++ " states"
      else "no program produces: " ++ ", ".intercalate unmetGoals

/-- What one round of the loop does: stop with a program, stop without, or go on. -/
inductive Round
  | solved (program : AdHocProgram) (exploredStates : ℕ)
  | stopped (exploredStates : ℕ)
  | next (search : Search)

def searchRound (search : Search) : Round :=
  if maxStates ≤ search.exploredStates then .stopped search.exploredStates
  else
    match sortBy (compareStates locale) search.queue with
    | [] => .stopped search.exploredStates
    | state :: queue =>
      let key := stateKey state
      if (search.best.lookup key).any fun known => known ≤ state.cost then
        .next { search with queue }
      else
        let best := (key, state.cost) :: search.best
        let exploredStates := search.exploredStates + 1
        match resolveGoals goals state.facts with
        | some results => .solved ⟨goals, state.steps, state.cost, results⟩ exploredStates
        | none =>
          if maxSteps ≤ state.steps.length then .next ⟨queue, best, exploredStates⟩
          else .next ⟨queue ++ successors locale capabilities state, best, exploredStates⟩

def searchLoop (budget : ℕ) : ℕ → Search → Option SolveResult
  | 0, _ => none
  | rounds + 1, search =>
    match searchRound locale capabilities goals maxSteps maxStates search with
    | .solved program exploredStates => some (.ok program exploredStates)
    | .stopped exploredStates =>
      unsolved capabilities ingredients goals maxSteps maxStates budget exploredStates
    | .next search => searchLoop budget rounds search

end Solve

/-- Compile a goal into the cheapest program reachable from the supplied facts. -/
def solve (locale : Locale) (budget : ℕ) (capabilities : List Capability)
    (ingredients : List Ingredient) (goals : List Predicate) (options : SolveOptions) :
    Option SolveResult :=
  searchLoop locale capabilities ingredients goals (options.maxSteps.getD DEFAULT_MAX_STEPS)
    (options.maxStates.getD DEFAULT_MAX_STATES) budget budget (.start ingredients)

/-! ## Enrichment -/

def belongsToFactFamilies (predicate : Predicate) (families : List String) : Bool :=
  let name := functor predicate
  families.any fun family => name == family || (family ++ ".").toList.isPrefixOf name.toList

def nul : String := "\x00"

def planValueKey (value : PlanValue) : String :=
  match value.source with
  | .step stepId output => value.predicate ++ nul ++ "step:" ++ stepId ++ ":" ++ toString output
  | .ingredient artifactId => value.predicate ++ nul ++ "ingredient:" ++ artifactId.getD ""

def invocationKey (capabilityId : String) (inputs : List PlanValue) : String :=
  capabilityId ++ nul ++ nul.intercalate (inputs.map planValueKey)

def findStep (steps : List PlanStep) (stepId : String) : Option PlanStep :=
  steps.find? fun candidate => candidate.id == stepId

/-- Depth-first through the producing steps; `visited` holds the steps met so far and is handed on,
as the shared `Set` of the source is. The budget bounds the depth. -/
def ancestry (capabilityId : String) (steps : List PlanStep) :
    ℕ → List String → PlanValue → Bool × List String
  | 0, visited, _ => (false, visited)
  | depth + 1, visited, value =>
    match value.source with
    | .ingredient _ => (false, visited)
    | .step stepId _ =>
      if stepId ∈ visited then (false, visited)
      else
        let visited := stepId :: visited
        match findStep steps stepId with
        | none => (false, visited)
        | some step =>
          if step.capability = capabilityId then (true, visited)
          else
            step.inputs.foldl (fun (found, visited) input =>
              if found then (true, visited)
              else ancestry capabilityId steps depth visited input) (false, visited)

/-- Every level of the recursion meets a step it has not met before, so the steps bound it. -/
def hasCapabilityInAncestry (value : PlanValue) (capabilityId : String) (steps : List PlanStep) :
    Bool := (ancestry capabilityId steps (steps.length + 1) [] value).1

/-- The variables of the enrichment loop. -/
structure Enrichment where
  facts : List PlanValue
  steps : List PlanStep
  invoked : List String
  changed : Bool

def eligible (locale : Locale) (capabilities : List Capability) (factFamilies : List String) :
    List Capability :=
  sortBy (byId locale) <| capabilities.filter fun capability =>
    capability.available ≠ some false &&
      (capability.mode = none || capability.mode = some .observe ||
        capability.mode = some .transform) &&
      capability.produces.any fun predicate => belongsToFactFamilies predicate factFamilies

section Enrich
variable (maxSteps : Limit)

/-- One match of one capability; `.error` is the safety limit, with the invocations made so far. -/
def enrichMatch (capability : Capability) (e : Enrichment) (m : RequirementMatch) :
    Except ℕ Enrichment :=
  if m.inputs.any fun input => hasCapabilityInAncestry input capability.id e.steps then .ok e
  else
    let invocation := invocationKey capability.id m.inputs
    if invocation ∈ e.invoked then .ok e
    else if maxSteps ≤ e.steps.length then .error e.invoked.length
    else
      let step := planStep capability m e.steps.length
      .ok ⟨e.facts ++ step.outputs, e.steps ++ [step], e.invoked ++ [invocation], true⟩

def enrichCapability (e : Enrichment) (capability : Capability) : Except ℕ Enrichment :=
  (matchRequirements capability.requires e.facts).foldlM (enrichMatch maxSteps capability) e

def enrichPass (admitted : List Capability) (e : Enrichment) : Except ℕ Enrichment :=
  admitted.foldlM (enrichCapability maxSteps) { e with changed := false }

def enrichLoop (admitted : List Capability) : ℕ → Enrichment → Option (Except ℕ Enrichment)
  | 0, _ => none
  | budget + 1, e =>
    match enrichPass maxSteps admitted e with
    | .error explored => some (.error explored)
    | .ok e => if e.changed then enrichLoop admitted budget e else some (.ok e)

end Enrich

def expandEnrichment (locale : Locale) (budget : ℕ) (capabilities : List Capability)
    (facts : List PlanValue) (initialSteps : List PlanStep) (options : EnrichmentOptions)
    (goals : List Predicate) : Option EnrichmentPlanResult :=
  let maxSteps := options.maxSteps.getD DEFAULT_MAX_ENRICHMENT_STEPS
  let invoked := unique (initialSteps.map fun step => invocationKey step.capability step.inputs)
  (enrichLoop maxSteps (eligible locale capabilities options.factFamilies) budget
    ⟨facts, initialSteps, invoked, false⟩).map fun
  | .error explored =>
    .failed ("enrichment safety limit reached after " ++ maxSteps.text ++ " steps") explored
  | .ok e =>
    .ok ⟨goals, e.steps, (e.steps.map PlanStep.cost).foldl (· + ·) 0, e.facts⟩ e.invoked.length

/-- Plan every applicable non-effecting capability once for each distinct input binding. -/
def planEnrichment (locale : Locale) (budget : ℕ) (capabilities : List Capability)
    (ingredients : List Ingredient) (options : EnrichmentOptions) : Option EnrichmentPlanResult :=
  expandEnrichment locale budget capabilities (ingredients.map ingredientValue) [] options []

/-- Prove directed goals first, then exhaust the admitted non-effecting frontier. -/
def planGoalThenEnrichment (locale : Locale) (budget : ℕ) (capabilities : List Capability)
    (ingredients : List Ingredient) (goals : List Predicate) (options : EnrichmentOptions)
    (maxStates : Option Limit) : Option GoalThenEnrichmentPlanResult :=
  match solve locale budget capabilities ingredients goals ⟨options.maxSteps, maxStates⟩ with
  | none => none
  | some (.failed _ exploredStates reason) => some (.failed reason 0 exploredStates)
  | some (.ok exact exploredStates) =>
    let facts := ingredients.map ingredientValue ++ exact.steps.flatMap PlanStep.outputs
    (expandEnrichment locale budget capabilities facts exact.steps options goals).map fun
    | .ok program exploredInvocations => .ok program exploredInvocations exploredStates
    | .failed reason exploredInvocations => .failed reason exploredInvocations exploredStates

end AvenOS.Actors
