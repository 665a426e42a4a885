import AvenOS.Actors.Matching
import Mathlib.Algebra.BigOperators.Group.List.Basic

/-! # What every planner builds is executable

Both planners append steps in one way: a capability, a match of its requirements against the facts
there are, and the step they make. `Derived` says so, and everything an executor relies on is read
off a derivation. -/
namespace AvenOS.Actors
open StableSort

def factsAfter (start : List PlanValue) (steps : List PlanStep) : List PlanValue :=
  start ++ steps.flatMap PlanStep.outputs

structure Applies (capabilities : List Capability) (facts : List PlanValue)
    (capability : Capability) (m : RequirementMatch) : Prop where
  listed : capability ∈ capabilities
  available : capability.available ≠ some false
  matched : m ∈ matchRequirements capability.requires facts

inductive Derived (capabilities : List Capability) (start : List PlanValue) : List PlanStep → Prop
  | nil : Derived capabilities start []
  | snoc {steps : List PlanStep} {capability : Capability} {m : RequirementMatch} :
      Derived capabilities start steps →
      Applies capabilities (factsAfter start steps) capability m →
      Derived capabilities start (steps ++ [planStep capability m steps.length])

section Derived
variable {capabilities : List Capability} {start : List PlanValue} {steps : List PlanStep}

theorem factsAfter_snoc (step : PlanStep) :
    factsAfter start (steps ++ [step]) = factsAfter start steps ++ step.outputs := by
  simp [factsAfter]

theorem stepName_injective : Function.Injective stepName := by
  intro m n h
  have htext : toString m = toString n := by
    simpa [stepName, ← String.toList_inj] using h
  exact Text.toString_nat_injective htext

theorem mem_unique {id : String} {ids : List String} : id ∈ unique ids ↔ id ∈ ids := by
  simp [unique]

theorem nodup_unique (ids : List String) : (unique ids).Nodup := by
  induction hn : ids.length using Nat.strongRecOn generalizing ids with
  | ind n ih =>
    cases ids with
    | nil => simp [unique]
    | cons id ids =>
      unfold unique
      rw [List.eraseDups_cons, List.nodup_cons]
      refine ⟨by simp, ih _ ?_ _ rfl⟩
      rw [← hn, List.length_cons]
      exact Nat.lt_succ_of_le (List.length_filter_le _ ids)

theorem mem_sourceSteps {inputs : List PlanValue} {id : String} :
    id ∈ sourceSteps inputs ↔ ∃ v ∈ inputs, ∃ output, v.source = .step id output := by
  unfold sourceSteps
  rw [List.mem_flatMap]
  refine exists_congr fun v => and_congr_right fun _ => ?_
  cases v.source with
  | ingredient artifactId => simp
  | step stepId output => simp [eq_comm]

variable {v : PlanValue}

variable {capability : Capability} {m : RequirementMatch} {taken : ℕ}

theorem planStep_output (h : v ∈ (planStep capability m taken).outputs) :
    ∃ output, v.source = .step (planStep capability m taken).id output ∧
      (planStep capability m taken).outputs[output]? = some v := by
  obtain ⟨output, hlt, hv⟩ := List.mem_iff_getElem.mp h
  refine ⟨output, ?_, by rw [List.getElem?_eq_getElem hlt, hv]⟩
  rw [← hv]
  simp [planStep]

theorem planStep_outputs_predicates (capability : Capability) (m : RequirementMatch) (taken : ℕ) :
    (planStep capability m taken).outputs.map PlanValue.predicate =
      capability.produces.map (Substitution.ofBindings m.bindings).instantiate := by
  refine List.ext_getElem (by simp [planStep]) fun i _ _ => ?_
  simp [planStep, Substitution.instantiate_ofBindings]

theorem planStep_output_predicate (hv : v ∈ (planStep capability m taken).outputs) :
    ∃ p ∈ capability.produces, v.predicate = (Substitution.ofBindings m.bindings).instantiate p := by
  have hmem := List.mem_map_of_mem (f := PlanValue.predicate) hv
  rw [planStep_outputs_predicates] at hmem
  obtain ⟨p, hp, heq⟩ := List.mem_map.mp hmem
  exact ⟨p, hp, heq.symm⟩

section
variable (h : Derived capabilities start steps)
include h

theorem Derived.ids : steps.map PlanStep.id = (List.range steps.length).map fun i => stepName (i + 1) := by
  induction h with
  | nil => rfl
  | snoc _ _ ih => simp [ih, List.range_succ, planStep]

theorem Derived.nodup_ids : (steps.map PlanStep.id).Nodup := by
  rw [h.ids]
  refine List.Nodup.map ?_ List.nodup_range
  intro i j hij
  exact Nat.succ_injective (stepName_injective hij)

variable {step : PlanStep}

theorem Derived.split {before after : List PlanStep} (hsteps : steps = before ++ step :: after) :
    Derived capabilities start before ∧ ∃ capability m, Applies capabilities (factsAfter start before) capability m ∧
        step = planStep capability m before.length := by
  induction h generalizing after with
  | nil => simp at hsteps
  | @snoc steps capability m hd happ ih =>
    rcases List.eq_nil_or_concat after with rfl | ⟨after, last, rfl⟩
    · obtain ⟨rfl, hstep⟩ := List.append_inj' hsteps rfl
      rw [List.cons.injEq] at hstep
      exact ⟨hd, capability, m, happ, hstep.1.symm⟩
    · rw [List.concat_eq_append, ← List.cons_append, ← List.append_assoc] at hsteps
      exact ih (List.append_inj' hsteps rfl).1

theorem Derived.mem (hstep : step ∈ steps) : ∃ before after capability m, steps = before ++ step :: after ∧
      Applies capabilities (factsAfter start before) capability m ∧ step = planStep capability m before.length := by
  obtain ⟨before, after, hsteps⟩ := List.append_of_mem hstep
  obtain ⟨-, capability, m, happ, heq⟩ := h.split hsteps
  exact ⟨before, after, capability, m, hsteps, happ, heq⟩

theorem Derived.fact_source
    (hv : v ∈ factsAfter start steps) : v ∈ start ∨ ∃ step ∈ steps, ∃ output, v.source = .step step.id output ∧
        step.outputs[output]? = some v := by
  rcases List.mem_append.mp hv with hv | hv
  · exact .inl hv
  · obtain ⟨step, hstep, hout⟩ := List.mem_flatMap.mp hv
    obtain ⟨before, after, capability, m, -, -, rfl⟩ := h.mem hstep
    exact .inr ⟨_, hstep, planStep_output hout⟩

end

end Derived

/-! ## One round of the search -/

section Search
variable {locale : Locale} {capabilities : List Capability} {goals : List Predicate}
  {maxSteps maxStates : Limit} {search search' : Search}

/-- The state a round takes off the queue, and what it leaves there. -/
def Taken (locale : Locale) (search : Search) (state : SearchState)
    (queue : List SearchState) : Prop :=
  sortBy (compareStates locale) search.queue = state :: queue

def Known (search : Search) (state : SearchState) : Prop :=
  ∃ known, search.best.lookup (stateKey state) = some known ∧ known ≤ state.cost

/-- What the bookkeeping of a round writes for a state it explores. -/
def recorded (search : Search) (state : SearchState) : List (String × ℚ) :=
  (stateKey state, state.cost) :: search.best

inductive RoundCase (locale : Locale) (capabilities : List Capability) (goals : List Predicate)
    (maxSteps maxStates : Limit) (search : Search) : Round → Prop
  | limit : maxStates ≤ search.exploredStates →
      RoundCase locale capabilities goals maxSteps maxStates search (.stopped search.exploredStates)
  | exhausted : ¬ maxStates ≤ search.exploredStates → search.queue = [] →
      RoundCase locale capabilities goals maxSteps maxStates search (.stopped search.exploredStates)
  | pruned {state : SearchState} {queue : List SearchState} :
      Taken locale search state queue → Known search state →
      RoundCase locale capabilities goals maxSteps maxStates search (.next { search with queue })
  | solved {state : SearchState} {queue : List SearchState} {results : List PlanValue} :
      Taken locale search state queue → ¬ Known search state →
      resolveGoals goals state.facts = some results →
      RoundCase locale capabilities goals maxSteps maxStates search
        (.solved ⟨goals, state.steps, state.cost, results⟩ (search.exploredStates + 1))
  | cut {state : SearchState} {queue : List SearchState} :
      Taken locale search state queue → ¬ Known search state →
      resolveGoals goals state.facts = none → maxSteps ≤ state.steps.length →
      RoundCase locale capabilities goals maxSteps maxStates search
        (.next ⟨queue, recorded search state, search.exploredStates + 1⟩)
  | expanded {state : SearchState} {queue : List SearchState} :
      Taken locale search state queue → ¬ Known search state →
      resolveGoals goals state.facts = none → ¬ maxSteps ≤ state.steps.length →
      RoundCase locale capabilities goals maxSteps maxStates search
        (.next ⟨queue ++ successors locale capabilities state, recorded search state,
          search.exploredStates + 1⟩)

theorem searchRound_cases : RoundCase locale capabilities goals maxSteps maxStates search
    (searchRound locale capabilities goals maxSteps maxStates search) := by
  unfold searchRound
  split
  · rename_i hlimit
    exact .limit hlimit
  · rename_i hlimit
    split
    · rename_i hsort
      refine .exhausted hlimit ?_
      by_contra hne
      exact sortBy_ne_nil hne hsort
    · rename_i state queue hsort
      have htaken : Taken locale search state queue := hsort
      dsimp only
      split
      · rename_i hknown
        obtain ⟨known, hlook, hle⟩ := (Option.any_eq_true _ _).mp hknown
        exact .pruned htaken ⟨known, hlook, of_decide_eq_true hle⟩
      · rename_i hknown
        have hfresh : ¬ Known search state := by
          rintro ⟨known, hlook, hle⟩
          exact hknown ((Option.any_eq_true _ _).mpr ⟨known, hlook, decide_eq_true hle⟩)
        split
        · rename_i results hresults
          exact .solved htaken hfresh hresults
        · rename_i hresults
          split
          · rename_i hsteps
            exact .cut htaken hfresh hresults hsteps
          · rename_i hsteps
            exact .expanded htaken hfresh hresults hsteps

variable {queue : List SearchState} {ingredients : List Ingredient} {budget explored : ℕ}

variable {state s : SearchState} {rounds : ℕ} {program : AdHocProgram} {P : SearchState → Prop}

theorem Taken.perm (h : Taken locale search state queue) : search.queue.Perm (state :: queue) := by
  have hp := sortBy_perm (compareStates locale) search.queue
  rw [show sortBy (compareStates locale) search.queue = state :: queue from h] at hp
  exact hp.symm

theorem Taken.mem (h : Taken locale search state queue) : state ∈ search.queue := h.perm.mem_iff.mpr List.mem_cons_self

theorem Taken.mem_of_rest (h : Taken locale search state queue) (hs : s ∈ queue) : s ∈ search.queue :=
  h.perm.mem_iff.mpr (List.mem_cons_of_mem state hs)

theorem mem_successors : s ∈ successors locale capabilities state ↔ ∃ capability m,
      Applies capabilities state.facts capability m ∧
        addsNothing capability m state.facts = false ∧ s = successor state capability m := by
  unfold successors
  simp only [List.mem_flatMap, mem_sortBy]
  constructor
  · rintro ⟨capability, hlisted, hs⟩
    split at hs
    · cases hs
    · rename_i havail
      obtain ⟨m, hm, rfl⟩ := List.mem_map.mp hs
      obtain ⟨hmatched, hnew⟩ := List.mem_filter.mp hm
      exact ⟨capability, m, ⟨hlisted, havail, hmatched⟩, by simpa using hnew, rfl⟩
  · rintro ⟨capability, m, happ, hnew, rfl⟩
    refine ⟨capability, happ.listed, ?_⟩
    rw [if_neg happ.available]
    refine List.mem_map.mpr ⟨m, ?_, rfl⟩
    simp [happ.matched, hnew]

/-! ## A whole search -/

def Rounds (locale : Locale) (capabilities : List Capability) (goals : List Predicate)
    (maxSteps maxStates : Limit) : Search → Search → Prop :=
  Relation.ReflTransGen fun search search' =>
    searchRound locale capabilities goals maxSteps maxStates search = .next search'

theorem searchLoop_ok (h : searchLoop locale capabilities ingredients goals maxSteps maxStates budget rounds search =
      some (.ok program explored)) : ∃ last, Rounds locale capabilities goals maxSteps maxStates search last ∧
      searchRound locale capabilities goals maxSteps maxStates last = .solved program explored := by
  induction rounds generalizing search with
  | zero => cases h
  | succ rounds ih =>
    unfold searchLoop at h
    split at h
    · rename_i program' explored' hround
      cases h
      exact ⟨search, Relation.ReflTransGen.refl, hround⟩
    · unfold unsolved at h
      rw [Option.map_eq_some_iff] at h
      obtain ⟨_, -, hfail⟩ := h
      cases hfail
    · rename_i search' hround
      obtain ⟨last, hrounds, hlast⟩ := ih h
      exact ⟨last, Relation.ReflTransGen.head hround hrounds, hlast⟩

theorem searchLoop_failed {unmetGoals : List Predicate} {reason : String}
    (h : searchLoop locale capabilities ingredients goals maxSteps maxStates budget rounds search =
      some (.failed unmetGoals explored reason)) :
    ∃ last, Rounds locale capabilities goals maxSteps maxStates search last ∧
      searchRound locale capabilities goals maxSteps maxStates last = .stopped explored := by
  induction rounds generalizing search with
  | zero => cases h
  | succ rounds ih =>
    unfold searchLoop at h
    split at h
    · cases h
    · rename_i explored' hround
      unfold unsolved at h
      rw [Option.map_eq_some_iff] at h
      obtain ⟨_, -, hfail⟩ := h
      cases hfail
      exact ⟨search, Relation.ReflTransGen.refl, hround⟩
    · rename_i search' hround
      obtain ⟨last, hrounds, hlast⟩ := ih h
      exact ⟨last, Relation.ReflTransGen.head hround hrounds, hlast⟩

theorem Rounds.queued (hstep : ∀ s, P s → ∀ c ∈ successors locale capabilities s, P c)
    (h : Rounds locale capabilities goals maxSteps maxStates search search') (hstart : ∀ s ∈ search.queue, P s) :
    ∀ s ∈ search'.queue, P s := by
  induction h with
  | refl => exact hstart
  | @tail mid last _ hround ih =>
    have hcase := @searchRound_cases locale capabilities goals maxSteps maxStates mid
    rw [hround] at hcase
    intro s hs
    cases hcase with
    | pruned htaken _ => exact ih s (htaken.mem_of_rest hs)
    | cut htaken _ _ _ => exact ih s (htaken.mem_of_rest hs)
    | expanded htaken _ _ _ =>
      rcases List.mem_append.mp hs with hs | hs
      · exact ih s (htaken.mem_of_rest hs)
      · exact hstep _ (ih _ htaken.mem) s hs

theorem solve_ok {options : SolveOptions}
    (h : solve locale budget capabilities ingredients goals options = some (.ok program explored))
    (hstart : P ⟨ingredients.map ingredientValue, [], 0⟩)
    (hstep : ∀ s, P s → ∀ c ∈ successors locale capabilities s, P c) :
    ∃ state, P state ∧ resolveGoals goals state.facts = some program.results ∧
      program = ⟨goals, state.steps, state.cost, program.results⟩ := by
  obtain ⟨last, hrounds, hround⟩ := searchLoop_ok h
  have hqueued := hrounds.queued hstep (by
    intro s hs
    rw [Search.start, List.mem_singleton] at hs
    rw [hs]
    exact hstart)
  have hcase := @searchRound_cases locale capabilities goals
    (options.maxSteps.getD DEFAULT_MAX_STEPS) (options.maxStates.getD DEFAULT_MAX_STATES) last
  rw [hround] at hcase
  cases hcase with
  | solved htaken _ hresults => exact ⟨_, hqueued _ htaken.mem, hresults, rfl⟩

/-- A state carries a derivation, the facts it leaves and what it costs. -/
structure Sound (capabilities : List Capability) (start : List PlanValue) (state : SearchState) :
    Prop where
  derived : Derived capabilities start state.steps
  facts : state.facts = factsAfter start state.steps
  cost : state.cost = (state.steps.map PlanStep.cost).sum

theorem sound_start (capabilities : List Capability) (start : List PlanValue) :
    Sound capabilities start ⟨start, [], 0⟩ := ⟨.nil, by simp [factsAfter], rfl⟩

variable {start : List PlanValue} {state s : SearchState}

theorem Sound.successors (h : Sound capabilities start state)
    (hs : s ∈ successors locale capabilities state) : Sound capabilities start s := by
  obtain ⟨capability, m, happ, -, rfl⟩ := mem_successors.1 hs
  refine ⟨.snoc h.derived (h.facts ▸ happ), ?_, ?_⟩
  · simp only [successor, factsAfter_snoc, h.facts]
  · simp only [successor, List.map_append, List.sum_append, h.cost, List.map_cons, List.map_nil, List.sum_singleton]

end Search

/-! ## Executable programs -/

structure Invokes (capabilities : List Capability) (step : PlanStep) (capability : Capability)
    (σ : Substitution) : Prop where
  listed : capability ∈ capabilities
  available : capability.available ≠ some false
  named : step.capability = capability.id ∧ step.actor = capability.actor ∧
    step.method = capability.method
  cost : step.cost = capability.cost.getD 1
  inputs : σ.UnifiesAll capability.requires (step.inputs.map PlanValue.predicate)
  outputs : step.outputs = capability.produces.mapIdx fun output p =>
    ⟨σ.instantiate p, .step step.id output⟩

structure Executable (capabilities : List Capability) (ingredients : List Ingredient)
    (goals : List Predicate) (program : AdHocProgram) : Prop where
  answers : program.goals = goals
  ids : program.steps.map PlanStep.id =
    (List.range program.steps.length).map fun i => stepName (i + 1)
  distinct : (program.steps.map PlanStep.id).Nodup
  inputs : ∀ before step after, program.steps = before ++ step :: after → ∀ v ∈ step.inputs,
    v ∈ ingredients.map ingredientValue ∨
      ∃ earlier ∈ before, ∃ output, v.source = .step earlier.id output ∧
        earlier.outputs[output]? = some v
  dependsOn : ∀ step ∈ program.steps, step.dependsOn.Nodup ∧ ∀ id, id ∈ step.dependsOn ↔
    ∃ v ∈ step.inputs, ∃ output, v.source = .step id output
  invokes : ∀ step ∈ program.steps, ∃ capability σ, Invokes capabilities step capability σ
  totalCost : program.totalCost = (program.steps.map PlanStep.cost).sum
  results : (∀ v ∈ program.results, v ∈ ingredients.map ingredientValue ∨
      ∃ step ∈ program.steps, ∃ output, v.source = .step step.id output ∧
        step.outputs[output]? = some v) ∧
    ∃ σ : Substitution, σ.UnifiesAll goals (program.results.map PlanValue.predicate)

theorem planStep_invokes {capabilities : List Capability} {facts : List PlanValue}
    {capability : Capability} {m : RequirementMatch} (h : Applies capabilities facts capability m) (taken : ℕ) :
    Invokes capabilities (planStep capability m taken) capability (.ofBindings m.bindings) where
  listed := h.listed
  available := h.available
  named := ⟨rfl, rfl, rfl⟩
  cost := rfl
  inputs := match_unifies h.matched
  outputs := rfl

theorem resolveGoals_some {goals : List Predicate} {facts results : List PlanValue}
    (h : resolveGoals goals facts = some results) : (∀ v ∈ results, v ∈ facts) ∧
      ∃ σ : Substitution, σ.UnifiesAll goals (results.map PlanValue.predicate) := by
  obtain ⟨m, hm, rfl⟩ := Option.map_eq_some_iff.mp h
  have hmem := List.mem_of_head? hm
  exact ⟨(mem_matchRequirements.1 hmem).1, _, match_unifies hmem⟩

def mailCatalog : List Capability :=
  [⟨"draft", "writer", "draft", ["text(M, T)", "mail(M)"], ["reply(M, T)"], some 2, none, none,
      none, none⟩,
    ⟨"read", "reader", "read", ["mail(M)"], ["text(M, body)"], none, some true, none, none, none⟩]

def mailProgram : AdHocProgram :=
  let mail : PlanValue := ⟨"mail(m1)", .ingredient (some "artifact-1")⟩
  let text : PlanValue := ⟨"text(m1, body)", .step "step-1" 0⟩
  let reply : PlanValue := ⟨"reply(m1, body)", .step "step-2" 0⟩
  ⟨["reply(m1, X)"],
    [⟨"step-1", "read", "reader", "read", [mail], [text], [], 1⟩,
      ⟨"step-2", "draft", "writer", "draft", [text, mail], [reply], ["step-1"], 2⟩],
    3, [reply]⟩

end AvenOS.Actors
