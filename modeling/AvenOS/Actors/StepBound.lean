import AvenOS.Actors.PlannerOptimality
import Mathlib.Order.WithBot

/-! # Planning under a step bound

`solve` drops a state when one with its key was explored at no greater cost, however many steps that one took, and an
application when all its outputs unify with known facts. Under a bound on the steps it finds a program wherever there is one
as long as what it keeps can be finished within the bound whenever what it drops can. -/
namespace AvenOS.Actors
open StableSort UniformCost

/-! ## Finishing within the bound -/

/-- So many more applications meet the goals. -/
def Completes (capabilities : List Capability) (goals : List Predicate) : ℕ → SearchState → Prop
  | 0, state => resolveGoals goals state.facts ≠ none
  | k + 1, state => ∃ capability m, Applies capabilities state.facts capability m ∧
      Completes capabilities goals k (successor state capability m)

/-- At most so many, and all of them within the bound. -/
def Finishes (capabilities : List Capability) (goals : List Predicate) (maxSteps : Limit) (state : SearchState) (k : ℕ) :
    Prop :=
  ∃ j ≤ k, Completes capabilities goals j state ∧ ((state.steps.length + j : ℕ) : Limit) ≤ maxSteps

def ReachesWithin (capabilities : List Capability) (ingredients : List Ingredient) (goals : List Predicate)
    (maxSteps : Limit) : Prop :=
  ∃ steps, Derived capabilities (ingredients.map ingredientValue) steps ∧ ((steps.length : ℕ) : Limit) ≤ maxSteps ∧
    resolveGoals goals (factsAfter (ingredients.map ingredientValue) steps) ≠ none

/-- What the search keeps finishes where what it drops does. -/
structure PrunesSafely (capabilities : List Capability) (ingredients : List Ingredient) (goals : List Predicate)
    (maxSteps : Limit) : Prop where
  /-- A state that is no dearer stands in for one with its key. -/
  dominance : ∀ s e, Sound capabilities (ingredients.map ingredientValue) s →
    Sound capabilities (ingredients.map ingredientValue) e → stateKey e = stateKey s → e.cost ≤ s.cost →
    ∀ k, Finishes capabilities goals maxSteps s k → Finishes capabilities goals maxSteps e k
  /-- An application whose outputs unify with known facts is not needed. -/
  outputs : ∀ s capability m, Sound capabilities (ingredients.map ingredientValue) s →
    Applies capabilities s.facts capability m → addsNothing capability m s.facts = true →
    ∀ k, Finishes capabilities goals maxSteps (successor s capability m) k → Finishes capabilities goals maxSteps s k

def SolveResult.exploredStates : SolveResult → ℕ
  | .ok _ exploredStates => exploredStates
  | .failed _ exploredStates _ => exploredStates

/-- When a program within the bound proves the goals, a search that ends before its limit of states finds one. -/
def CompleteWithin (capabilities : List Capability) (ingredients : List Ingredient) (goals : List Predicate)
    (maxSteps : Limit) : Prop :=
  ReachesWithin capabilities ingredients goals maxSteps → ∀ locale budget maxStates result,
    solve locale budget capabilities ingredients goals ⟨some maxSteps, maxStates⟩ = some result →
    ¬ maxStates.getD DEFAULT_MAX_STATES ≤ result.exploredStates → ∃ program explored, result = .ok program explored

section StepBound
variable {locale : Locale} {capabilities : List Capability} {ingredients : List Ingredient} {goals : List Predicate}
  {maxSteps maxStates : Limit} {search last : Search}

theorem successor_steps (state : SearchState) (capability : Capability) (m : RequirementMatch) :
    (successor state capability m).steps.length = state.steps.length + 1 := by
  simp [successor]

/-- The state a derivation leads to. -/
def stateAfter (start : List PlanValue) (steps : List PlanStep) : SearchState :=
  ⟨factsAfter start steps, steps, (steps.map PlanStep.cost).sum⟩

theorem successor_stateAfter (start : List PlanValue) (steps : List PlanStep) (capability : Capability)
    (m : RequirementMatch) :
    successor (stateAfter start steps) capability m = stateAfter start (steps ++ [planStep capability m steps.length]) := by
  simp [successor, stateAfter, factsAfter_snoc]

theorem Derived.completes {start : List PlanValue} {steps : List PlanStep} (h : Derived capabilities start steps) (k : ℕ)
    (hk : Completes capabilities goals k (stateAfter start steps)) :
    Completes capabilities goals (steps.length + k) (stateAfter start []) := by
  induction h generalizing k with
  | nil =>
    rw [List.length_nil, Nat.zero_add]
    exact hk
  | @snoc steps capability m _ happ ih =>
    rw [← successor_stateAfter] at hk
    have hlonger := ih (k + 1) ⟨capability, m, happ, hk⟩
    rw [List.length_append, List.length_singleton, Nat.add_assoc, Nat.add_comm 1 k]
    exact hlonger

/-- The search under the bound as a uniform-cost problem: a state covers the numbers of applications that finish it. -/
def boundedProblem (locale : Locale) (hsafe : PrunesSafely capabilities ingredients goals maxSteps) :
    Problem SearchState ℕ String (WithTop ℚ) where
  children state := if maxSteps ≤ state.steps.length then [] else successors locale capabilities state
  key := stateKey
  cost state := state.cost
  valid := Sound capabilities (ingredients.map ingredientValue)
  covers := Finishes capabilities goals maxSteps
  move n k := n = k + 1
  price _ := ⊤
  cost_le _ _ _ := le_top
  move_le _ _ _ := le_refl _
  valid_children := by
    intro s hs c hc
    split at hc
    · cases hc
    · exact hs.successors hc
  follow := by
    rintro s _ k hs ⟨j, hj, hcompletes, hbound⟩ rfl
    cases j with
    | zero => exact Or.inl ⟨0, Nat.zero_le k, hcompletes, hbound⟩
    | succ j =>
      obtain ⟨capability, m, happ, hrest⟩ := hcompletes
      have hfinishes : Finishes capabilities goals maxSteps (successor s capability m) k := by
        refine ⟨j, Nat.le_of_succ_le_succ hj, hrest, ?_⟩
        rw [successor_steps, Nat.add_assoc, Nat.add_comm 1 j]
        exact hbound
      have hroom : ¬ maxSteps ≤ (s.steps.length : Limit) := by
        intro hle
        have hless : s.steps.length + (j + 1) ≤ s.steps.length := Nat.cast_le.mp (hbound.trans hle)
        omega
      cases hadds : addsNothing capability m s.facts with
      | true => exact Or.inl (hsafe.outputs s capability m hs happ hadds k hfinishes)
      | false =>
        refine Or.inr ⟨successor s capability m, ?_, hfinishes⟩
        rw [if_neg hroom]
        exact mem_successors.2 ⟨capability, m, happ, hadds, rfl⟩
  collapse := by
    intro e s k he hs hkey hcost hcov
    exact hsafe.dominance s e hs he hkey (WithTop.coe_le_coe.mp hcost) k hcov

/-- The costs recorded for keys, among costs without a bound. -/
def boundedBest (best : List (String × ℚ)) : List (String × WithTop ℚ) := best.map fun entry => (entry.1, (entry.2 : WithTop ℚ))

theorem lookup_boundedBest {best : List (String × ℚ)} {key : String} {cost : ℚ} (h : best.lookup key = some cost) :
    (boundedBest best).lookup key = some (cost : WithTop ℚ) := by
  induction best with
  | nil => cases h
  | cons entry best ih =>
    obtain ⟨k, c⟩ := entry
    rw [List.lookup_cons] at h
    rw [boundedBest, List.map_cons, List.lookup_cons]
    split at h
    · rename_i heq
      cases h
      rw [heq]
    · rename_i heq
      rw [heq]
      exact ih h

structure BoundedSearch (locale : Locale) (hsafe : PrunesSafely capabilities ingredients goals maxSteps) (k : ℕ)
    (expanded : Set SearchState) (search : Search) : Prop where
  frontier : Frontier (boundedProblem locale hsafe) k expanded search.queue (boundedBest search.best)
  unmet : ∀ e ∈ expanded, resolveGoals goals e.facts = none

variable (hsafe : PrunesSafely capabilities ingredients goals maxSteps)

theorem Rounds.bounded {k : ℕ}
    (hstart : Finishes capabilities goals maxSteps ⟨ingredients.map ingredientValue, [], 0⟩ k)
    (h : Rounds locale capabilities goals maxSteps maxStates (.start ingredients) last) :
    ∃ expanded, BoundedSearch locale hsafe k expanded last := by
  induction h with
  | refl => exact ⟨∅, frontier_init (sound_start capabilities _) hstart, fun e he => absurd he (Set.notMem_empty e)⟩
  | @tail mid last _ hround ih =>
    obtain ⟨expanded, hsearch⟩ := ih
    have hcase := @searchRound_cases locale capabilities goals maxSteps maxStates mid
    rw [hround] at hcase
    have hinsert : ∀ state : SearchState, resolveGoals goals state.facts = none →
        ∀ e ∈ insert state expanded, resolveGoals goals e.facts = none := by
      intro state hunmet e he
      rcases Set.mem_insert_iff.mp he with rfl | he
      · exact hunmet
      · exact hsearch.unmet e he
    cases hcase with
    | @pruned state queue htaken hknown =>
      obtain ⟨known, hlook, hle⟩ := hknown
      exact ⟨expanded, hsearch.frontier.prune htaken.perm (lookup_boundedBest hlook) (WithTop.coe_le_coe.mpr hle),
        hsearch.unmet⟩
    | @cut state queue htaken hfresh hunmet hsteps =>
      refine ⟨insert state expanded, ?_, hinsert state hunmet⟩
      have hexpand := hsearch.frontier.expand htaken.perm
      simp only [boundedProblem, if_pos hsteps, List.append_nil] at hexpand
      exact hexpand
    | @expanded state queue htaken hfresh hunmet hsteps =>
      refine ⟨insert state expanded, ?_, hinsert state hunmet⟩
      have hexpand := hsearch.frontier.expand htaken.perm
      simp only [boundedProblem, if_neg hsteps] at hexpand
      exact hexpand

theorem moves_to_zero (locale : Locale) (k : ℕ) : Relation.ReflTransGen (boundedProblem locale hsafe).move k 0 := by
  induction k with
  | zero => exact Relation.ReflTransGen.refl
  | succ k ih => exact Relation.ReflTransGen.head rfl ih

end StepBound

section Even
variable {capabilities : List Capability} {ingredients : List Ingredient} {goals : List Predicate} {maxSteps : Limit}

variable {start : List PlanValue} {state : SearchState} {price : ℚ}

theorem Sound.successor (h : Sound capabilities start state) {capability : Capability} {m : RequirementMatch}
    (happ : Applies capabilities state.facts capability m) :
    Sound capabilities start (successor state capability m) := by
  refine ⟨.snoc h.derived (h.facts ▸ happ), ?_, ?_⟩
  · simp only [AvenOS.Actors.successor, factsAfter_snoc, h.facts]
  · simp only [AvenOS.Actors.successor, List.map_append, List.sum_append, h.cost, List.map_cons, List.map_nil,
      List.sum_singleton]

theorem Completes.transfer (hpriced : Priced capabilities ingredients) {k : ℕ} {s e : SearchState}
    (hs : Sound capabilities (ingredients.map ingredientValue) s)
    (he : Sound capabilities (ingredients.map ingredientValue) e)
    (hholds : Holds e.facts (s.facts.map PlanValue.predicate)) (h : Completes capabilities goals k s) :
    Completes capabilities goals k e := by
  induction k generalizing s e with
  | zero =>
    obtain ⟨inputs, hinputs⟩ := Option.ne_none_iff_exists'.mp h
    obtain ⟨m, hhead, hm⟩ := Option.map_eq_some_iff.mp hinputs
    have hmatch := List.mem_of_mem_head? hhead
    refine hholds.resolveGoals ⟨m.inputs.map PlanValue.predicate, ?_, _, match_unifies hmatch⟩
    intro p hp
    obtain ⟨v, hv, rfl⟩ := List.mem_map.mp hp
    exact List.mem_map_of_mem ((mem_matchRequirements.1 hmatch).1 v hv)
  | succ k ih =>
    obtain ⟨capability, m, happ, hrest⟩ := h
    have hin : ∀ p ∈ m.inputs.map PlanValue.predicate, p ∈ s.facts.map PlanValue.predicate := by
      intro p hp
      obtain ⟨v, hv, rfl⟩ := List.mem_map.mp hp
      exact List.mem_map_of_mem ((mem_matchRequirements.1 happ.matched).1 v hv)
    obtain ⟨inputs, hinputs, hall⟩ := hholds.unifiesAll hin (match_unifies happ.matched)
    obtain ⟨m', hm', rfl, -⟩ := match_complete hinputs hall
    have happ' : Applies capabilities e.facts capability m' := ⟨happ.listed, happ.available, hm'⟩
    refine ⟨capability, m', happ', ih (hs.successor happ) (he.successor happ') ?_ hrest⟩
    have hground : ∀ v ∈ e.facts, Ground v.predicate := by
      rw [he.facts]
      exact he.derived.ground hpriced
    intro p hp
    obtain ⟨v, hv, rfl⟩ := List.mem_map.mp hp
    rcases List.mem_append.mp hv with hv | hv
    · obtain ⟨w, hw, heq⟩ := hholds _ (List.mem_map_of_mem hv)
      exact ⟨w, List.mem_append_left _ hw, heq⟩
    · obtain ⟨product, hproduct, heq⟩ := planStep_output_predicate hv
      have hsame := (hpriced.bound capability happ.listed).instantiate_eq (happ'.ground_inputs hground) hall
        (match_unifies hm') hproduct
      have hout : v.predicate ∈ (planStep capability m' e.steps.length).outputs.map PlanValue.predicate := by
        rw [planStep_outputs_predicates, heq, hsame]
        exact List.mem_map_of_mem hproduct
      obtain ⟨w, hw, hpredicate⟩ := List.mem_map.mp hout
      exact ⟨w, List.mem_append_right _ hw, by rw [hpredicate]⟩

theorem Sound.even_cost (hprice : ∀ c ∈ capabilities, c.cost.getD 1 = price) (h : Sound capabilities start state) :
    state.cost = state.steps.length * price := by
  have hstep : ∀ step ∈ state.steps, step.cost = price := by
    intro step hstep
    obtain ⟨_, _, capability, m, -, happ, rfl⟩ := h.derived.mem hstep
    exact hprice capability happ.listed
  rw [h.cost, List.map_congr_left hstep, List.map_const', List.sum_replicate, nsmul_eq_mul]

theorem prunesSafely_of_even (hpriced : Priced capabilities ingredients)
    (hfaithful : KeyFaithful capabilities ingredients) (hpositive : 0 < price)
    (hprice : ∀ c ∈ capabilities, c.cost.getD 1 = price) : PrunesSafely capabilities ingredients goals maxSteps where
  dominance := by
    rintro s e hs he hkey hcost k ⟨j, hj, hcompletes, hbound⟩
    have hholds : Holds e.facts (s.facts.map PlanValue.predicate) := by
      intro p hp
      obtain ⟨v, hv, rfl⟩ := List.mem_map.mp hp
      exact hfaithful s e hs he hkey hcost v hv
    rw [hs.even_cost hprice, he.even_cost hprice] at hcost
    have hsteps : e.steps.length ≤ s.steps.length := by
      have hcast := le_of_mul_le_mul_right hcost hpositive
      exact_mod_cast hcast
    refine ⟨j, hj, hcompletes.transfer hpriced hs he hholds, le_trans ?_ hbound⟩
    exact Nat.cast_le.mpr (Nat.add_le_add_right hsteps j)
  outputs := by
    rintro s capability m hs happ hadds k ⟨j, hj, hcompletes, hbound⟩
    have hground : ∀ v ∈ s.facts, Ground v.predicate := by
      rw [hs.facts]
      exact hs.derived.ground hpriced
    have hproducts := addsNothing_holds hadds hground fun p hp x hx =>
      ((hpriced.bound capability happ.listed).instantiate_args (happ.ground_inputs hground)
        (match_unifies happ.matched) hp x hx).1
    have hholds : Holds s.facts ((AvenOS.Actors.successor s capability m).facts.map PlanValue.predicate) := by
      intro p hp
      rw [AvenOS.Actors.successor, List.map_append, List.mem_append, planStep_outputs_predicates] at hp
      rcases hp with hp | hp
      · obtain ⟨v, hv, rfl⟩ := List.mem_map.mp hp
        exact ⟨v, hv, rfl⟩
      · exact hproducts p hp
    refine ⟨j, hj, hcompletes.transfer hpriced (hs.successor happ) hs hholds, le_trans ?_ hbound⟩
    rw [successor_steps]
    exact Nat.cast_le.mpr (by omega)

end Even

/-- Two stages of one price each. -/
def relayCatalog : List Capability :=
  [⟨"draft", "writer", "draft", ["text(M, T)", "mail(M)"], ["reply(M, T)"], none, none, none, none, none⟩,
    ⟨"read", "reader", "read", ["mail(M)"], ["text(M, body)"], none, none, none, none, none⟩]

/-- Both halves at once are dear, one after the other they are cheap. -/
def halvesCatalog : List Capability :=
  [⟨"both", "maker", "both", ["s"], ["a", "b"], some 5, none, none, none, none⟩,
    ⟨"join", "maker", "join", ["a", "b"], ["g"], none, none, none, none, none⟩,
    ⟨"left", "maker", "left", ["s"], ["a"], none, none, none, none, none⟩,
    ⟨"right", "maker", "right", ["s"], ["b"], none, none, none, none, none⟩]

end AvenOS.Actors
