import AvenOS.Actors.PlannerSoundness

/-! # Affordances

Application actions from supported facts: each definition in order of its id, with every match of its
requirements, whose goals have an executable route. The route is the exact planner at its default
limits, which always answers. -/
namespace AvenOS.Actors
open StableSort

inductive AffordanceEffect
  | none
  | prepare
  | commit
deriving DecidableEq

/-- A useful next operation exposed by an application skill catalog. -/
structure AffordanceDefinition where
  id : String
  label : String
  description : String
  requires : List Predicate
  goals : List Predicate
  effect : AffordanceEffect
deriving DecidableEq

/-- A grounded action for which both facts and an executable route exist. -/
structure AvailableAffordance where
  id : String
  label : String
  description : String
  goals : List Predicate
  effect : AffordanceEffect
  ingredients : List Ingredient
deriving DecidableEq

section Discover
variable (locale : Locale) (budget : ℕ) (facts : List Ingredient) (capabilities : List Capability)

def matchIngredients (m : RequirementMatch) : List Ingredient :=
  m.inputs.flatMap fun input =>
    match input.source with
    | .step _ _ => []
    | .ingredient artifactId =>
      match truthy artifactId with
      | none => []
      | some artifactId => [⟨input.predicate, some artifactId⟩]

def discoverMatch (definition : AffordanceDefinition)
    (available : List (String × AvailableAffordance)) (m : RequirementMatch) :
    Option (List (String × AvailableAffordance)) :=
  let goals := definition.goals.map fun goal => substitute goal m.bindings
  (solve locale budget capabilities facts goals ⟨none, none⟩).map fun
  | .failed _ _ _ => available
  | .ok _ _ =>
    let key := definition.id ++ nul ++ nul.intercalate goals
    if available.any fun entry => entry.1 == key then available
    else available ++ [(key, ⟨definition.id, definition.label, definition.description, goals,
      definition.effect, matchIngredients m⟩)]

/-- Resolve application actions from supported facts without executing them. -/
def discoverAffordances (definitions : List AffordanceDefinition) :
    Option (List AvailableAffordance) :=
  let values := facts.map ingredientValue
  let byDefinitionId := fun (left right : AffordanceDefinition) =>
    locale.localeCompare left.id right.id
  ((sortBy byDefinitionId definitions).foldlM (fun available definition =>
    (matchRequirements definition.requires values).foldlM
      (discoverMatch locale budget facts capabilities definition) available) []).map
    fun available => available.map Prod.snd

end Discover

/-! ## The planner answers -/

section Returns
variable {locale : Locale} {capabilities : List Capability} {ingredients : List Ingredient}
  {goals : List Predicate}

variable {maxSteps budget : ℕ} {maxStates : Limit} {α : Type}

theorem closure_returns {pass : ℕ} (hbudget : maxSteps ≤ pass + budget) (facts : List PlanValue) :
    (closure capabilities maxSteps budget pass facts).isSome = true := by
  induction budget generalizing pass facts with
  | zero =>
    unfold closure
    rw [if_pos (by exact_mod_cast hbudget)]
    rfl
  | succ budget ih =>
    unfold closure
    split
    · rfl
    · dsimp only
      split
      · exact ih (by omega) _
      · rfl

theorem unsolved_returns (hbudget : maxSteps ≤ budget) (exploredStates : ℕ) :
    (unsolved capabilities ingredients goals maxSteps maxStates budget exploredStates).isSome = true := by
  unfold unsolved
  rw [Option.isSome_map]
  exact closure_returns (by omega) _

theorem searchRound_progress {maxSteps : Limit} {search next : Search}
    (h : searchRound locale capabilities goals maxSteps maxStates search = .next next) :
    next.exploredStates = search.exploredStates + 1 ∧ (search.exploredStates : Limit) < maxStates ∨
      next.exploredStates = search.exploredStates ∧ next.queue.length < search.queue.length := by
  by_cases hlimit : maxStates ≤ search.exploredStates
  · rw [searchRound, if_pos hlimit] at h
    cases h
  · have hcase := @searchRound_cases locale capabilities goals maxSteps maxStates search
    rw [h] at hcase
    cases hcase with
    | pruned htaken _ =>
      refine .inr ⟨rfl, ?_⟩
      rw [htaken.perm.length_eq]
      exact Nat.lt_succ_self _
    | cut _ _ _ _ => exact .inl ⟨rfl, not_le.mp hlimit⟩
    | expanded _ _ _ _ => exact .inl ⟨rfl, not_le.mp hlimit⟩

theorem searchLoop_returns {maxStates : ℕ} (search : Search) : ∃ enough, ∀ budget ≥ maxSteps, ∀ rounds ≥ enough,
      (searchLoop locale capabilities ingredients goals maxSteps maxStates budget rounds search).isSome = true := by
  -- states left to explore first, then the queue
  induction hleft : maxStates - search.exploredStates using Nat.strongRecOn generalizing search with
  | ind left ihleft =>
    induction hqueue : search.queue.length using Nat.strongRecOn generalizing search with
    | ind queued ihqueue =>
      cases hround : searchRound locale capabilities goals maxSteps maxStates search with
      | solved program exploredStates =>
        refine ⟨1, fun budget hbudget rounds hrounds => ?_⟩
        obtain ⟨n, rfl⟩ := Nat.exists_eq_add_of_le' hrounds
        simp only [searchLoop, hround, Option.isSome_some]
      | stopped exploredStates =>
        refine ⟨1, fun budget hbudget rounds hrounds => ?_⟩
        obtain ⟨n, rfl⟩ := Nat.exists_eq_add_of_le' hrounds
        simp only [searchLoop, hround, unsolved_returns hbudget]
      | next next =>
        have hrest : ∃ enough, ∀ budget ≥ maxSteps, ∀ rounds ≥ enough,
            (searchLoop locale capabilities ingredients goals maxSteps maxStates budget rounds
              next).isSome = true := by
          rcases searchRound_progress hround with ⟨hexplored, hlimit⟩ | ⟨hexplored, hshorter⟩
          · have hlimit' : search.exploredStates < maxStates := by exact_mod_cast hlimit
            exact ihleft _ (by omega) next rfl
          · exact ihqueue _ (by omega) next (by omega) rfl
        obtain ⟨enough, henough⟩ := hrest
        refine ⟨enough + 1, fun budget hbudget rounds hrounds => ?_⟩
        obtain ⟨n, rfl⟩ := Nat.exists_eq_add_of_le' (Nat.le_trans (Nat.le_add_left 1 enough) hrounds)
        simp only [searchLoop, hround]
        exact henough budget hbudget n (by omega)

theorem solve_returns (locale : Locale) (capabilities : List Capability)
    (ingredients : List Ingredient) (goals : List Predicate) : ∃ enough, ∀ budget ≥ enough,
      (solve locale budget capabilities ingredients goals ⟨none, none⟩).isSome = true := by
  obtain ⟨enough, henough⟩ := @searchLoop_returns locale capabilities ingredients goals 24 2000 (.start ingredients)
  refine ⟨max 24 enough, fun budget hbudget => ?_⟩
  exact henough budget (by omega) budget (by omega)

theorem enough_for_all {answers : α → ℕ → Prop} {l : List α}
    (h : ∀ a ∈ l, ∃ enough, ∀ budget ≥ enough, answers a budget) :
    ∃ enough, ∀ budget ≥ enough, ∀ a ∈ l, answers a budget := by
  induction l with
  | nil => exact ⟨0, by simp⟩
  | cons a l ih =>
    obtain ⟨first, hfirst⟩ := h a List.mem_cons_self
    obtain ⟨others, hothers⟩ := ih fun b hb => h b (List.mem_cons_of_mem a hb)
    refine ⟨max first others, fun budget hbudget b hb => ?_⟩
    rcases List.mem_cons.mp hb with rfl | hb
    · exact hfirst budget (by omega)
    · exact hothers budget (by omega) b hb

theorem foldlM_isSome {β : Type} {f : β → α → Option β} {l : List α} (h : ∀ a ∈ l, ∀ b, (f b a).isSome = true) (b : β) :
    (l.foldlM f b).isSome = true := by
  induction l generalizing b with
  | nil => rfl
  | cons a l ih =>
    obtain ⟨b', hb'⟩ := Option.isSome_iff_exists.mp (h a List.mem_cons_self b)
    rw [List.foldlM_cons, hb']
    exact ih (fun a ha => h a (List.mem_cons_of_mem _ ha)) b'

theorem discoverAffordances_returns (locale : Locale) (facts : List Ingredient)
    (capabilities : List Capability) (definitions : List AffordanceDefinition) : ∃ enough, ∀ budget ≥ enough,
      (discoverAffordances locale budget facts capabilities definitions).isSome = true := by
  have hdefinitions : ∀ definition ∈ sortBy (fun (left right : AffordanceDefinition) =>
      locale.localeCompare left.id right.id) definitions, ∃ enough, ∀ budget ≥ enough,
        ∀ m ∈ matchRequirements definition.requires (facts.map ingredientValue), ∀ available,
          (discoverMatch locale budget facts capabilities definition available m).isSome = true := by
    intro definition _
    refine enough_for_all fun m _ => ?_
    obtain ⟨enough, henough⟩ := solve_returns locale capabilities facts
      (definition.goals.map fun goal => substitute goal m.bindings)
    refine ⟨enough, fun budget hbudget available => ?_⟩
    rw [discoverMatch, Option.isSome_map]
    exact henough budget hbudget
  obtain ⟨enough, henough⟩ := enough_for_all hdefinitions
  refine ⟨enough, fun budget hbudget => ?_⟩
  rw [discoverAffordances, Option.isSome_map]
  exact foldlM_isSome (fun definition hdefinition =>
    foldlM_isSome (fun m hm => henough budget hbudget definition hdefinition m hm)) []

end Returns

end AvenOS.Actors
