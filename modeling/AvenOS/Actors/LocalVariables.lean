import AvenOS.Actors.MatchLimits
import AvenOS.Actors.PlannerOptimality
import Mathlib.Data.Set.Function

/-! # The names of a capability's variables

The planner does not rename variables apart: what a product leaves unbound enters the facts under its name in the source and
meets the variables of other capabilities there. While no derivable fact holds a variable, names do not matter: a catalog and
its renaming lead the search through the same states to the same answer. -/
namespace AvenOS.Actors
open StableSort

/-! ## Renamings -/

/-- The same predicate with its arguments renamed, whatever its blanks. -/
structure RenamedPredicate (rename : String → String) (p p' : Predicate) : Prop where
  functor : (parseTerm p').functor = (parseTerm p).functor
  args : (parseTerm p').args = (parseTerm p).args.map rename
  parens : '(' ∈ p'.toList ↔ '(' ∈ p.toList

def Capability.arguments (c : Capability) : List String := (c.requires ++ c.produces).flatMap fun p => (parseTerm p).args

/-- The variables of a capability, consistently renamed; every `_` stays a wildcard and no name becomes one. -/
structure RenamedCapability (rename : String → String) (c c' : Capability) : Prop where
  requires : List.Forall₂ (RenamedPredicate rename) c.requires c'.requires
  produces : List.Forall₂ (RenamedPredicate rename) c.produces c'.produces
  others : c' = { c with requires := c'.requires, produces := c'.produces }
  constants : ∀ a, isVariable a = false → rename a = a
  named : ∀ a ∈ c.arguments, isVariable a = true → isVariable (rename a) = true
  wild : ∀ a ∈ c.arguments, rename a = "_" ↔ a = "_"
  distinct : ∀ a ∈ c.arguments, ∀ b ∈ c.arguments, rename a = rename b → a = b

/-- A capability as two catalogs have it. -/
structure Variant where
  original : Capability
  renamed : Capability
  rename : String → String
  holds : RenamedCapability rename original renamed

theorem renamed_self (c : Capability) : RenamedCapability id c c where
  requires := List.forall₂_same.mpr fun _ _ => ⟨rfl, (List.map_id _).symm, Iff.rfl⟩
  produces := List.forall₂_same.mpr fun _ _ => ⟨rfl, (List.map_id _).symm, Iff.rfl⟩
  others := rfl
  constants := fun _ _ => rfl
  named := fun _ _ h => h
  wild := fun _ _ => Iff.rfl
  distinct := fun _ _ _ _ h => h

def Variant.same (c : Capability) : Variant := ⟨c, c, id, renamed_self c⟩

section Rename
variable {rename : String → String} {c c' : Capability} {p p' : Predicate}

variable {a : String} {facts : List PlanValue} {m : RequirementMatch}

theorem mem_arguments : a ∈ c.arguments ↔ ∃ p, (p ∈ c.requires ∨ p ∈ c.produces) ∧ a ∈ (parseTerm p).args := by
  simp only [Capability.arguments, List.mem_flatMap, List.mem_append]

theorem renamed_arguments (h : RenamedCapability rename c c') {b : String} (hb : b ∈ c'.arguments) :
    ∃ a ∈ c.arguments, rename a = b := by
  obtain ⟨p', hp', hb⟩ := mem_arguments.1 hb
  have hpick : ∀ {ps ps' : List Predicate}, List.Forall₂ (RenamedPredicate rename) ps ps' → p' ∈ ps' →
      ∃ p ∈ ps, RenamedPredicate rename p p' := by
    intro ps ps' hall hmem
    obtain ⟨i, hi, rfl⟩ := List.mem_iff_getElem.mp hmem
    have hi' : i < ps.length := hall.length_eq ▸ hi
    exact ⟨ps[i], List.getElem_mem hi', (List.forall₂_iff_get.mp hall).2 i hi' hi⟩
  have hsource : ∃ p, (p ∈ c.requires ∨ p ∈ c.produces) ∧ RenamedPredicate rename p p' := by
    rcases hp' with hp' | hp'
    · obtain ⟨p, hp, hr⟩ := hpick h.requires hp'
      exact ⟨p, .inl hp, hr⟩
    · obtain ⟨p, hp, hr⟩ := hpick h.produces hp'
      exact ⟨p, .inr hp, hr⟩
  obtain ⟨p, hp, hr⟩ := hsource
  rw [hr.args] at hb
  obtain ⟨a, ha, rfl⟩ := List.mem_map.mp hb
  exact ⟨a, mem_arguments.2 ⟨p, hp, ha⟩, rfl⟩

theorem RenamedCapability.symm (h : RenamedCapability rename c c') :
    ∃ back, RenamedCapability back c' c ∧ ∀ a ∈ c.arguments, back (rename a) = a := by
  have hinj : Set.InjOn rename {a | a ∈ c.arguments} := fun a ha b hb => h.distinct a ha b hb
  let inverse := Function.invFunOn rename {a | a ∈ c.arguments}
  let back : String → String := fun b => if isVariable b then inverse b else b
  have hback : ∀ a ∈ c.arguments, back (rename a) = a := by
    intro a ha
    cases hvar : isVariable a with
    | true =>
      have hrenamed := h.named a ha hvar
      simp only [back, hrenamed, if_true]
      exact hinj.leftInvOn_invFunOn ha
    | false =>
      rw [h.constants a hvar]
      simp [back, hvar]
  have hpredicates : ∀ {ps ps' : List Predicate}, (∀ p ∈ ps, p ∈ c.requires ∨ p ∈ c.produces) →
      List.Forall₂ (RenamedPredicate rename) ps ps' → List.Forall₂ (RenamedPredicate back) ps' ps := by
    intro ps ps' hps hall
    induction hall with
    | nil => exact .nil
    | @cons p p' ps ps' hr _ ih =>
      refine .cons ⟨hr.functor.symm, ?_, hr.parens.symm⟩ (ih fun q hq => hps q (List.mem_cons_of_mem _ hq))
      rw [hr.args, List.map_map]
      refine (List.map_id _).symm.trans (List.map_congr_left fun a ha => ?_)
      exact (hback a (mem_arguments.2 ⟨p, hps p List.mem_cons_self, ha⟩)).symm
  refine ⟨back, ⟨hpredicates (fun p hp => .inl hp) h.requires, hpredicates (fun p hp => .inr hp) h.produces,
    ?_, fun a ha => by simp [back, ha], ?_, ?_, ?_⟩, hback⟩
  · rw [h.others]
  · intro b hb hvar
    obtain ⟨a, ha, rfl⟩ := renamed_arguments h hb
    rw [hback a ha]
    by_contra hconst
    rw [h.constants a (by simpa using hconst)] at hvar
    exact hconst hvar
  · intro b hb
    obtain ⟨a, ha, rfl⟩ := renamed_arguments h hb
    rw [hback a ha]
    exact (h.wild a ha).symm
  · intro b hb b' hb' heq
    obtain ⟨a, ha, rfl⟩ := renamed_arguments h hb
    obtain ⟨a', ha', rfl⟩ := renamed_arguments h hb'
    rw [hback a ha, hback a' ha'] at heq
    rw [heq]

/-! ## One match -/

def Substitution.through (σ : Substitution) (rename : String → String) : Substitution :=
  ⟨fun a => if isVariable a then σ.apply (rename a) else a, fun a ha => by simp [ha]⟩

theorem through_apply (h : RenamedCapability rename c c') (σ : Substitution) (a : String) :
    (σ.through rename).apply a = σ.apply (rename a) := by
  cases hvar : isVariable a with
  | true => simp [Substitution.through, hvar]
  | false =>
    rw [h.constants a hvar, σ.const a hvar]
    simp [Substitution.through, hvar]

variable {q : Predicate} {σ : Substitution} {requirements : List Predicate} {inputs : List PlanValue}
  {m' : RequirementMatch}

theorem Ground.apply (hq : Ground q) (σ : Substitution) (ha : a ∈ (parseTerm q).args) :
    σ.apply a = a := σ.const a (hq a ha)

theorem RenamedPredicate.unifies (h : RenamedCapability rename c c') (hp : p ∈ c.requires)
    (hr : RenamedPredicate rename p p') (hq : Ground q) (hσ : σ.Unifies p' q) : (σ.through rename).Unifies p q := by
  obtain ⟨hfunctor, hargs⟩ := hσ
  rw [hr.args, List.forall₂_map_left_iff] at hargs
  refine ⟨hr.functor.symm.trans hfunctor, List.forall₂_iff_get.mpr ⟨hargs.length_eq, fun i hi hi' => ?_⟩⟩
  have hmem : (parseTerm p).args.get ⟨i, hi⟩ ∈ c.arguments := mem_arguments.2 ⟨p, .inl hp, List.get_mem _ _⟩
  rcases (List.forall₂_iff_get.mp hargs).2 i hi hi' with hwild | hwild | heq
  · exact .inl ((h.wild _ hmem).mp hwild)
  · exact .inr (.inl hwild)
  · refine .inr (.inr ?_)
    have hin : (parseTerm q).args.get ⟨i, hi'⟩ ∈ (parseTerm q).args := List.get_mem _ _
    rw [through_apply h, heq, hq.apply σ hin, hq.apply _ hin]

theorem RenamedCapability.unifiesAll (h : RenamedCapability rename c c') {inputs : List Predicate}
    (hground : ∀ q ∈ inputs, Ground q) (hσ : σ.UnifiesAll c'.requires inputs) :
    (σ.through rename).UnifiesAll c.requires inputs := by
  refine List.forall₂_iff_get.mpr ⟨h.requires.length_eq.trans hσ.length_eq, fun i hi hi' => ?_⟩
  have hi'' : i < c'.requires.length := h.requires.length_eq ▸ hi
  exact ((List.forall₂_iff_get.mp h.requires).2 i hi hi'').unifies h (List.get_mem _ _)
    (hground _ (List.get_mem _ _)) ((List.forall₂_iff_get.mp hσ).2 i hi'' hi')

theorem RenamedCapability.jointlyUnifiable (h : RenamedCapability rename c c') {tuple : List PlanValue}
    (hground : ∀ v ∈ tuple, Ground v.predicate) :
    JointlyUnifiable c.requires tuple ↔ JointlyUnifiable c'.requires tuple := by
  have hinputs : ∀ q ∈ tuple.map PlanValue.predicate, Ground q := by
    intro q hq
    obtain ⟨v, hv, rfl⟩ := List.mem_map.mp hq
    exact hground v hv
  obtain ⟨back, hback, -⟩ := h.symm
  exact ⟨fun ⟨σ, hσ⟩ => ⟨_, hback.unifiesAll hinputs hσ⟩, fun ⟨σ, hσ⟩ => ⟨_, h.unifiesAll hinputs hσ⟩⟩

theorem mem_tuples {α : Type} {facts tuple : List α} {n : ℕ} (h : tuple ∈ tuples facts n) : ∀ v ∈ tuple, v ∈ facts := by
  induction n generalizing tuple with
  | zero =>
    rw [tuples, List.mem_singleton] at h
    simp [h]
  | succ n ih =>
    obtain ⟨fact, hfact, htuple⟩ := List.mem_flatMap.mp h
    obtain ⟨rest, hrest, rfl⟩ := List.mem_map.mp htuple
    intro v hv
    rcases List.mem_cons.mp hv with rfl | hv
    · exact hfact
    · exact ih hrest v hv

def matchOf (requirements : List Predicate) (inputs : List PlanValue) : RequirementMatch :=
  ⟨(unifyAll requirements (inputs.map PlanValue.predicate) []).getD [], inputs⟩

theorem matchOf_inputs (hm : m ∈ matchRequirements requirements facts) : matchOf requirements m.inputs = m := by
  rw [matchOf, (mem_matchRequirements.1 hm).2]
  rfl

def matchingInputs (requirements : List Predicate) (facts : List PlanValue) : List (List PlanValue) :=
  (matchRequirements requirements facts).map RequirementMatch.inputs

theorem matchRequirements_eq_map (requirements : List Predicate) (facts : List PlanValue) :
    matchRequirements requirements facts = (matchingInputs requirements facts).map (matchOf requirements) := by
  rw [matchingInputs, List.map_map]
  exact (List.map_id _).symm.trans (List.map_congr_left fun m hm => (matchOf_inputs hm).symm)

theorem mem_matchingInputs (h : inputs ∈ matchingInputs requirements facts) :
    matchOf requirements inputs ∈ matchRequirements requirements facts := by
  rw [matchRequirements_eq_map]
  exact List.mem_map_of_mem h

theorem RenamedCapability.matchingInputs_eq (h : RenamedCapability rename c c')
    (hground : ∀ v ∈ facts, Ground v.predicate) : matchingInputs c.requires facts = matchingInputs c'.requires facts := by
  rw [matchingInputs, matchingInputs, matchRequirements_inputs, matchRequirements_inputs, ← h.requires.length_eq]
  refine List.filter_congr fun tuple htuple => ?_
  rw [decide_eq_decide]
  exact h.jointlyUnifiable fun v hv => hground v (mem_tuples htuple v hv)

def promised (c : Capability) (m : RequirementMatch) : List Predicate := c.produces.map fun p => substitute p m.bindings

theorem mem_substituteWith_args {f : String → String}
    (hclean : ∀ x ∈ (parseTerm p).args, Text.Clean (f x).toList) (ha : a ∈ (parseTerm p).args) (hne : f a ≠ "") :
    f a ∈ (parseTerm (substituteWith f p)).args := by
  have hparen : '(' ∈ p.toList := by
    by_contra hno
    rw [parseTerm_no_paren hno] at ha
    cases ha
  have htext : substituteWith f p = String.ofList ((parseTerm p).functor.toList ++ '(' ::
      ([',', ' '].intercalate ((parseTerm p).args.map fun x => (f x).toList) ++ [')'])) := by
    unfold substituteWith
    dsimp only
    rw [if_neg (not_not.mpr hparen), ← String.toList_inj]
    simp [String.toList_append, String.toList_intercalate, List.map_map, Function.comp_def]
  have hargs : (parseTerm p).args.map (fun x => (f x).toList) ≠ [[]] := by
    intro hempty
    have hmem := List.mem_map_of_mem (f := fun x => (f x).toList) ha
    rw [hempty, List.mem_singleton] at hmem
    exact hne (by rw [← String.toList_inj]; exact hmem)
  rw [htext, parseTerm_render (parseTerm_functor_trimmed p) (parseTerm_functor_no_paren p)]
  · rw [if_neg hargs, List.map_map]
    refine List.mem_map.mpr ⟨a, ha, ?_⟩
    simp
  · intro cs hcs
    obtain ⟨x, hx, rfl⟩ := List.mem_map.mp hcs
    exact hclean x hx

theorem resolve_constant (hm : m ∈ matchRequirements c.requires facts)
    (hground : Ground (substitute p m.bindings)) (ha : a ∈ (parseTerm p).args) :
    isVariable (resolve a m.bindings) = false := by
  have hvalued := unifyAll_valued (P := fun a => Text.Clean a.toList) FlatUnification.valued_nil
    (fun r _ => parseTerm_args_clean r) (fun q _ => parseTerm_args_clean q) (mem_matchRequirements.1 hm).2
  by_cases hempty : resolve a m.bindings = ""
  · rw [hempty]
    decide
  · exact hground _ (mem_substituteWith_args (fun x hx => hvalued.resolve (parseTerm_args_clean p x hx)) ha hempty)

theorem RenamedCapability.promised_eq (h : RenamedCapability rename c c') (hfacts : ∀ v ∈ facts, Ground v.predicate)
    (hinputs : inputs ∈ matchingInputs c.requires facts)
    (hground : ∀ q ∈ promised c (matchOf c.requires inputs), Ground q) :
    promised c (matchOf c.requires inputs) = promised c' (matchOf c'.requires inputs) := by
  have hm := mem_matchingInputs hinputs
  have hm' := mem_matchingInputs (h.matchingInputs_eq hfacts ▸ hinputs)
  have hin : ∀ q ∈ inputs.map PlanValue.predicate, Ground q := by
    intro q hq
    obtain ⟨v, hv, rfl⟩ := List.mem_map.mp hq
    exact hfacts v ((mem_matchRequirements.1 hm).1 v hv)
  -- the bindings of the renamed match, read through the renaming, follow those of the other
  have hthrough : ((Substitution.ofBindings (matchOf c'.requires inputs).bindings).through rename).Satisfies
      (matchOf c.requires inputs).bindings :=
    ((matchRequirements_bindings hm).2 _).mpr (h.unifiesAll hin (match_unifies hm'))
  have happly : ∀ p ∈ c.produces, ∀ a ∈ (parseTerm p).args,
      resolve a (matchOf c.requires inputs).bindings = resolve (rename a) (matchOf c'.requires inputs).bindings := by
    intro p hp a ha
    have hconst := resolve_constant hm (hground _ (List.mem_map_of_mem hp)) ha
    have hkeeps := ((Substitution.ofBindings (matchOf c'.requires inputs).bindings).through rename).const _ hconst
    exact hkeeps.symm.trans ((hthrough.resolve a).trans (through_apply h _ a))
  rw [promised, promised]
  refine List.ext_getElem (by simp [h.produces.length_eq]) fun i hi hi' => ?_
  rw [List.length_map] at hi hi'
  have hr := (List.forall₂_iff_get.mp h.produces).2 i hi hi'
  have hp : c.produces[i] ∈ c.produces := List.getElem_mem hi
  rw [List.getElem_map, List.getElem_map, substitute, substitute, substituteWith, substituteWith]
  rw [List.get_eq_getElem, List.get_eq_getElem] at hr
  rw [hr.functor, hr.args, List.map_map, if_congr (not_congr hr.parens) rfl rfl]
  rw [List.map_congr_left (happly _ hp)]
  rfl

theorem RenamedCapability.planStep_eq (h : RenamedCapability rename c c') (hinputs : m.inputs = m'.inputs)
    (hpromised : promised c m = promised c' m') (taken : ℕ) : planStep c m taken = planStep c' m' taken := by
  have houtputs : (c.produces.mapIdx fun output p => (⟨substitute p m.bindings, .step (stepName (taken + 1)) output⟩ : PlanValue)) =
      c'.produces.mapIdx fun output p => ⟨substitute p m'.bindings, .step (stepName (taken + 1)) output⟩ := by
    have hmap : ∀ (d : Capability) (n : RequirementMatch), (d.produces.mapIdx fun output p =>
        (⟨substitute p n.bindings, .step (stepName (taken + 1)) output⟩ : PlanValue)) =
          (promised d n).mapIdx fun output q => ⟨q, .step (stepName (taken + 1)) output⟩ := by
      intro d n
      refine List.ext_getElem (by simp [promised]) fun i _ _ => ?_
      simp [promised]
    rw [hmap, hmap, hpromised]
  rw [planStep, planStep, houtputs, hinputs, h.others]

theorem RenamedCapability.successor_eq (h : RenamedCapability rename c c') (m m' : RequirementMatch)
    (hinputs : m.inputs = m'.inputs) (hpromised : promised c m = promised c' m') (state : SearchState) :
    successor state c m = successor state c' m' := by
  rw [successor, successor, h.planStep_eq hinputs hpromised]

theorem addsNothing_eq (hpromised : promised c m = promised c' m') (facts : List PlanValue) :
    addsNothing c m facts = addsNothing c' m' facts := by
  rw [addsNothing, addsNothing]
  exact congrArg (fun ps : List Predicate => ps.all fun p => facts.any fun f => (unify f.predicate p []).isSome) hpromised

end Rename

/-! ## Two catalogs -/

/-- No program that can be derived leaves a fact with a variable in it. -/
def FactsGround (capabilities : List Capability) (ingredients : List Ingredient) : Prop :=
  ∀ steps, Derived capabilities (ingredients.map ingredientValue) steps →
    ∀ v ∈ factsAfter (ingredients.map ingredientValue) steps, Ground v.predicate

section Catalogs
variable {locale : Locale} {catalog : List Variant} {ingredients : List Ingredient} {goals : List Predicate}
  {maxSteps maxStates : Limit}

theorem Variant.others (v : Variant) : v.renamed.id = v.original.id ∧ v.renamed.available = v.original.available := by
  rw [v.holds.others]
  exact ⟨rfl, rfl⟩

variable {capabilities : List Capability} {facts : List PlanValue} {state : List PlanValue × Bool}
    {budget : ℕ}

variable {c : Capability} {m : RequirementMatch}

theorem FactsGround.promised (hground : FactsGround capabilities ingredients) {steps : List PlanStep}
    (hsteps : Derived capabilities (ingredients.map ingredientValue) steps)
    (happ : Applies capabilities (factsAfter (ingredients.map ingredientValue) steps) c m) :
    ∀ q ∈ promised c m, Ground q := by
  intro q hq
  have hq' : q ∈ (planStep c m steps.length).outputs.map PlanValue.predicate := by
    rw [planStep_outputs_predicates]
    exact hq
  obtain ⟨v, hv, rfl⟩ := List.mem_map.mp hq'
  refine hground _ (.snoc hsteps happ) v ?_
  rw [factsAfter_snoc]
  exact List.mem_append_right _ hv

theorem successors_renamed (hground : FactsGround (catalog.map Variant.original) ingredients) {state : SearchState}
    (hs : Sound (catalog.map Variant.original) (ingredients.map ingredientValue) state) :
    successors locale (catalog.map Variant.original) state = successors locale (catalog.map Variant.renamed) state := by
  have hfacts : ∀ v ∈ state.facts, Ground v.predicate := by
    rw [hs.facts]
    exact hground _ hs.derived
  have hids : (fun a b : Variant => byId locale a.renamed b.renamed) = fun a b => byId locale a.original b.original := by
    funext a b
    rw [byId, byId, a.others.1, b.others.1]
  unfold successors
  rw [sortBy_map, sortBy_map, hids, List.flatMap_map, List.flatMap_map]
  refine List.flatMap_congr fun v hv => ?_
  rw [v.others.2]
  split
  · rfl
  · rename_i havailable
    have hlisted : v.original ∈ catalog.map Variant.original := List.mem_map_of_mem (mem_sortBy.1 hv)
    have hpromised : ∀ inputs ∈ matchingInputs v.original.requires state.facts,
        promised v.original (matchOf v.original.requires inputs) = promised v.renamed (matchOf v.renamed.requires inputs) := by
      intro inputs hinputs
      refine v.holds.promised_eq hfacts hinputs (hground.promised hs.derived ?_)
      exact hs.facts ▸ ⟨hlisted, havailable, mem_matchingInputs hinputs⟩
    rw [matchRequirements_eq_map, matchRequirements_eq_map v.renamed.requires, ← v.holds.matchingInputs_eq hfacts,
      List.filter_map, List.filter_map, List.map_map, List.map_map]
    have hfilter : (matchingInputs v.original.requires state.facts).filter
          ((fun m => !addsNothing v.original m state.facts) ∘ matchOf v.original.requires) =
        (matchingInputs v.original.requires state.facts).filter
          ((fun m => !addsNothing v.renamed m state.facts) ∘ matchOf v.renamed.requires) := by
      refine List.filter_congr fun inputs hinputs => ?_
      simp only [Function.comp_apply, addsNothing_eq (hpromised inputs hinputs)]
    rw [hfilter]
    refine List.map_congr_left fun inputs hinputs => ?_
    exact v.holds.successor_eq (matchOf v.original.requires inputs) (matchOf v.renamed.requires inputs) rfl
      (hpromised inputs (List.mem_of_mem_filter hinputs)) state

/-! ## The reachability pass -/

def Reached (capabilities : List Capability) (ingredients : List Ingredient) (facts : List PlanValue) : Prop :=
  ∃ steps, Derived capabilities (ingredients.map ingredientValue) steps ∧
    ∀ v ∈ facts, ∃ w ∈ factsAfter (ingredients.map ingredientValue) steps, w.predicate = v.predicate

theorem FactsGround.reached (hground : FactsGround capabilities ingredients) (h : Reached capabilities ingredients facts) : ∀ v ∈ facts, Ground v.predicate := by
  obtain ⟨steps, hsteps, hfacts⟩ := h
  intro v hv
  obtain ⟨w, hw, heq⟩ := hfacts v hv
  exact heq ▸ hground steps hsteps w hw

theorem same_predicates {facts' inputs : List PlanValue}
    (h : ∀ v ∈ facts, ∃ w ∈ facts', w.predicate = v.predicate) (hinputs : ∀ v ∈ inputs, v ∈ facts) :
    ∃ inputs' : List PlanValue, (∀ v ∈ inputs', v ∈ facts') ∧ inputs'.map PlanValue.predicate = inputs.map PlanValue.predicate := by
  induction inputs with
  | nil => exact ⟨[], by simp, rfl⟩
  | cons v inputs ih =>
    obtain ⟨w, hw, heq⟩ := h v (hinputs v List.mem_cons_self)
    obtain ⟨rest, hrest, hmap⟩ := ih fun u hu => hinputs u (List.mem_cons_of_mem v hu)
    refine ⟨w :: rest, fun u hu => ?_, by rw [List.map_cons, List.map_cons, heq, hmap]⟩
    rcases List.mem_cons.mp hu with rfl | hu
    · exact hw
    · exact hrest u hu

theorem Reached.applies (h : Reached capabilities ingredients facts) (hlisted : c ∈ capabilities)
    (havailable : c.available ≠ some false) (hm : m ∈ matchRequirements c.requires facts) :
    ∃ steps m', Derived capabilities (ingredients.map ingredientValue) steps ∧
      Applies capabilities (factsAfter (ingredients.map ingredientValue) steps) c m' ∧ m'.bindings = m.bindings ∧
      ∀ v ∈ facts, ∃ w ∈ factsAfter (ingredients.map ingredientValue) steps, w.predicate = v.predicate := by
  obtain ⟨steps, hsteps, hfacts⟩ := h
  obtain ⟨hmem, hunify⟩ := mem_matchRequirements.1 hm
  obtain ⟨inputs', hinputs', hmap⟩ := same_predicates hfacts hmem
  exact ⟨steps, ⟨m.bindings, inputs'⟩, hsteps,
    ⟨hlisted, havailable, mem_matchRequirements.2 ⟨hinputs', by rw [hmap]; exact hunify⟩⟩, rfl, hfacts⟩

/-- One product after another is added to the facts, unless it unifies with one. -/
def addProduct (id : String) (state : List PlanValue × Bool) (predicate : Predicate) : List PlanValue × Bool :=
  if state.1.any fun fact => (unify fact.predicate predicate []).isSome then state
  else (state.1 ++ [⟨predicate, .step ("closure-" ++ id) 0⟩], true)

theorem mem_addProducts {id : String} {products : List Predicate} {v : PlanValue}
    (hv : v ∈ (products.foldl (addProduct id) state).1) : v ∈ state.1 ∨ v.predicate ∈ products := by
  induction products generalizing state with
  | nil => exact .inl hv
  | cons p products ih =>
    rcases ih hv with hv | hv
    · unfold addProduct at hv
      split at hv
      · exact .inl hv
      · rcases List.mem_append.mp hv with hv | hv
        · exact .inl hv
        · rw [List.mem_singleton.mp hv]
          exact .inr List.mem_cons_self
    · exact .inr (List.mem_cons_of_mem p hv)

theorem closeCapability_eq (state : List PlanValue × Bool) (c : Capability) :
    closeCapability state c = if c.available = some false then state
      else match (matchRequirements c.requires state.1).head? with
        | none => state
        | some m => (promised c m).foldl (addProduct c.id) state := rfl

theorem Reached.close (h : Reached capabilities ingredients state.1) (hlisted : c ∈ capabilities) :
    Reached capabilities ingredients (closeCapability state c).1 := by
  rw [closeCapability_eq]
  split
  · exact h
  · rename_i havailable
    split
    · exact h
    · rename_i m hm
      obtain ⟨steps, m', hsteps, happ, hbindings, hfacts⟩ := h.applies hlisted havailable (List.mem_of_mem_head? hm)
      refine ⟨_, .snoc hsteps happ, fun v hv => ?_⟩
      rw [factsAfter_snoc]
      rcases mem_addProducts hv with hv | hv
      · obtain ⟨w, hw, heq⟩ := hfacts v hv
        exact ⟨w, List.mem_append_left _ hw, heq⟩
      · have hout : v.predicate ∈ (planStep c m' steps.length).outputs.map PlanValue.predicate := by
          rw [planStep_outputs_predicates]
          rw [promised, ← hbindings] at hv
          exact hv
        obtain ⟨w, hw, heq⟩ := List.mem_map.mp hout
        exact ⟨w, List.mem_append_right _ hw, heq⟩

theorem closeCapability_renamed (hground : FactsGround (catalog.map Variant.original) ingredients) (h : Reached (catalog.map Variant.original) ingredients state.1) {v : Variant}
    (hv : v ∈ catalog) : closeCapability state v.original = closeCapability state v.renamed := by
  have hfacts := hground.reached h
  have hlisted : v.original ∈ catalog.map Variant.original := List.mem_map_of_mem hv
  rw [closeCapability_eq, closeCapability_eq, v.others.1, v.others.2]
  split
  · rfl
  · rename_i havailable
    rw [matchRequirements_eq_map, matchRequirements_eq_map v.renamed.requires, ← v.holds.matchingInputs_eq hfacts,
      List.head?_map, List.head?_map]
    cases hhead : (matchingInputs v.original.requires state.1).head? with
    | none => rfl
    | some inputs =>
      have hinputs := List.mem_of_mem_head? hhead
      obtain ⟨steps, m', hsteps, happ, hbindings, -⟩ := h.applies hlisted havailable (mem_matchingInputs hinputs)
      have hpromised := hground.promised hsteps happ
      rw [promised, hbindings] at hpromised
      simp only [Option.map_some]
      rw [v.holds.promised_eq hfacts hinputs hpromised]

theorem closePass_renamed (hground : FactsGround (catalog.map Variant.original) ingredients) {vs : List Variant}
    (hvs : ∀ v ∈ vs, v ∈ catalog) (state : List PlanValue × Bool)
    (h : Reached (catalog.map Variant.original) ingredients state.1) :
    (vs.map Variant.original).foldl closeCapability state = (vs.map Variant.renamed).foldl closeCapability state ∧
      Reached (catalog.map Variant.original) ingredients ((vs.map Variant.original).foldl closeCapability state).1 := by
  induction vs generalizing state with
  | nil => exact ⟨rfl, h⟩
  | cons v vs ih =>
    have hv := hvs v List.mem_cons_self
    have hclose := h.close (List.mem_map_of_mem (f := Variant.original) hv)
    rw [List.map_cons, List.map_cons, List.foldl_cons, List.foldl_cons, ← closeCapability_renamed hground h hv]
    exact ih (fun u hu => hvs u (List.mem_cons_of_mem v hu)) _ hclose

theorem closure_renamed (hground : FactsGround (catalog.map Variant.original) ingredients) {pass : ℕ} (h : Reached (catalog.map Variant.original) ingredients facts) :
    closure (catalog.map Variant.original) maxSteps budget pass facts =
      closure (catalog.map Variant.renamed) maxSteps budget pass facts := by
  induction budget generalizing pass facts with
  | zero => rw [closure, closure]
  | succ budget ih =>
    obtain ⟨hsame, hreached⟩ := closePass_renamed hground (fun v hv => hv) (facts, false) h
    rw [closure, closure]
    split
    · rfl
    · dsimp only
      rw [← hsame]
      split
      · exact ih hreached
      · rfl

/-! ## The search -/

section
variable (hground : FactsGround (catalog.map Variant.original) ingredients)
include hground

theorem unsolved_renamed {explored : ℕ} :
    unsolved (catalog.map Variant.original) ingredients goals maxSteps maxStates budget explored =
      unsolved (catalog.map Variant.renamed) ingredients goals maxSteps maxStates budget explored := by
  have hstart : Reached (catalog.map Variant.original) ingredients (ingredients.map ingredientValue) := by
    refine ⟨[], .nil, fun v hv => ⟨v, ?_, rfl⟩⟩
    rw [factsAfter, List.flatMap_nil, List.append_nil]
    exact hv
  rw [unsolved, unsolved, closure_renamed hground hstart]

theorem searchRound_renamed {search : Search}
    (hqueue : ∀ s ∈ search.queue, Sound (catalog.map Variant.original) (ingredients.map ingredientValue) s) :
    searchRound locale (catalog.map Variant.original) goals maxSteps maxStates search =
      searchRound locale (catalog.map Variant.renamed) goals maxSteps maxStates search := by
  unfold searchRound
  split
  · rfl
  · split
    · rfl
    · rename_i state queue hsorted
      have htaken : Taken locale search state queue := hsorted
      dsimp only
      rw [successors_renamed hground (hqueue state htaken.mem)]

theorem searchLoop_renamed {rounds : ℕ} {search : Search}
    (hqueue : ∀ s ∈ search.queue, Sound (catalog.map Variant.original) (ingredients.map ingredientValue) s) :
    searchLoop locale (catalog.map Variant.original) ingredients goals maxSteps maxStates budget rounds search =
      searchLoop locale (catalog.map Variant.renamed) ingredients goals maxSteps maxStates budget rounds search := by
  induction rounds generalizing search with
  | zero => rfl
  | succ rounds ih =>
    rw [searchLoop, searchLoop, ← searchRound_renamed hground hqueue]
    cases hround : searchRound locale (catalog.map Variant.original) goals maxSteps maxStates search with
    | solved program explored => rfl
    | stopped explored => exact unsolved_renamed hground
    | next next =>
      refine ih ?_
      exact Rounds.queued (fun s hs _ hc => hs.successors hc) (Relation.ReflTransGen.single hround) hqueue

theorem solve_renamed (locale : Locale) (budget : ℕ) (goals : List Predicate) (options : SolveOptions) :
    solve locale budget (catalog.map Variant.original) ingredients goals options =
      solve locale budget (catalog.map Variant.renamed) ingredients goals options := by
  refine searchLoop_renamed hground fun s hs => ?_
  rw [Search.start, List.mem_singleton] at hs
  rw [hs]
  exact sound_start _ _

end

end Catalogs

/-! ## One capability -/

def SolveResult.outcome : SolveResult → Option (ℚ × List String)
  | .ok program _ => some (program.totalCost, program.steps.map PlanStep.capability)
  | .failed _ _ _ => none

def NewNames (rename : String → String) (c : Capability) (elsewhere : List Predicate) : Prop :=
  ∀ a ∈ c.arguments, isVariable a = true → a ≠ "_" → ∀ p ∈ elsewhere, rename a ∉ (parseTerm p).args

def VariablesLocal (capabilities : List Capability) (ingredients : List Ingredient) (goals : List Predicate) : Prop :=
  ∀ before c after, capabilities = before ++ c :: after → ∀ rename c', RenamedCapability rename c c' →
    NewNames rename c (capabilities.flatMap (fun d => d.requires ++ d.produces) ++ ingredients.map Ingredient.predicate ++ goals) →
    ∀ locale budget options,
      (solve locale budget capabilities ingredients goals options).map SolveResult.outcome =
        (solve locale budget (before ++ c' :: after) ingredients goals options).map SolveResult.outcome

/-- One capability leaves `X` unbound in its product, and another uses the same name. -/
def unboundCatalog : List Capability :=
  [⟨"open", "ledger", "open", ["start"], ["account(X)"], none, none, none, none, none⟩,
    ⟨"close", "ledger", "close", ["period(X)", "account(k2)"], ["closed"], none, none, none, none, none⟩]

/-- The second capability under another name. -/
def renamedClose : Capability :=
  ⟨"close", "ledger", "close", ["period(Z)", "account(k2)"], ["closed"], none, none, none, none, none⟩

end AvenOS.Actors
