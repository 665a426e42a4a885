import AvenOS.Actors.FactText
import AvenOS.Foundations.UniformCost

/-! # When the program found is the cheapest one

A program is a list of applications, each of a capability to facts already known. `solve` searches
them in order of cost and forgets a state whose key it met before; the search is optimal as long as
a key tells two states with different facts apart. The key joins the predicates with a bar and does
not quote a bar inside them, so that is a condition on the catalog. -/
namespace AvenOS.Actors
open Text StableSort UniformCost

/-! ## Programs as applications -/

/-- One capability applied to known facts under one substitution. -/
structure Application where
  capability : Capability
  inputs : List Predicate
  substitution : Substitution

def Application.outputs (a : Application) : List Predicate :=
  a.capability.produces.map a.substitution.instantiate

def Application.cost (a : Application) : ℚ := a.capability.cost.getD 1

structure Application.Valid (capabilities : List Capability) (known : List Predicate)
    (a : Application) : Prop where
  listed : a.capability ∈ capabilities
  available : a.capability.available ≠ some false
  known : ∀ p ∈ a.inputs, p ∈ known
  unifies : a.substitution.UnifiesAll a.capability.requires a.inputs

/-- The applications are valid one after another and end with these facts. -/
inductive Leads (capabilities : List Capability) :
    List Predicate → List Application → List Predicate → Prop
  | nil {known : List Predicate} : Leads capabilities known [] known
  | cons {known final : List Predicate} {a : Application} {rest : List Application} :
      a.Valid capabilities known → Leads capabilities (known ++ a.outputs) rest final →
      Leads capabilities known (a :: rest) final

def Proves (known goals : List Predicate) : Prop :=
  ∃ inputs, (∀ p ∈ inputs, p ∈ known) ∧ ∃ σ : Substitution, σ.UnifiesAll goals inputs

def ValidProgram (capabilities : List Capability) (ingredients : List Ingredient)
    (goals : List Predicate) (applications : List Application) : Prop :=
  ∃ final, Leads capabilities (ingredients.map Ingredient.predicate) applications final ∧
    Proves final goals

def programCost (applications : List Application) : ℚ := (applications.map Application.cost).sum

/-! ## What the search is asked to do -/

/-- The next round meets a state it may not extend any more. -/
def CutOff (locale : Locale) (goals : List Predicate) (maxSteps : Limit) (search : Search) : Prop :=
  ∃ state queue, Taken locale search state queue ∧ ¬ Known search state ∧
    resolveGoals goals state.facts = none ∧ maxSteps ≤ state.steps.length

/-- No state that this call explores is cut off. -/
def NeverCut (locale : Locale) (capabilities : List Capability) (ingredients : List Ingredient)
    (goals : List Predicate) (options : SolveOptions) : Prop :=
  ∀ search, Rounds locale capabilities goals (options.maxSteps.getD DEFAULT_MAX_STEPS)
      (options.maxStates.getD DEFAULT_MAX_STATES) (.start ingredients) search →
    ¬ CutOff locale goals (options.maxSteps.getD DEFAULT_MAX_STEPS) search

/-- The answer is a cheapest program, or there is none, unless a limit interfered. -/
structure SolvesOptimally (locale : Locale) (budget : ℕ) (capabilities : List Capability)
    (ingredients : List Ingredient) (goals : List Predicate) (options : SolveOptions) : Prop where
  cheapest : ∀ program explored,
    solve locale budget capabilities ingredients goals options = some (.ok program explored) →
    NeverCut locale capabilities ingredients goals options →
    ∀ applications, ValidProgram capabilities ingredients goals applications →
      program.totalCost ≤ programCost applications
  complete : ∀ unmetGoals explored reason,
    solve locale budget capabilities ingredients goals options =
      some (.failed unmetGoals explored reason) →
    NeverCut locale capabilities ingredients goals options →
    ¬ options.maxStates.getD DEFAULT_MAX_STATES ≤ explored →
    ∀ applications, ¬ ValidProgram capabilities ingredients goals applications

def ProducesBound (capability : Capability) : Prop :=
  ∀ p ∈ capability.produces, ∀ x ∈ (parseTerm p).args, isVariable x = true →
    x ≠ "_" ∧ ∃ r ∈ capability.requires, x ∈ (parseTerm r).args

instance (capability : Capability) : Decidable (ProducesBound capability) := by
  unfold ProducesBound
  infer_instance

/-- A catalog and ingredients the optimality of the search is claimed for. -/
structure Priced (capabilities : List Capability) (ingredients : List Ingredient) : Prop where
  costs : ∀ c ∈ capabilities, 0 ≤ c.cost.getD 1
  ground : ∀ i ∈ ingredients, Ground i.predicate
  bound : ∀ c ∈ capabilities, ProducesBound c

/-- A state that can be derived has every fact of a dearer one with its key. -/
def KeyFaithful (capabilities : List Capability) (ingredients : List Ingredient) : Prop :=
  ∀ s e, Sound capabilities (ingredients.map ingredientValue) s →
    Sound capabilities (ingredients.map ingredientValue) e →
    stateKey e = stateKey s → e.cost ≤ s.cost →
    ∀ v ∈ s.facts, ∃ w ∈ e.facts, parseTerm w.predicate = parseTerm v.predicate

/-! ## Ground facts -/

section Ground
variable {σ τ : Substitution} {requires inputs : List Predicate} {p q r : Predicate} {x : String}

theorem Substitution.Unifies.of_parseTerm_eq (h : σ.Unifies r p) (heq : parseTerm q = parseTerm p) : σ.Unifies r q := by
  unfold Substitution.Unifies at h ⊢
  rw [heq]
  exact h

theorem Substitution.Unifies.apply_eq (h : σ.Unifies r p) (hp : Ground p)
    (hx : x ∈ (parseTerm r).args) (hwild : x ≠ "_") :
    ∃ c ∈ (parseTerm p).args, ∀ τ : Substitution, τ.Unifies r p → τ.apply x = c := by
  obtain ⟨i, hi, hxi⟩ := List.mem_iff_getElem.mp hx
  have hlen := h.2.length_eq
  have hi' : i < (parseTerm p).args.length := hlen ▸ hi
  refine ⟨(parseTerm p).args[i], List.getElem_mem hi', fun τ hτ => ?_⟩
  have hconst := hp _ (List.getElem_mem hi')
  have hagree := List.forall₂_iff_get.mp hτ.2 |>.2 i hi hi'
  simp only [List.get_eq_getElem, hxi] at hagree
  rcases hagree with hw | hw | hw
  · exact absurd hw hwild
  · rw [hw] at hconst
    exact absurd hconst (by decide)
  · rw [hw]
    exact τ.const _ hconst

theorem Substitution.UnifiesAll.mem (h : σ.UnifiesAll requires inputs) (hr : r ∈ requires) :
    ∃ p ∈ inputs, σ.Unifies r p ∧ ∀ τ : Substitution, τ.UnifiesAll requires inputs → τ.Unifies r p := by
  obtain ⟨i, hi, rfl⟩ := List.mem_iff_getElem.mp hr
  have hi' : i < inputs.length := h.length_eq ▸ hi
  exact ⟨inputs[i], List.getElem_mem hi', (List.forall₂_iff_get.mp h).2 i hi hi',
    fun τ hτ => (List.forall₂_iff_get.mp hτ).2 i hi hi'⟩

theorem substituteWith_congr {f g : String → String}
    (h : ∀ x ∈ (parseTerm p).args, f x = g x) : substituteWith f p = substituteWith g p := by
  unfold substituteWith
  dsimp only
  rw [List.map_congr_left h]

variable {capability : Capability}

theorem ProducesBound.apply (hb : ProducesBound capability)
    (hin : ∀ q ∈ inputs, Ground q) (h : σ.UnifiesAll capability.requires inputs)
    (hp : p ∈ capability.produces) (hx : x ∈ (parseTerm p).args) :
    ∃ c, isVariable c = false ∧ (c ∈ (parseTerm p).args ∨ ∃ q ∈ inputs, c ∈ (parseTerm q).args) ∧
      ∀ τ : Substitution, τ.UnifiesAll capability.requires inputs → τ.apply x = c := by
  cases hvar : isVariable x with
  | false => exact ⟨x, hvar, .inl hx, fun τ _ => τ.const x hvar⟩
  | true =>
    obtain ⟨hwild, r, hr, hxr⟩ := hb p hp x hx hvar
    obtain ⟨q, hq, hrq, hall⟩ := h.mem hr
    obtain ⟨c, hc, happly⟩ := hrq.apply_eq (hin q hq) hxr hwild
    exact ⟨c, hin q hq c hc, .inr ⟨q, hq, hc⟩, fun τ hτ => happly τ (hall τ hτ)⟩

theorem ProducesBound.instantiate_eq (hb : ProducesBound capability)
    (hin : ∀ q ∈ inputs, Ground q) (hσ : σ.UnifiesAll capability.requires inputs)
    (hτ : τ.UnifiesAll capability.requires inputs) (hp : p ∈ capability.produces) :
    σ.instantiate p = τ.instantiate p := by
  refine substituteWith_congr fun x hx => ?_
  obtain ⟨c, -, -, happly⟩ := hb.apply hin hσ hp hx
  rw [happly σ hσ, happly τ hτ]

theorem ProducesBound.instantiate_args (hb : ProducesBound capability)
    (hin : ∀ q ∈ inputs, Ground q) (hσ : σ.UnifiesAll capability.requires inputs)
    (hp : p ∈ capability.produces) : ∀ a ∈ (parseTerm (σ.instantiate p)).args,
      isVariable a = false ∧ (a ∈ (parseTerm p).args ∨ ∃ q ∈ inputs, a ∈ (parseTerm q).args) := by
  intro a ha
  obtain ⟨x, hx, rfl⟩ := parseTerm_substituteWith_args (fun x hx => by
    obtain ⟨c, -, hc, happly⟩ := hb.apply hin hσ hp hx
    rw [happly σ hσ]
    rcases hc with hc | ⟨q, -, hc⟩
    · exact parseTerm_args_clean p c hc
    · exact parseTerm_args_clean q c hc) a ha
  obtain ⟨c, hconst, hc, happly⟩ := hb.apply hin hσ hp hx
  rw [happly σ hσ]
  exact ⟨hconst, hc⟩

end Ground

section Derived
variable {capabilities : List Capability} {ingredients : List Ingredient} {steps : List PlanStep}
  {facts : List PlanValue} {capability : Capability} {m : RequirementMatch}

theorem Applies.ground_inputs (happ : Applies capabilities facts capability m)
    (hfacts : ∀ v ∈ facts, Ground v.predicate) : ∀ q ∈ m.inputs.map PlanValue.predicate, Ground q := by
  intro q hq
  obtain ⟨v, hv, rfl⟩ := List.mem_map.mp hq
  exact hfacts v ((mem_matchRequirements.1 happ.matched).1 v hv)

theorem Derived.ground (h : Derived capabilities (ingredients.map ingredientValue) steps)
    (hpriced : Priced capabilities ingredients) :
    ∀ v ∈ factsAfter (ingredients.map ingredientValue) steps, Ground v.predicate := by
  induction h with
  | nil =>
    intro v hv
    rw [factsAfter, List.flatMap_nil, List.append_nil] at hv
    obtain ⟨i, hi, rfl⟩ := List.mem_map.mp hv
    exact hpriced.ground i hi
  | @snoc steps capability m _ happ ih =>
    intro v hv
    rw [factsAfter_snoc] at hv
    rcases List.mem_append.mp hv with hv | hv
    · exact ih v hv
    · obtain ⟨p, hp, heq⟩ := planStep_output_predicate hv
      rw [heq]
      intro a ha
      exact ((hpriced.bound capability happ.listed).instantiate_args (happ.ground_inputs ih)
        (match_unifies happ.matched) hp a ha).1

end Derived

/-! ## The search problem -/

/-- What is known at some point of a program, and what it cost so far. -/
structure Situation where
  known : List Predicate
  price : ℚ

def Situation.after (t : Situation) (a : Application) : Situation :=
  ⟨t.known ++ a.outputs, t.price + a.cost⟩

def Situation.start (ingredients : List Ingredient) : Situation :=
  ⟨ingredients.map Ingredient.predicate, 0⟩

def Holds (facts : List PlanValue) (known : List Predicate) : Prop :=
  ∀ p ∈ known, ∃ v ∈ facts, parseTerm v.predicate = parseTerm p

structure Covers (s : SearchState) (t : Situation) : Prop where
  cost : s.cost ≤ t.price
  holds : Holds s.facts t.known

variable {facts : List PlanValue} {known : List Predicate}

theorem Holds.append {more : List Predicate} (h : Holds facts known) (hmore : Holds facts more) :
    Holds facts (known ++ more) := by
  intro p hp
  rcases List.mem_append.mp hp with hp | hp
  · exact h p hp
  · exact hmore p hp

theorem Holds.mono {facts' : List PlanValue} (h : Holds facts known) (hsub : ∀ v ∈ facts, v ∈ facts') :
    Holds facts' known := by
  intro p hp
  obtain ⟨v, hv, heq⟩ := h p hp
  exact ⟨v, hsub v hv, heq⟩

theorem Holds.unifiesAll {rs ps : List Predicate} (h : Holds facts known) (hps : ∀ p ∈ ps, p ∈ known)
    {σ : Substitution} (hσ : σ.UnifiesAll rs ps) : ∃ inputs : List PlanValue,
      (∀ v ∈ inputs, v ∈ facts) ∧ σ.UnifiesAll rs (inputs.map PlanValue.predicate) := by
  unfold Substitution.UnifiesAll at hσ ⊢
  induction hσ with
  | nil => exact ⟨[], by simp, List.Forall₂.nil⟩
  | @cons r p rs ps hrp _ ih =>
    obtain ⟨v, hv, heq⟩ := h p (hps p List.mem_cons_self)
    obtain ⟨inputs, hin, hall⟩ := ih fun p hp => hps p (List.mem_cons_of_mem _ hp)
    refine ⟨v :: inputs, ?_, List.Forall₂.cons (hrp.of_parseTerm_eq heq) hall⟩
    intro w hw
    rcases List.mem_cons.mp hw with rfl | hw
    · exact hv
    · exact hin w hw

theorem Holds.resolveGoals {goals : List Predicate} (h : Holds facts known) (hgoals : Proves known goals) :
    resolveGoals goals facts ≠ none := by
  obtain ⟨ps, hps, σ, hσ⟩ := hgoals
  obtain ⟨inputs, hin, hall⟩ := h.unifiesAll hps hσ
  obtain ⟨m, hm, -, -⟩ := match_complete hin hall
  intro hnone
  rw [AvenOS.Actors.resolveGoals, Option.map_eq_none_iff, List.head?_eq_none_iff] at hnone
  rw [hnone] at hm
  cases hm

theorem addsNothing_holds {capability : Capability} {m : RequirementMatch}
    (hadds : addsNothing capability m facts = true) (hfacts : ∀ v ∈ facts, Ground v.predicate)
    (hout : ∀ p ∈ capability.produces, Ground ((Substitution.ofBindings m.bindings).instantiate p)) :
    Holds facts (capability.produces.map (Substitution.ofBindings m.bindings).instantiate) := by
  intro q hq
  obtain ⟨p, hp, rfl⟩ := List.mem_map.mp hq
  have hany := List.all_eq_true.mp hadds _ hq
  obtain ⟨v, hv, hunify⟩ := List.any_eq_true.mp hany
  obtain ⟨σ, hσ⟩ := unifiable_iff.1 hunify
  exact ⟨v, hv, hσ.parseTerm_eq (hfacts v hv) (hout p hp)⟩

section Problem
variable {locale : Locale} {capabilities : List Capability} {ingredients : List Ingredient}

theorem Covers.follow (hpriced : Priced capabilities ingredients) {s : SearchState}
    (hs : Sound capabilities (ingredients.map ingredientValue) s) {t : Situation} (h : Covers s t)
    {a : Application} (ha : a.Valid capabilities t.known) : Covers s (t.after a) ∨
      ∃ c ∈ successors locale capabilities s, Covers c (t.after a) := by
  have hground : ∀ v ∈ s.facts, Ground v.predicate := by
    rw [hs.facts]
    exact hs.derived.ground hpriced
  obtain ⟨inputs, hin, hall⟩ := h.holds.unifiesAll ha.known ha.unifies
  obtain ⟨m, hm, hminputs, -⟩ := match_complete hin hall
  have happ : Applies capabilities s.facts a.capability m := ⟨ha.listed, ha.available, hm⟩
  have hmatch := match_unifies hm
  have hbound := hpriced.bound a.capability ha.listed
  have hginputs := happ.ground_inputs hground
  have hground' : ∀ p ∈ a.capability.produces, Ground ((Substitution.ofBindings m.bindings).instantiate p) := by
    intro p hp x hx
    exact (hbound.instantiate_args hginputs hmatch hp x hx).1
  -- the match makes the very outputs of the application
  have hsame : a.outputs = a.capability.produces.map (Substitution.ofBindings m.bindings).instantiate := by
    refine List.map_congr_left fun p hp => ?_
    refine hbound.instantiate_eq hginputs ?_ hmatch hp
    rw [hminputs]
    exact hall
  have hcost : 0 ≤ a.cost := hpriced.costs a.capability ha.listed
  cases hadds : addsNothing a.capability m s.facts with
  | true =>
    refine .inl ⟨?_, h.holds.append ?_⟩
    · exact h.cost.trans (le_add_of_nonneg_right hcost)
    · rw [hsame]
      exact addsNothing_holds hadds hground hground'
  | false =>
    refine .inr ⟨_, mem_successors.2 ⟨a.capability, m, happ, hadds, rfl⟩, ?_, ?_⟩
    · exact add_le_add_left h.cost a.cost
    · refine Holds.append (h.holds.mono fun v hv => List.mem_append_left _ hv) ?_
      intro q hq
      have hmem : q ∈ (planStep a.capability m s.steps.length).outputs.map PlanValue.predicate := by
        rw [planStep_outputs_predicates]
        exact hsame ▸ hq
      obtain ⟨v, hv, rfl⟩ := List.mem_map.mp hmem
      exact ⟨v, List.mem_append_right _ hv, rfl⟩

/-- The search of `solve` as a uniform-cost problem. -/
def searchProblem (locale : Locale) (hpriced : Priced capabilities ingredients)
    (hfaithful : KeyFaithful capabilities ingredients) :
    Problem SearchState Situation String ℚ where
  children := successors locale capabilities
  key := stateKey
  cost := SearchState.cost
  valid := Sound capabilities (ingredients.map ingredientValue)
  covers := Covers
  move t t' := ∃ a : Application, a.Valid capabilities t.known ∧ t' = t.after a
  price := Situation.price
  cost_le _ _ h := h.cost
  move_le := by
    rintro t _ ⟨a, ha, rfl⟩
    exact le_add_of_nonneg_right (hpriced.costs a.capability ha.listed)
  valid_children _ hs _ hc := hs.successors hc
  follow := by
    rintro s t _ hs hcov ⟨a, ha, rfl⟩
    exact hcov.follow hpriced hs ha
  collapse := by
    intro e s t he hs hkey hcost hcov
    refine ⟨hcost.trans hcov.cost, fun p hp => ?_⟩
    obtain ⟨v, hv, hvp⟩ := hcov.holds p hp
    obtain ⟨w, hw, hwv⟩ := hfaithful s e hs he hkey hcost v hv
    exact ⟨w, hw, hwv.trans hvp⟩

theorem Leads.moves {known final : List Predicate} {applications : List Application}
    (h : Leads capabilities known applications final) (price : ℚ) :
    Relation.ReflTransGen (fun t t' : Situation =>
        ∃ a : Application, a.Valid capabilities t.known ∧ t' = t.after a)
      ⟨known, price⟩ ⟨final, price + programCost applications⟩ := by
  induction h generalizing price with
  | nil =>
    rw [programCost, List.map_nil, List.sum_nil, add_zero]
  | @cons known final a rest ha _ ih =>
    have hsum : price + programCost (a :: rest) = price + a.cost + programCost rest := by
      rw [programCost, List.map_cons, List.sum_cons, add_assoc, programCost]
    rw [hsum]
    exact Relation.ReflTransGen.head ⟨a, ha, rfl⟩ (ih (price + a.cost))

variable {goals : List Predicate} {maxSteps maxStates : Limit} {search last : Search}

structure Explored (locale : Locale) (hpriced : Priced capabilities ingredients)
    (hfaithful : KeyFaithful capabilities ingredients) (goals : List Predicate)
    (expanded : Set SearchState) (search : Search) : Prop where
  frontier : Frontier (searchProblem locale hpriced hfaithful) (.start ingredients) expanded
    search.queue search.best
  unmet : ∀ e ∈ expanded, resolveGoals goals e.facts = none

variable (hpriced : Priced capabilities ingredients)
  (hfaithful : KeyFaithful capabilities ingredients)

theorem explored_start : Explored locale hpriced hfaithful goals ∅ (.start ingredients) where
  frontier := by
    refine frontier_init (sound_start capabilities _) ⟨le_refl 0, ?_⟩
    intro p hp
    obtain ⟨i, hi, rfl⟩ := List.mem_map.mp hp
    exact ⟨ingredientValue i, List.mem_map_of_mem hi, rfl⟩
  unmet := fun e he => absurd he (Set.notMem_empty e)

theorem Rounds.explored (h : Rounds locale capabilities goals maxSteps maxStates (.start ingredients) last)
    (huncut : ∀ search, Rounds locale capabilities goals maxSteps maxStates (.start ingredients)
      search → ¬ CutOff locale goals maxSteps search) :
    ∃ expanded, Explored locale hpriced hfaithful goals expanded last := by
  induction h with
  | refl => exact ⟨∅, explored_start hpriced hfaithful⟩
  | @tail mid last hmid hround ih =>
    obtain ⟨expanded, hexplored⟩ := ih
    have hcase := @searchRound_cases locale capabilities goals maxSteps maxStates mid
    rw [hround] at hcase
    cases hcase with
    | @pruned state queue htaken hknown =>
      obtain ⟨known, hlook, hle⟩ := hknown
      exact ⟨expanded, hexplored.frontier.prune htaken.perm hlook hle, hexplored.unmet⟩
    | @cut state queue htaken hfresh hunmet hsteps =>
      exact absurd ⟨state, queue, htaken, hfresh, hunmet, hsteps⟩ (huncut mid hmid)
    | @expanded state queue htaken hfresh hunmet hsteps =>
      refine ⟨insert state expanded, hexplored.frontier.expand htaken.perm, ?_⟩
      intro e he
      rcases Set.mem_insert_iff.mp he with rfl | he
      · exact hunmet
      · exact hexplored.unmet e he

variable {hpriced hfaithful}

theorem Explored.not_covered {expanded : Set SearchState}
    (h : Explored locale hpriced hfaithful goals expanded search) {t : Situation}
    (ht : Proves t.known goals) : ∀ e ∈ expanded, ¬ Covers e t :=
  fun e he hcov => hcov.holds.resolveGoals ht (h.unmet e he)

instance (locale : Locale) : Std.TransCmp (compareStates locale) := by
  have hkey := transCmp_on locale.localeCompare stateKey
  exact inferInstanceAs (Std.TransCmp (compareLex _ (compareLex _ _)))

theorem Taken.cheapest {state : SearchState} {queue : List SearchState}
    (h : Taken locale search state queue) : ∀ s ∈ search.queue, state.cost ≤ s.cost := by
  intro s hs
  have hle := sortBy_head_le (compareStates locale) h hs
  by_contra hlt
  have hgt : compareOn SearchState.cost state s = .gt := compare_gt_iff_gt.mpr (not_le.mp hlt)
  rw [compareStates, compareLex, hgt] at hle
  cases hle

end Problem

/-! ## Keys without a bar -/

/-- What a state key needs of a fact. -/
def Unbarred (p : Predicate) : Prop := p ≠ "" ∧ '|' ∉ p.toList

theorem substituteWith_ne_empty {f : String → String} {p : Predicate} (hp : trim p ≠ "") : substituteWith f p ≠ "" := by
  unfold substituteWith
  dsimp only
  split
  · rename_i hparen
    rw [parseTerm_no_paren hparen]
    exact hp
  · intro h
    have hlen := congrArg (fun s : String => s.toList.length) h
    simp [String.toList_append] at hlen

section Plain
variable {capabilities : List Capability} {ingredients : List Ingredient} {steps : List PlanStep}

/-- A catalog and ingredients without bars and without blank predicates. -/
structure Unambiguous (capabilities : List Capability) (ingredients : List Ingredient) : Prop where
  bars : Lacks '|' capabilities ingredients
  produces : ∀ k ∈ capabilities, ∀ p ∈ k.produces, trim p ≠ ""
  ingredients : ∀ i ∈ ingredients, i.predicate ≠ ""

theorem Derived.unbarred (h : Derived capabilities (ingredients.map ingredientValue) steps)
    (hplain : Unambiguous capabilities ingredients) :
    ∀ v ∈ factsAfter (ingredients.map ingredientValue) steps, Unbarred v.predicate := by
  intro v hv
  refine ⟨?_, h.lacks hplain.bars (by decide) v hv⟩
  rcases List.mem_append.mp hv with hv | hv
  · obtain ⟨i, hi, rfl⟩ := List.mem_map.mp hv
    exact hplain.ingredients i hi
  · obtain ⟨step, hstep, hout⟩ := List.mem_flatMap.mp hv
    obtain ⟨before, after, capability, m, -, happ, rfl⟩ := h.mem hstep
    obtain ⟨p, hp, heq⟩ := planStep_output_predicate hout
    rw [heq]
    exact substituteWith_ne_empty (hplain.produces capability happ.listed p hp)

theorem stateKey_mem {s e : SearchState} (hs : ∀ v ∈ s.facts, Unbarred v.predicate)
    (he : ∀ v ∈ e.facts, Unbarred v.predicate) (h : stateKey e = stateKey s) :
    ∀ p ∈ s.facts.map PlanValue.predicate, p ∈ e.facts.map PlanValue.predicate := by
  have hparts : ∀ x : SearchState, (∀ v ∈ x.facts, Unbarred v.predicate) →
      ∀ p ∈ sortBy compareText (x.facts.map PlanValue.predicate), Unbarred p := by
    intro x hx p hp
    obtain ⟨v, hv, rfl⟩ := List.mem_map.mp (mem_sortBy.1 hp)
    exact hx v hv
  have hsorted : sortBy compareText (e.facts.map PlanValue.predicate) =
      sortBy compareText (s.facts.map PlanValue.predicate) := by
    unfold stateKey at h
    by_cases hnil : sortBy compareText (s.facts.map PlanValue.predicate) = []
    · rw [hnil] at h ⊢
      exact join_eq_empty (fun p hp => (hparts e he p hp).1) h
    · by_cases hnil' : sortBy compareText (e.facts.map PlanValue.predicate) = []
      · rw [hnil'] at h ⊢
        exact (join_eq_empty (fun p hp => (hparts s hs p hp).1) h.symm).symm
      · exact join_injective (c := '|') rfl (fun p hp => (hparts e he p hp).2)
          (fun p hp => (hparts s hs p hp).2) hnil' hnil h
  intro p hp
  have hmem : p ∈ sortBy compareText (s.facts.map PlanValue.predicate) := mem_sortBy.2 hp
  rw [← hsorted] at hmem
  exact mem_sortBy.1 hmem

theorem keyFaithful_of_unambiguous (hplain : Unambiguous capabilities ingredients) :
    KeyFaithful capabilities ingredients := by
  intro s e hs he hkey _ v hv
  have hfacts : ∀ x : SearchState, Sound capabilities (ingredients.map ingredientValue) x →
      ∀ v ∈ x.facts, Unbarred v.predicate := by
    intro x hx
    rw [hx.facts]
    exact hx.derived.unbarred hplain
  have hmem := stateKey_mem (hfacts s hs) (hfacts e he) hkey _ (List.mem_map_of_mem hv)
  obtain ⟨w, hw, heq⟩ := List.mem_map.mp hmem
  exact ⟨w, hw, by rw [heq]⟩

end Plain

/-! ## The search is optimal -/

/-- One product holds a bar, the other capability produces the two halves of it. -/
def barCatalog : List Capability :=
  [⟨"joined", "splitter", "joined", ["s"], ["a|b"], some 1, none, none, none, none⟩,
    ⟨"split", "splitter", "split", ["s"], ["a", "b"], some 2, none, none, none, none⟩]

/-- The state after `split` has the key of the state after `joined`, and is dropped. -/
def barProgram : AdHocProgram :=
  let s : PlanValue := ⟨"s", .ingredient none⟩
  let a : PlanValue := ⟨"a", .step "step-2" 0⟩
  ⟨["a"],
    [⟨"step-1", "joined", "splitter", "joined", [s], [⟨"a|b", .step "step-1" 0⟩], [], 1⟩,
      ⟨"step-2", "split", "splitter", "split", [s], [a, ⟨"b", .step "step-2" 1⟩], [], 2⟩],
    3, [a]⟩

end AvenOS.Actors
