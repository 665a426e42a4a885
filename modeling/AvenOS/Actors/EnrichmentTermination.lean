import AvenOS.Actors.Saturation
import AvenOS.Foundations.BoundedGrowth
import Mathlib.Algebra.Order.BigOperators.Group.List
import Mathlib.Algebra.Order.BigOperators.Group.Finset

/-! # Enrichment ends by itself

A step is never added below a step of its own capability, so on a path of added steps every capability occurs once. The
capabilities on the paths to a step are its level: inputs come from lower levels, no invocation is made twice, and so the steps
of all levels are finitely many. A pass that changes something adds one, and the loop ends. -/
namespace AvenOS.Actors
open ExceptLoop BoundedGrowth

/-! ## Levels of added steps -/

open Classical in
noncomputable def pathSteps (steps added : List PlanStep) (step : PlanStep) : Finset PlanStep :=
  added.toFinset.filter fun s => s = step ∨ ∃ v ∈ step.inputs, Ancestor steps v s

/-- How many capabilities these steps invoke. -/
noncomputable def level (steps added : List PlanStep) (step : PlanStep) : ℕ :=
  ((pathSteps steps added step).image PlanStep.capability).card

section Level
variable {steps added : List PlanStep} {step s : PlanStep}

theorem mem_pathSteps : s ∈ pathSteps steps added step ↔
    s ∈ added ∧ (s = step ∨ ∃ v ∈ step.inputs, Ancestor steps v s) := by
  simp only [pathSteps, Finset.mem_filter, List.mem_toFinset]

variable (steps) in
theorem level_ne_zero (hstep : step ∈ added) : level steps added step ≠ 0 := by
  have hmem : step.capability ∈ (pathSteps steps added step).image PlanStep.capability :=
    Finset.mem_image_of_mem _ (mem_pathSteps.2 ⟨hstep, .inl rfl⟩)
  exact Finset.card_ne_zero_of_mem hmem

theorem level_le {ids : Finset String} (hids : ∀ s ∈ added, s.capability ∈ ids) :
    level steps added step ≤ ids.card := by
  refine Finset.card_le_card fun id hid => ?_
  obtain ⟨s, hs, rfl⟩ := Finset.mem_image.mp hid
  exact hids s (mem_pathSteps.1 hs).1

theorem level_lt {v : PlanValue} {output : ℕ} (hstep : step ∈ added) (hadded : ∀ s ∈ added, s ∈ steps)
    (hv : v ∈ step.inputs) (hclear : ∀ s, Ancestor steps v s → s.capability ≠ step.capability)
    (hs : s ∈ added) (hsource : v.source = .step s.id output) : level steps added s < level steps added step := by
  have hup : ∀ t ∈ pathSteps steps added s, Ancestor steps v t := by
    intro t ht
    rcases (mem_pathSteps.1 ht).2 with rfl | ⟨input, hinput, hanc⟩
    · exact .producer hsource (hadded _ hs)
    · exact .through hsource (hadded _ hs) hinput hanc
  refine Finset.card_lt_card (Finset.ssubset_iff_of_subset ?_ |>.mpr ⟨step.capability, ?_, ?_⟩)
  · intro id hid
    obtain ⟨t, ht, rfl⟩ := Finset.mem_image.mp hid
    exact Finset.mem_image_of_mem _ (mem_pathSteps.2 ⟨(mem_pathSteps.1 ht).1, .inr ⟨v, hv, hup t ht⟩⟩)
  · exact Finset.mem_image_of_mem _ (mem_pathSteps.2 ⟨hstep, .inl rfl⟩)
  · intro hid
    obtain ⟨t, ht, heq⟩ := Finset.mem_image.mp hid
    exact hclear t (hup t ht) heq

end Level

/-! ## How many steps can be added -/

def widest (capabilities : List Capability) : ℕ := (capabilities.map fun c => c.requires.length).sum

def fullest (capabilities : List Capability) : ℕ := (capabilities.map fun c => c.produces.length).sum

def invocations (capabilities : List Capability) (facts : List PlanValue) (steps : ℕ) : ℕ :=
  capabilities.length * (facts.length + steps * fullest capabilities + 1) ^ widest capabilities

/-- No more steps than this are ever added. -/
def addedBound (capabilities : List Capability) (facts : List PlanValue) : ℕ :=
  (invocations capabilities facts)^[capabilities.length] 0

theorem invocations_monotone (capabilities : List Capability) (facts : List PlanValue) :
    Monotone (invocations capabilities facts) := by
  intro m n hmn
  refine Nat.mul_le_mul_left _ (Nat.pow_le_pow_left ?_ _)
  have hmul := Nat.mul_le_mul_right (fullest capabilities) hmn
  omega

section Bound
variable {capabilities : List Capability} {factFamilies : List String} {ingredients : List Ingredient}
  {initial : List PlanStep} {e : Enrichment}

def Enrichment.addedTo (e : Enrichment) (initial : List PlanStep) : List PlanStep := e.steps.drop initial.length

variable {step : PlanStep} {options : EnrichmentOptions}

theorem added_invokes (h : Added capabilities factFamilies e.steps step) :
    step.capability ∈ (capabilities.map Capability.id).toFinset ∧ step.inputs.length ≤ widest capabilities ∧
      step.outputs.length ≤ fullest capabilities := by
  obtain ⟨capability, σ, hinvokes, -, -⟩ := h
  refine ⟨?_, ?_, ?_⟩
  · rw [List.mem_toFinset, hinvokes.named.1]
    exact List.mem_map_of_mem hinvokes.listed
  · have hlength := List.Forall₂.length_eq hinvokes.inputs
    rw [List.length_map] at hlength
    rw [← hlength]
    exact List.single_le_sum (by simp) _ (List.mem_map_of_mem hinvokes.listed)
  · rw [hinvokes.outputs, List.length_mapIdx]
    exact List.single_le_sum (by simp) _ (List.mem_map_of_mem hinvokes.listed)

theorem added_input (h : Enriching capabilities options.factFamilies (ingredients.map ingredientValue) initial e)
    (hstep : step ∈ e.addedTo initial) {v : PlanValue} (hv : v ∈ step.inputs) :
    v ∈ factsAfter (ingredients.map ingredientValue) initial ∨ ∃ s ∈ e.addedTo initial, v ∈ s.outputs ∧
        level e.steps (e.addedTo initial) s < level e.steps (e.addedTo initial) step := by
  have hadded : ∀ s ∈ e.addedTo initial, s ∈ e.steps := fun s hs => List.mem_of_mem_drop hs
  obtain ⟨before, after, capability, m, hsplit, happ, rfl⟩ := h.derived.mem (hadded _ hstep)
  have hfact := factsAfter_mono ⟨_, hsplit.symm⟩ v ((mem_matchRequirements.1 happ.matched).1 v hv)
  have hwhole : e.steps = initial ++ e.addedTo initial := (List.prefix_iff_eq_append.mp h.kept).symm
  rw [factsAfter, hwhole, List.flatMap_append, ← List.append_assoc, List.mem_append] at hfact
  refine hfact.imp_right fun hout => ?_
  obtain ⟨s, hs, hv'⟩ := List.mem_flatMap.mp hout
  refine ⟨s, hs, hv', ?_⟩
  obtain ⟨_, _, capability', m', _, _, rfl⟩ := h.derived.mem (hadded _ hs)
  obtain ⟨output, hsource, -⟩ := planStep_output hv'
  obtain ⟨c, σ, hinvokes, -, hclear⟩ := h.added_whole _ hstep
  refine level_lt hstep hadded hv (fun t ht => ?_) hs hsource
  rw [hinvokes.named.1]
  exact hclear v hv t ht

theorem card_next_level (h : Enriching capabilities options.factFamilies (ingredients.map ingredientValue) initial e)
    (honce : Once (e.addedTo initial)) (k : ℕ) :
    ((e.addedTo initial).toFinset.filter (level e.steps (e.addedTo initial) · ≤ k + 1)).card ≤
      invocations capabilities (factsAfter (ingredients.map ingredientValue) initial)
        ((e.addedTo initial).toFinset.filter (level e.steps (e.addedTo initial) · ≤ k)).card := by
  set added := e.addedTo initial with hadded
  set start := factsAfter (ingredients.map ingredientValue) initial with hstart
  set lower := added.toFinset.filter (level e.steps added · ≤ k) with hlower
  set upper := added.toFinset.filter (level e.steps added · ≤ k + 1) with hupper
  set values := start.toFinset ∪ lower.biUnion fun s => s.outputs.toFinset with hvalues
  have hspec : ∀ s ∈ added, Added capabilities options.factFamilies e.steps s := h.added_whole
  have hvaluesCard : values.card ≤ start.length + lower.card * fullest capabilities := by
    refine (Finset.card_union_le _ _).trans (Nat.add_le_add (List.toFinset_card_le start) ?_)
    refine Finset.card_biUnion_le_card_mul _ _ _ fun s hs => (List.toFinset_card_le _).trans ?_
    exact (added_invokes (hspec s (List.mem_toFinset.mp (Finset.mem_filter.mp hs).1))).2.2
  have hinputs : (upper.image PlanStep.inputs).card ≤ (values.card + 1) ^ widest capabilities := by
    refine card_lists_le fun inputs hin => ?_
    obtain ⟨s, hs, rfl⟩ := Finset.mem_image.mp hin
    obtain ⟨hmem, hle⟩ := Finset.mem_filter.mp hs
    rw [List.mem_toFinset] at hmem
    refine ⟨(added_invokes (hspec s hmem)).2.1, fun v hv => ?_⟩
    rw [hvalues, Finset.mem_union, List.mem_toFinset, Finset.mem_biUnion]
    refine (added_input h hmem hv).imp_right fun ⟨t, ht, hout, hless⟩ => ⟨t, ?_, List.mem_toFinset.mpr hout⟩
    exact Finset.mem_filter.mpr ⟨List.mem_toFinset.mpr ht, Nat.lt_succ_iff.mp (Nat.lt_of_lt_of_le hless hle)⟩
  have hids : (upper.image PlanStep.capability).card ≤ capabilities.length := by
    refine le_trans (Finset.card_le_card fun id hid => ?_)
      ((List.toFinset_card_le (capabilities.map Capability.id)).trans (List.length_map _).le)
    obtain ⟨s, hs, rfl⟩ := Finset.mem_image.mp hid
    exact (added_invokes (hspec s (List.mem_toFinset.mp (Finset.mem_filter.mp hs).1))).1
  have hpairs : upper.card ≤ ((upper.image PlanStep.capability) ×ˢ (upper.image PlanStep.inputs)).card := by
    refine Finset.card_le_card_of_injOn (fun s => (s.capability, s.inputs)) (fun s hs => ?_) fun a ha b hb heq => ?_
    · exact Finset.mem_product.mpr ⟨Finset.mem_image_of_mem _ hs, Finset.mem_image_of_mem _ hs⟩
    · obtain ⟨hcap, hin⟩ := Prod.mk.inj heq
      by_contra hne
      have ha' := List.mem_toFinset.mp (Finset.mem_filter.mp ha).1
      have hb' := List.mem_toFinset.mp (Finset.mem_filter.mp hb).1
      have hsymm : Std.Symm fun a b : PlanStep => a.capability = b.capability → a.inputs ≠ b.inputs :=
        ⟨fun a b h hcap hin => h hcap.symm hin.symm⟩
      exact honce.forall ha' hb' hne hcap hin
  rw [Finset.card_product] at hpairs
  refine hpairs.trans (Nat.mul_le_mul hids (hinputs.trans (Nat.pow_le_pow_left ?_ _)))
  omega

theorem added_le (h : Enriching capabilities options.factFamilies (ingredients.map ingredientValue) initial e)
    (honce : Once (e.addedTo initial)) :
    e.steps.length ≤ initial.length + addedBound capabilities (factsAfter (ingredients.map ingredientValue) initial) := by
  have hwhole : e.steps = initial ++ e.addedTo initial := (List.prefix_iff_eq_append.mp h.kept).symm
  have hdistinct : (e.addedTo initial).Nodup :=
    (List.drop_sublist initial.length e.steps).nodup h.derived.nodup_ids.of_map
  have hids : ∀ s ∈ e.addedTo initial, s.capability ∈ (capabilities.map Capability.id).toFinset :=
    fun s hs => (added_invokes (h.added_whole s hs)).1
  have hcount := card_le_of_levels (invocations_monotone capabilities _)
    (fun s hs => ⟨level_ne_zero e.steps (List.mem_toFinset.mp hs), (level_le hids).trans
      ((List.toFinset_card_le _).trans (List.length_map _).le)⟩) (card_next_level h honce)
  rw [List.toFinset_card_of_nodup hdistinct] at hcount
  rw [hwhole, List.length_append]
  exact Nat.add_le_add_left hcount _

end Bound

/-! ## The loop -/

section Loop
variable {locale : Locale} {capabilities : List Capability} {factFamilies : List String} {ingredients : List Ingredient}
  {initial : List PlanStep} {e e' : Enrichment} {capability : Capability}

theorem enrichMatch_total (e : Enrichment) (m : RequirementMatch) : ∃ e', enrichMatch ⊤ capability e m = .ok e' := by
  unfold enrichMatch
  dsimp only
  split
  · exact ⟨_, rfl⟩
  · split
    · exact ⟨_, rfl⟩
    · rw [if_neg (not_top_le_nat _)]
      exact ⟨_, rfl⟩

theorem enrichPass_total (admitted : List Capability) (e : Enrichment) : ∃ e', enrichPass ⊤ admitted e = .ok e' :=
  foldlM_total fun _ _ => foldlM_total enrichMatch_total

variable {maxSteps : Limit} {m : RequirementMatch}

theorem enrichMatch_longer (h : enrichMatch maxSteps capability e m = .ok e') :
    e' = e ∨ e.steps.length < e'.steps.length := by
  rcases enrichMatch_cases h with ⟨rfl, -⟩ | ⟨rfl, -⟩
  · exact .inl rfl
  · exact .inr (by simp [Enrichment.invoke])

theorem enrichPass_longer {admitted : List Capability} (h : enrichPass maxSteps admitted e = .ok e')
    (hchanged : e'.changed = true) : e.steps.length < e'.steps.length := by
  have hgrown := foldlM_invariant (P := fun x : Enrichment => e.steps.length ≤ x.steps.length ∧
    (x.changed = true → e.steps.length < x.steps.length)) ?_ h ⟨Nat.le_refl _, fun hfalse => by cases hfalse⟩
  · exact hgrown.2 hchanged
  · intro x c _ x' hx hpass
    refine foldlM_invariant (P := fun y : Enrichment => e.steps.length ≤ y.steps.length ∧
      (y.changed = true → e.steps.length < y.steps.length)) (fun y m _ y' hy hmatch => ?_) hpass hx
    rcases enrichMatch_longer hmatch with rfl | hlonger
    · exact hy
    · exact ⟨hy.1.trans hlonger.le, fun _ => Nat.lt_of_le_of_lt hy.1 hlonger⟩

theorem once_invoke (h : Enriching capabilities factFamilies (ingredients.map ingredientValue) initial e)
    (honce : Once (e.addedTo initial)) (hskips : ¬ Skips e capability m) :
    Once ((e.invoke capability m).addedTo initial) := by
  have hlength : initial.length ≤ e.steps.length := h.kept.length_le
  rw [Enrichment.addedTo, Enrichment.invoke, List.drop_append_of_le_length hlength, Once, List.pairwise_append]
  refine ⟨honce, List.pairwise_singleton _ _, ?_⟩
  intro a ha b hb hcap hin
  rw [List.mem_singleton.mp hb] at hcap hin
  refine hskips (.inr ((h.invoked _).mpr ⟨a, List.mem_of_mem_drop ha, ?_⟩))
  rw [hcap, hin]
  rfl

/-- The meaning of the variables, with no invocation of the loop made twice. -/
def Growing (capabilities : List Capability) (factFamilies : List String) (ingredients : List Ingredient)
    (initial : List PlanStep) (e : Enrichment) : Prop :=
  Enriching capabilities factFamilies (ingredients.map ingredientValue) initial e ∧ Once (e.addedTo initial)

theorem enrichPass_growing (h : enrichPass maxSteps (eligible locale capabilities factFamilies) e = .ok e')
    (he : Growing capabilities factFamilies ingredients initial e) :
    Growing capabilities factFamilies ingredients initial e' := by
  have hfirst : Growing capabilities factFamilies ingredients initial { e with changed := false } :=
    ⟨⟨he.1.derived, he.1.facts, he.1.invoked, he.1.once, he.1.kept, he.1.added⟩, he.2⟩
  refine foldlM_invariant (fun x c hc x' hx hpass => ?_) h hfirst
  obtain ⟨hlisted, hadmits⟩ := mem_eligible.1 hc
  have hall := foldlM_invariant (P := fun y => Growing capabilities factFamilies ingredients initial y ∧
    x.steps <+: y.steps) ?_ hpass ⟨hx, List.prefix_refl _⟩
  · exact hall.1
  · rintro y m hm y' ⟨hy, hprefix⟩ hmatch
    rcases enrichMatch_cases hmatch with ⟨rfl, -⟩ | ⟨rfl, hskips⟩
    · exact ⟨hy, hprefix⟩
    · have happ : Applies capabilities y.facts c m := by
        refine Applies.mono ⟨hlisted, hadmits.available, hm⟩ ?_
        rw [hx.1.facts, hy.1.facts]
        exact factsAfter_mono hprefix
      exact ⟨⟨hy.1.invoke (supplied_ingredients ingredients) happ hadmits hskips, once_invoke hy.1 hy.2 hskips⟩,
        hprefix.trans (List.prefix_append _ _)⟩

variable (locale) in
theorem enrichLoop_ends (options : EnrichmentOptions) {budget : ℕ}
    (he : Growing capabilities options.factFamilies ingredients initial e)
    (hbudget : initial.length + addedBound capabilities (factsAfter (ingredients.map ingredientValue) initial) <
      e.steps.length + budget) : ∃ e', ∀ more, budget ≤ more →
      enrichLoop ⊤ (eligible locale capabilities options.factFamilies) more e = some (.ok e') := by
  induction budget generalizing e with
  | zero =>
    have hle := added_le he.1 he.2
    omega
  | succ budget ih =>
    obtain ⟨next, hpass⟩ := enrichPass_total (eligible locale capabilities options.factFamilies) e
    have hgrowing := enrichPass_growing hpass he
    cases hchanged : next.changed with
    | false =>
      refine ⟨next, fun more hmore => ?_⟩
      obtain ⟨more, rfl⟩ := Nat.exists_eq_add_of_le' (Nat.lt_of_lt_of_le (Nat.succ_pos budget) hmore)
      simp [enrichLoop, hpass, hchanged]
    | true =>
      have hlonger := enrichPass_longer hpass hchanged
      obtain ⟨e', hloop⟩ := ih hgrowing (by omega)
      refine ⟨e', fun more hmore => ?_⟩
      obtain ⟨more, rfl⟩ := Nat.exists_eq_add_of_le' (Nat.lt_of_lt_of_le (Nat.succ_pos budget) hmore)
      simp only [enrichLoop, hpass, hchanged, if_true]
      exact hloop more (by omega)

variable (locale factFamilies) in
theorem expandEnrichment_ends (goals : List Predicate)
    (hinitial : Derived capabilities (ingredients.map ingredientValue) initial) :
    ∃ budget program explored, ∀ more, budget ≤ more →
      expandEnrichment locale more capabilities (factsAfter (ingredients.map ingredientValue) initial) initial
        ⟨factFamilies, some ⊤⟩ goals = some (.ok program explored) := by
  have hfirst : Growing capabilities factFamilies ingredients initial
      ⟨factsAfter (ingredients.map ingredientValue) initial, initial,
        unique (initial.map fun step => invocationKey step.capability step.inputs), false⟩ := by
    refine ⟨⟨hinitial, rfl, fun key => ?_, fun honce => honce, List.prefix_refl _, ?_⟩, ?_⟩
    · rw [mem_unique, List.mem_map]
    · intro before step after hsplit hlen
      have hlength : initial.length = (before ++ step :: after).length := congrArg List.length hsplit
      rw [List.length_append, List.length_cons] at hlength
      omega
    · rw [Enrichment.addedTo, List.drop_length]
      exact List.Pairwise.nil
  obtain ⟨e, hloop⟩ := enrichLoop_ends locale ⟨factFamilies, some ⊤⟩ hfirst
    (Nat.lt_of_lt_of_le (Nat.lt_succ_self _) (Nat.le_add_left _ initial.length))
  refine ⟨(initial.length + addedBound capabilities (factsAfter (ingredients.map ingredientValue) initial)).succ,
    ⟨goals, e.steps, (e.steps.map PlanStep.cost).foldl (· + ·) 0, e.facts⟩, e.invoked.length, fun more hmore => ?_⟩
  simp only [expandEnrichment, Option.getD_some, hloop more hmore, Option.map_some]

end Loop

/-! ## Paths of the dependency graph -/

def DependencyPath (steps path : List PlanStep) : Prop :=
  (∀ step ∈ path, step ∈ steps) ∧ path.IsChain fun step next => next.id ∈ step.dependsOn

section Paths
variable {capabilities : List Capability} {start : List PlanValue} {steps : List PlanStep}

variable {step : PlanStep} {path : List PlanStep}

theorem Derived.dependsOn (h : Derived capabilities start steps) (hstep : step ∈ steps) {id : String} :
    id ∈ step.dependsOn ↔ ∃ v ∈ step.inputs, ∃ output, v.source = .step id output := by
  obtain ⟨before, after, capability, m, -, -, rfl⟩ := h.mem hstep
  exact mem_unique.trans mem_sourceSteps

theorem DependencyPath.ancestors (h : Derived capabilities start steps) (hpath : DependencyPath steps (step :: path)) :
    ∀ s ∈ path, ∃ v ∈ step.inputs, Ancestor steps v s := by
  induction path generalizing step with
  | nil => simp
  | cons next path ih =>
    obtain ⟨hmem, hchain⟩ := hpath
    obtain ⟨hnext, hrest⟩ := List.isChain_cons_cons.mp hchain
    have hin : next ∈ steps := hmem next (List.mem_cons_of_mem _ List.mem_cons_self)
    obtain ⟨v, hv, output, hsource⟩ := (h.dependsOn (hmem step List.mem_cons_self)).mp hnext
    intro s hs
    refine ⟨v, hv, ?_⟩
    rcases List.mem_cons.mp hs with rfl | hs
    · exact .producer hsource hin
    · obtain ⟨input, hinput, hanc⟩ := ih ⟨fun t ht => hmem t (List.mem_cons_of_mem _ ht), hrest⟩ s hs
      exact .through hsource hin hinput hanc

theorem DependencyPath.capabilities_nodup (h : Derived capabilities start steps) {factFamilies : List String}
    (hadded : ∀ step ∈ steps, Added capabilities factFamilies steps step) (hpath : DependencyPath steps path) :
    (path.map PlanStep.capability).Nodup := by
  induction path with
  | nil => exact List.nodup_nil
  | cons step path ih =>
    rw [List.map_cons, List.nodup_cons]
    refine ⟨fun hmem => ?_, ih ⟨fun t ht => hpath.1 t (List.mem_cons_of_mem _ ht), hpath.2.tail⟩⟩
    obtain ⟨s, hs, heq⟩ := List.mem_map.mp hmem
    obtain ⟨v, hv, hanc⟩ := hpath.ancestors h s hs
    obtain ⟨capability, σ, hinvokes, -, hclear⟩ := hadded step (hpath.1 step List.mem_cons_self)
    exact hclear v hv s hanc (heq.trans hinvokes.named.1)

end Paths

/-- The enrichment loop ends with a program when there is no limit on its steps, from ingredients alone and after an exact
program; and on no path of the dependency graph of an enrichment plan does a capability occur twice. -/
theorem enrichment_terminates (locale : Locale) (capabilities : List Capability) (ingredients : List Ingredient)
    (factFamilies : List String) : (∃ budget program explored, ∀ more, budget ≤ more →
      planEnrichment locale more capabilities ingredients ⟨factFamilies, some ⊤⟩ = some (.ok program explored)) ∧
    (∀ goals options rounds exact states,
      solve locale rounds capabilities ingredients goals options = some (.ok exact states) →
      ∃ budget program explored, ∀ more, budget ≤ more → expandEnrichment locale more capabilities
          (ingredients.map ingredientValue ++ exact.steps.flatMap PlanStep.outputs) exact.steps ⟨factFamilies, some ⊤⟩ goals =
            some (.ok program explored)) ∧ ∀ maxSteps budget program explored,
      planEnrichment locale budget capabilities ingredients ⟨factFamilies, maxSteps⟩ = some (.ok program explored) →
      ∀ path, DependencyPath program.steps path → (path.map PlanStep.capability).Nodup := by
  have hnil : factsAfter (ingredients.map ingredientValue) [] = ingredients.map ingredientValue := by simp [factsAfter]
  refine ⟨?_, ?_, ?_⟩
  · have hends := expandEnrichment_ends locale factFamilies []
      (Derived.nil : Derived capabilities (ingredients.map ingredientValue) [])
    rwa [hnil] at hends
  · intro goals options rounds exact states hsolve
    exact expandEnrichment_ends locale factFamilies goals (solve_built hsolve).derived
  · intro maxSteps budget program explored hplan path hpath
    unfold planEnrichment at hplan
    rw [← hnil] at hplan
    obtain ⟨e, rfl, he, -⟩ := expandEnrichment_ok .nil hplan
    exact hpath.capabilities_nodup he.derived fun step hstep => he.added_whole step hstep

end AvenOS.Actors
