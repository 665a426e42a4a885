import AvenOS.Actors.Ancestry
import AvenOS.Actors.FactText

/-! # What enrichment leaves undone

The enrichment loop ends with a pass that changed nothing, so every invocation the final facts
allow was skipped in it: because a step made it already, or because its capability is among the
ancestors of its inputs. The first is read off a text key, and holds as long as two different
invocations never share one. -/
namespace AvenOS.Actors
open Text StableSort ExceptLoop

/-- No two steps apply one capability to the same input values. -/
def Once (steps : List PlanStep) : Prop :=
  steps.Pairwise fun a b => a.capability = b.capability → a.inputs ≠ b.inputs

/-- The enrichment phase may use the capability. -/
structure Admits (factFamilies : List String) (capability : Capability) : Prop where
  available : capability.available ≠ some false
  mode : capability.mode = none ∨ capability.mode = some .observe ∨
    capability.mode = some .transform
  family : ∃ p ∈ capability.produces, belongsToFactFamilies p factFamilies = true

/-- What holds of a step the enrichment phase adds, with the steps its ancestors are sought in. -/
def Added (capabilities : List Capability) (factFamilies : List String) (steps : List PlanStep)
    (step : PlanStep) : Prop :=
  ∃ capability σ, Invokes capabilities step capability σ ∧ Admits factFamilies capability ∧
    ∀ v ∈ step.inputs, ∀ s, Ancestor steps v s → s.capability ≠ capability.id

/-- Nothing is left to invoke on these facts. -/
def Saturated (capabilities : List Capability) (factFamilies : List String)
    (steps : List PlanStep) (facts : List PlanValue) : Prop :=
  ∀ capability ∈ capabilities, Admits factFamilies capability →
    ∀ inputs : List PlanValue, (∀ v ∈ inputs, v ∈ facts) →
    ∀ σ : Substitution, σ.UnifiesAll capability.requires (inputs.map PlanValue.predicate) →
      (∃ step ∈ steps, step.inputs = inputs ∧ ∃ τ, Invokes capabilities step capability τ) ∨
        ∃ v ∈ inputs, ∃ s, Ancestor steps v s ∧ s.capability = capability.id

/-- A program that extends the initial steps by the whole admitted frontier. -/
structure Enriched (capabilities : List Capability) (factFamilies : List String)
    (initial : List PlanStep) (program : AdHocProgram) : Prop where
  once : Once program.steps
  kept : initial <+: program.steps
  added : ∀ step ∈ program.steps.drop initial.length,
    Added capabilities factFamilies program.steps step
  saturated : Saturated capabilities factFamilies program.steps program.results

structure EnrichesFully (locale : Locale) (budget : ℕ) (capabilities : List Capability)
    (ingredients : List Ingredient) (goals : List Predicate) (options : EnrichmentOptions)
    (maxStates : Option Limit) : Prop where
  enrichment : ∀ program explored,
    planEnrichment locale budget capabilities ingredients options = some (.ok program explored) →
    Enriched capabilities options.factFamilies [] program
  goalThenEnrichment : ∀ program explored states,
    planGoalThenEnrichment locale budget capabilities ingredients goals options maxStates =
      some (.ok program explored states) →
    ∃ exact, solve locale budget capabilities ingredients goals ⟨options.maxSteps, maxStates⟩ =
        some (.ok exact states) ∧
      Enriched capabilities options.factFamilies exact.steps program

/-- Two invocations that can be made on the same derived facts never share a key. -/
def InvocationKeysExact (capabilities : List Capability) (ingredients : List Ingredient) : Prop :=
  ∀ steps, Derived capabilities (ingredients.map ingredientValue) steps →
    ∀ c m c' m', Applies capabilities (factsAfter (ingredients.map ingredientValue) steps) c m →
      Applies capabilities (factsAfter (ingredients.map ingredientValue) steps) c' m' →
      invocationKey c.id m.inputs = invocationKey c'.id m'.inputs → c = c' ∧ m.inputs = m'.inputs

section Enrich
variable {locale : Locale} {capabilities : List Capability} {factFamilies : List String}
  {start facts : List PlanValue} {initial steps : List PlanStep} {capability : Capability}
  {m : RequirementMatch} {maxSteps : Limit} {e e' : Enrichment}

theorem mem_eligible : capability ∈ eligible locale capabilities factFamilies ↔
    capability ∈ capabilities ∧ Admits factFamilies capability := by
  unfold eligible
  rw [mem_sortBy, List.mem_filter]
  constructor
  · rintro ⟨hmem, h⟩
    simp only [ne_eq, Bool.and_eq_true, decide_eq_true_eq, Bool.or_eq_true, List.any_eq_true] at h
    exact ⟨hmem, h.1.1, by tauto, h.2⟩
  · rintro ⟨hmem, h⟩
    refine ⟨hmem, ?_⟩
    simp only [ne_eq, Bool.and_eq_true, decide_eq_true_eq, Bool.or_eq_true, List.any_eq_true]
    exact ⟨⟨h.available, by have := h.mode; tauto⟩, h.family⟩

theorem Applies.mono (h : Applies capabilities facts capability m) {facts' : List PlanValue}
    (hsub : ∀ v ∈ facts, v ∈ facts') : Applies capabilities facts' capability m := by
  refine ⟨h.listed, h.available, ?_⟩
  obtain ⟨hmem, hunify⟩ := mem_matchRequirements.1 h.matched
  exact mem_matchRequirements.2 ⟨fun v hv => hsub v (hmem v hv), hunify⟩

theorem factsAfter_mono {before : List PlanStep} (h : before <+: steps) :
    ∀ v ∈ factsAfter start before, v ∈ factsAfter start steps := by
  obtain ⟨after, rfl⟩ := h
  intro v hv
  rw [factsAfter, List.flatMap_append, ← List.append_assoc]
  exact List.mem_append_left _ hv

/-! ## One match, one capability, one pass -/

/-- A match is passed over. -/
def Skips (e : Enrichment) (capability : Capability) (m : RequirementMatch) : Prop :=
  (∃ input ∈ m.inputs, hasCapabilityInAncestry input capability.id e.steps = true) ∨
    invocationKey capability.id m.inputs ∈ e.invoked

/-- The loop after one more step. -/
def Enrichment.invoke (e : Enrichment) (capability : Capability) (m : RequirementMatch) :
    Enrichment :=
  let step := planStep capability m e.steps.length
  ⟨e.facts ++ step.outputs, e.steps ++ [step],
    e.invoked ++ [invocationKey capability.id m.inputs], true⟩

theorem enrichMatch_cases (h : enrichMatch maxSteps capability e m = .ok e') :
    (e' = e ∧ Skips e capability m) ∨ (e' = e.invoke capability m ∧ ¬ Skips e capability m) := by
  unfold enrichMatch at h
  dsimp only at h
  split at h
  · rename_i hanc
    cases h
    exact .inl ⟨rfl, .inl (List.any_eq_true.mp hanc)⟩
  · rename_i hanc
    split at h
    · rename_i hkey
      cases h
      exact .inl ⟨rfl, .inr hkey⟩
    · rename_i hkey
      split at h
      · cases h
      · cases h
        refine .inr ⟨rfl, ?_⟩
        rintro (hs | hs)
        · exact hanc (List.any_eq_true.mpr hs)
        · exact hkey hs

/-- What the variables of the loop mean. -/
structure Enriching (capabilities : List Capability) (factFamilies : List String)
    (start : List PlanValue) (initial : List PlanStep) (e : Enrichment) : Prop where
  derived : Derived capabilities start e.steps
  facts : e.facts = factsAfter start e.steps
  invoked : ∀ key, key ∈ e.invoked ↔
    ∃ step ∈ e.steps, invocationKey step.capability step.inputs = key
  once : Once initial → Once e.steps
  kept : initial <+: e.steps
  added : ∀ before step after, e.steps = before ++ step :: after →
    initial.length ≤ before.length → Added capabilities factFamilies before step

theorem Enriching.invoke (h : Enriching capabilities factFamilies start initial e)
    (hstart : Supplied start) (happ : Applies capabilities e.facts capability m)
    (hadmits : Admits factFamilies capability) (hskips : ¬ Skips e capability m) :
    Enriching capabilities factFamilies start initial (e.invoke capability m) where
  derived := .snoc h.derived (h.facts ▸ happ)
  facts := by simp only [Enrichment.invoke, factsAfter_snoc, h.facts]
  invoked := by
    intro key
    simp only [Enrichment.invoke, List.mem_append, List.mem_singleton, h.invoked key, or_and_right,
      exists_or, exists_eq_left]
    exact or_congr_right eq_comm
  once := by
    intro honce
    simp only [Enrichment.invoke, Once, List.pairwise_append, List.pairwise_singleton, true_and, List.mem_singleton]
    refine ⟨h.once honce, ?_⟩
    rintro a ha _ rfl hcap hin
    refine hskips (.inr ((h.invoked _).mpr ⟨a, ha, ?_⟩))
    rw [hcap, hin]
    rfl
  kept := h.kept.trans (List.prefix_append _ _)
  added := by
    intro before step after hsplit hlen
    rcases List.eq_nil_or_concat after with rfl | ⟨after, last, rfl⟩
    · obtain ⟨rfl, hstep⟩ := List.append_inj' hsplit rfl
      rw [List.cons.injEq] at hstep
      rw [← hstep.1]
      refine ⟨capability, _, planStep_invokes happ _, hadmits, ?_⟩
      intro v hv s hs heq
      exact hskips (.inl ⟨v, hv, (h.derived.hasCapabilityInAncestry_iff hstart v capability.id).mpr ⟨s, hs, heq⟩⟩)
    · rw [List.concat_eq_append, ← List.cons_append, ← List.append_assoc] at hsplit
      exact h.added before step after (List.append_inj' hsplit rfl).1 hlen

theorem enrichCapability_enriching (hstart : Supplied start) (hlisted : capability ∈ capabilities)
    (hadmits : Admits factFamilies capability) (h : enrichCapability maxSteps e capability = .ok e')
    (he : Enriching capabilities factFamilies start initial e) :
    Enriching capabilities factFamilies start initial e' := by
  have hall := foldlM_invariant (P := fun x => Enriching capabilities factFamilies start initial x ∧
    e.steps <+: x.steps) ?_ h ⟨he, List.prefix_refl _⟩
  · exact hall.1
  · rintro x m hm x' ⟨hx, hprefix⟩ hstep
    rcases enrichMatch_cases hstep with ⟨rfl, -⟩ | ⟨rfl, hskips⟩
    · exact ⟨hx, hprefix⟩
    · have happ : Applies capabilities x.facts capability m := by
        refine Applies.mono ⟨hlisted, hadmits.available, hm⟩ ?_
        rw [he.facts, hx.facts]
        exact factsAfter_mono hprefix
      exact ⟨hx.invoke hstart happ hadmits hskips, hprefix.trans (List.prefix_append _ _)⟩

theorem enrichPass_enriching (hstart : Supplied start)
    (h : enrichPass maxSteps (eligible locale capabilities factFamilies) e = .ok e')
    (he : Enriching capabilities factFamilies start initial e) :
    Enriching capabilities factFamilies start initial e' := by
  refine foldlM_invariant ?_ h ⟨he.derived, he.facts, he.invoked, he.once, he.kept, he.added⟩
  intro x capability hc x' hx hstep
  obtain ⟨hlisted, hadmits⟩ := mem_eligible.1 hc
  exact enrichCapability_enriching hstart hlisted hadmits hstep hx

theorem enrichCapability_quiet (h : enrichCapability maxSteps e capability = .ok e') (hquiet : e'.changed = false) :
    e' = e ∧ ∀ m ∈ matchRequirements capability.requires e.facts, Skips e capability m := by
  refine foldlM_quiet (Q := fun x => x.changed = false) (S := fun x m => Skips x capability m) ?_ h hquiet
  intro x m _ x' hx hq
  rcases enrichMatch_cases hx with ⟨rfl, hs⟩ | ⟨rfl, -⟩
  · exact ⟨rfl, hs⟩
  · cases hq

theorem enrichPass_quiet (h : enrichPass maxSteps (eligible locale capabilities factFamilies) e = .ok e')
    (hquiet : e'.changed = false) : ∀ capability ∈ eligible locale capabilities factFamilies,
      ∀ m ∈ matchRequirements capability.requires e'.facts, Skips e' capability m := by
  have hpass := foldlM_quiet (Q := fun x => x.changed = false)
    (fun _ _ _ _ hx hq => enrichCapability_quiet hx hq) h hquiet
  rw [hpass.1]
  exact hpass.2

theorem enrichLoop_enriching {budget : ℕ} (hstart : Supplied start)
    (h : enrichLoop maxSteps (eligible locale capabilities factFamilies) budget e = some (.ok e'))
    (he : Enriching capabilities factFamilies start initial e) :
    Enriching capabilities factFamilies start initial e' ∧ ∀ capability ∈ eligible locale capabilities factFamilies,
        ∀ m ∈ matchRequirements capability.requires e'.facts, Skips e' capability m := by
  induction budget generalizing e with
  | zero => cases h
  | succ budget ih =>
    unfold enrichLoop at h
    split at h
    · cases h
    · rename_i next hpass
      have hnext := enrichPass_enriching hstart hpass he
      split at h
      · exact ih h hnext
      · rename_i hquiet
        cases h
        exact ⟨hnext, enrichPass_quiet hpass (by simpa using hquiet)⟩

end Enrich

section Planners
variable {locale : Locale} {budget : ℕ} {capabilities : List Capability}
  {ingredients : List Ingredient} {goals : List Predicate} {options : EnrichmentOptions}
  {maxStates : Option Limit} {initial : List PlanStep} {program : AdHocProgram}

variable {e : Enrichment} {explored : ℕ}

theorem Enriching.saturated
    (h : Enriching capabilities options.factFamilies (ingredients.map ingredientValue) initial e)
    (hkeys : InvocationKeysExact capabilities ingredients)
    (hskips : ∀ capability ∈ eligible locale capabilities options.factFamilies,
      ∀ m ∈ matchRequirements capability.requires e.facts, Skips e capability m) :
    Saturated capabilities options.factFamilies e.steps e.facts := by
  intro capability hlisted hadmits inputs hin σ hσ
  obtain ⟨m, hm, rfl, -⟩ := match_complete hin hσ
  have happ : Applies capabilities e.facts capability m := ⟨hlisted, hadmits.available, hm⟩
  rcases hskips capability (mem_eligible.2 ⟨hlisted, hadmits⟩) m hm with ⟨v, hv, hanc⟩ | hkey
  · exact .inr ⟨v, hv, (h.derived.hasCapabilityInAncestry_iff
      (supplied_ingredients ingredients) v capability.id).mp hanc⟩
  · obtain ⟨step, hstep, hsame⟩ := (h.invoked _).mp hkey
    obtain ⟨before, after, c, m', hsplit, happ', rfl⟩ := h.derived.mem hstep
    have hlater : Applies capabilities (factsAfter (ingredients.map ingredientValue) e.steps) c m' :=
      happ'.mono (factsAfter_mono ⟨_, hsplit.symm⟩)
    obtain ⟨rfl, hinputs⟩ := hkeys e.steps h.derived c m' capability m hlater (h.facts ▸ happ) hsame
    exact .inl ⟨_, hstep, hinputs, _, planStep_invokes happ' _⟩

theorem expandEnrichment_ok (hinitial : Derived capabilities (ingredients.map ingredientValue) initial)
    (h : expandEnrichment locale budget capabilities
      (factsAfter (ingredients.map ingredientValue) initial) initial options goals = some (.ok program explored)) :
    ∃ e, program = ⟨goals, e.steps, (e.steps.map PlanStep.cost).foldl (· + ·) 0, e.facts⟩ ∧
      Enriching capabilities options.factFamilies (ingredients.map ingredientValue) initial e ∧
      ∀ capability ∈ eligible locale capabilities options.factFamilies,
        ∀ m ∈ matchRequirements capability.requires e.facts, Skips e capability m := by
  unfold expandEnrichment at h
  obtain ⟨result, hloop, hresult⟩ := Option.map_eq_some_iff.mp h
  cases result with
  | error explored' => cases hresult
  | ok e =>
    cases hresult
    have hfirst : Enriching capabilities options.factFamilies (ingredients.map ingredientValue)
        initial ⟨factsAfter (ingredients.map ingredientValue) initial, initial,
          unique (initial.map fun step => invocationKey step.capability step.inputs), false⟩ := by
      refine ⟨hinitial, rfl, fun key => ?_, fun honce => honce, List.prefix_refl _, ?_⟩
      · rw [mem_unique, List.mem_map]
      · intro before step after hsplit hlen
        have hlength : initial.length = (before ++ step :: after).length := congrArg List.length hsplit
        rw [List.length_append, List.length_cons] at hlength
        omega
    obtain ⟨he, hskips⟩ := enrichLoop_enriching (supplied_ingredients ingredients) hloop hfirst
    exact ⟨e, rfl, he, hskips⟩

theorem Enriching.added_whole
    (h : Enriching capabilities options.factFamilies (ingredients.map ingredientValue) initial e) :
    ∀ step ∈ e.steps.drop initial.length, Added capabilities options.factFamilies e.steps step := by
  intro step hstep
  obtain ⟨before, after, hsplit⟩ := List.append_of_mem hstep
  have hwhole : e.steps = (initial ++ before) ++ step :: after := by
    rw [List.append_assoc, ← hsplit]
    exact (List.prefix_iff_eq_append.mp h.kept).symm
  obtain ⟨capability, σ, hinvokes, hadmits, hclear⟩ := h.added _ step after hwhole (by simp)
  refine ⟨capability, σ, hinvokes, hadmits, ?_⟩
  intro v hv s hs
  obtain ⟨hbefore, c, m, happ, rfl⟩ := h.derived.split hwhole
  exact hclear v hv s (h.derived.ancestor_prefix (supplied_ingredients ingredients) hwhole hs
    hbefore ((mem_matchRequirements.1 happ.matched).1 v hv))

theorem expandEnrichment_enriched (hkeys : InvocationKeysExact capabilities ingredients)
    (hinitial : Derived capabilities (ingredients.map ingredientValue) initial) (honce : Once initial)
    (h : expandEnrichment locale budget capabilities
      (factsAfter (ingredients.map ingredientValue) initial) initial options goals =
        some (.ok program explored)) : Enriched capabilities options.factFamilies initial program := by
  obtain ⟨e, rfl, he, hskips⟩ := expandEnrichment_ok hinitial h
  exact ⟨he.once honce, he.kept, he.added_whole, he.saturated hkeys hskips⟩

theorem once_successors {state s : SearchState} (hkeys : InvocationKeysExact capabilities ingredients)
    (hsound : Sound capabilities (ingredients.map ingredientValue) state) (honce : Once state.steps)
    (hs : s ∈ successors locale capabilities state) : Once s.steps := by
  obtain ⟨capability, m, happ, hadds, rfl⟩ := mem_successors.1 hs
  simp only [successor, Once, List.pairwise_append, List.pairwise_singleton, true_and, List.mem_singleton]
  refine ⟨honce, ?_⟩
  rintro step hstep _ rfl hcap hin
  obtain ⟨before, after, c, m', hsplit, happ', rfl⟩ := hsound.derived.mem hstep
  have hlater : Applies capabilities (factsAfter (ingredients.map ingredientValue) state.steps) c m' :=
    happ'.mono (factsAfter_mono ⟨_, hsplit.symm⟩)
  have hsame : invocationKey c.id m'.inputs = invocationKey capability.id m.inputs := by
    change c.id = capability.id at hcap
    change m'.inputs = m.inputs at hin
    rw [hcap, hin]
  obtain ⟨rfl, hinputs⟩ := hkeys state.steps hsound.derived c m' capability m hlater (hsound.facts ▸ happ) hsame
  obtain rfl := match_unique happ'.matched happ.matched hinputs
  have hall : addsNothing c m' state.facts = true := by
    unfold addsNothing
    rw [List.all_eq_true]
    intro p hp
    have hout : p ∈ (planStep c m' before.length).outputs.map PlanValue.predicate := by
      rw [planStep_outputs_predicates]
      exact hp
    obtain ⟨v, hv, rfl⟩ := List.mem_map.mp hout
    refine List.any_eq_true.mpr ⟨v, ?_, unifiable_self v.predicate⟩
    rw [hsound.facts]
    exact List.mem_append_right _ (List.mem_flatMap.mpr ⟨_, hstep, hv⟩)
  rw [hall] at hadds
  cases hadds

end Planners

/-! ## Keys without a separator inside -/

def nulChar : Char := '\x00'

def sourceText : ValueSource → String
  | .step stepId output => "step:" ++ stepId ++ ":" ++ toString output
  | .ingredient artifactId => "ingredient:" ++ artifactId.getD ""

def keyParts (capabilityId : String) (inputs : List PlanValue) : List String :=
  capabilityId :: if inputs = [] then [""]
    else inputs.flatMap fun v => [v.predicate, sourceText v.source]

/-- A source as facts have it, without the separator. -/
inductive KeySource : ValueSource → Prop
  | step (n output : ℕ) : KeySource (.step (stepName n) output)
  | ingredient {artifactId : Option String} : artifactId ≠ some "" →
      nulChar ∉ (artifactId.getD "").toList → KeySource (.ingredient artifactId)

theorem planValueKey_eq (v : PlanValue) : planValueKey v = v.predicate ++ nul ++ sourceText v.source := by
  unfold planValueKey sourceText
  cases v.source <;> simp [String.append_assoc]

theorem invocationKey_eq (capabilityId : String) (inputs : List PlanValue) :
    invocationKey capabilityId inputs = nul.intercalate (keyParts capabilityId inputs) := by
  have hjoin : ∀ vs : List PlanValue, vs ≠ [] → nul.intercalate (vs.map planValueKey) =
      nul.intercalate (vs.flatMap fun v => [v.predicate, sourceText v.source]) := by
    intro vs hvs
    induction vs with
    | nil => exact absurd rfl hvs
    | cons v vs ih =>
      cases vs with
      | nil => simp [planValueKey_eq, String.intercalate_cons_cons]
      | cons w vs =>
        have hrest := ih (by simp)
        simp only [List.map_cons, List.flatMap_cons, List.cons_append, List.nil_append,
          String.intercalate_cons_cons, planValueKey_eq] at hrest ⊢
        rw [hrest]
        simp only [String.append_assoc]
  unfold invocationKey keyParts
  split
  · rename_i hnil
    simp [hnil, String.intercalate_cons_cons]
  · rename_i hne
    rw [hjoin inputs hne]
    cases inputs with
    | nil => exact absurd rfl hne
    | cons v vs => simp [String.intercalate_cons_cons]

theorem stepName_no_colon (n : ℕ) : ':' ∉ (stepName n).toList := by
  unfold stepName
  rw [String.toList_append, List.mem_append]
  rintro (h | h)
  · revert h
    decide
  · exact absurd (mem_toString_nat h) (by decide)

theorem sourceText_step_injective {m n output output' : ℕ}
    (h : sourceText (.step (stepName m) output) = sourceText (.step (stepName n) output')) :
    m = n ∧ output = output' := by
  have hjoin : ∀ k o : ℕ, sourceText (.step (stepName k) o) = ":".intercalate ["step", stepName k, toString o] := by
    intro k o
    simp [sourceText, String.intercalate_cons_cons, String.append_assoc]
  have hfree : ∀ k o : ℕ, ∀ s ∈ ["step", stepName k, toString o], ':' ∉ s.toList := by
    intro k o s hs
    simp only [List.mem_cons, List.not_mem_nil, or_false] at hs
    rcases hs with rfl | rfl | rfl
    · decide
    · exact stepName_no_colon k
    · exact fun hc => absurd (mem_toString_nat hc) (by decide)
  rw [hjoin, hjoin] at h
  have hparts := join_injective (c := ':') rfl (hfree m output) (hfree n output') (by simp) (by simp) h
  simp only [List.cons.injEq, and_true, true_and] at hparts
  exact ⟨stepName_injective hparts.1, toString_nat_injective hparts.2⟩

theorem sourceText_step_ne_ingredient (stepId : String) (output : ℕ) (artifactId : Option String) :
    sourceText (.step stepId output) ≠ sourceText (.ingredient artifactId) := by
  intro h
  have hhead := congrArg (fun s : String => s.toList.head?) h
  simp [sourceText, String.toList_append] at hhead

theorem sourceText_injective {a b : ValueSource} (ha : KeySource a) (hb : KeySource b)
    (h : sourceText a = sourceText b) : a = b := by
  cases ha with
  | step m output =>
    cases hb with
    | step n output' =>
      obtain ⟨rfl, rfl⟩ := sourceText_step_injective h
      rfl
    | ingredient _ _ => exact absurd h (sourceText_step_ne_ingredient _ _ _)
  | @ingredient x hx _ =>
    cases hb with
    | step n output' => exact absurd h.symm (sourceText_step_ne_ingredient _ _ _)
    | @ingredient y hy _ =>
      have htext : x.getD "" = y.getD "" := by simpa [sourceText, ← String.toList_inj] using h
      -- an artifact id is never empty, so the default stands for none
      cases x with
      | none =>
        cases y with
        | none => rfl
        | some t =>
          rw [Option.getD_none, Option.getD_some] at htext
          rw [← htext] at hy
          exact absurd rfl hy
      | some s =>
        cases y with
        | none =>
          rw [Option.getD_none, Option.getD_some] at htext
          rw [htext] at hx
          exact absurd rfl hx
        | some t =>
          rw [Option.getD_some, Option.getD_some] at htext
          rw [htext]

/-- A value as derived facts are, without the separator. -/
structure KeyValue (v : PlanValue) : Prop where
  predicate : nulChar ∉ v.predicate.toList
  source : KeySource v.source

theorem KeySource.lacks {a : ValueSource} (h : KeySource a) : nulChar ∉ (sourceText a).toList := by
  have hdigits : ∀ n : ℕ, nulChar ∉ (toString n).toList := fun n hc => absurd (mem_toString_nat hc) (by decide)
  cases h with
  | step n output =>
    have hstep := hdigits n
    have hout := hdigits output
    simp only [sourceText, stepName, String.toList_append, List.mem_append, not_or]
    exact ⟨⟨⟨by decide, by decide, hstep⟩, by decide⟩, hout⟩
  | ingredient _ hfree =>
    simp only [sourceText, String.toList_append, List.mem_append, not_or]
    exact ⟨by decide, hfree⟩

theorem keyParts_lack {capabilityId : String} {inputs : List PlanValue}
    (hid : nulChar ∉ capabilityId.toList) (hin : ∀ v ∈ inputs, KeyValue v) :
    ∀ s ∈ keyParts capabilityId inputs, nulChar ∉ s.toList := by
  intro s hs
  unfold keyParts at hs
  rcases List.mem_cons.mp hs with rfl | hs
  · exact hid
  · split at hs
    · rw [List.mem_singleton] at hs
      rw [hs]
      decide
    · obtain ⟨v, hv, hs⟩ := List.mem_flatMap.mp hs
      simp only [List.mem_cons, List.not_mem_nil, or_false] at hs
      rcases hs with rfl | rfl
      · exact (hin v hv).predicate
      · exact (hin v hv).source.lacks

theorem keyParts_injective {c c' : String} {inputs inputs' : List PlanValue}
    (hin : ∀ v ∈ inputs, KeyValue v) (hin' : ∀ v ∈ inputs', KeyValue v)
    (h : keyParts c inputs = keyParts c' inputs') : c = c' ∧ inputs = inputs' := by
  have hvalues : ∀ vs ws : List PlanValue, (∀ v ∈ vs, KeyValue v) → (∀ w ∈ ws, KeyValue w) →
      (vs.flatMap fun v => [v.predicate, sourceText v.source]) =
        (ws.flatMap fun w => [w.predicate, sourceText w.source]) → vs = ws := by
    intro vs
    induction vs with
    | nil =>
      intro ws _ _ heq
      cases ws with
      | nil => rfl
      | cons w ws => simp at heq
    | cons v vs ih =>
      intro ws hvs hws heq
      cases ws with
      | nil => simp at heq
      | cons w ws =>
        simp only [List.flatMap_cons, List.cons_append, List.nil_append, List.cons.injEq] at heq
        have hsource := sourceText_injective (hvs v List.mem_cons_self).source (hws w List.mem_cons_self).source heq.2.1
        have hhead : v = w := by
          cases v
          cases w
          simp_all
        rw [hhead, ih ws (fun x hx => hvs x (List.mem_cons_of_mem v hx))
          (fun x hx => hws x (List.mem_cons_of_mem w hx)) heq.2.2]
  unfold keyParts at h
  rw [List.cons.injEq] at h
  refine ⟨h.1, ?_⟩
  have hrest := h.2
  split at hrest
  · rename_i hnil
    split at hrest
    · rename_i hnil'
      rw [hnil, hnil']
    · cases inputs' with
      | nil => contradiction
      | cons w ws => simp at hrest
  · split at hrest
    · cases inputs with
      | nil => contradiction
      | cons v vs => simp at hrest
    · exact hvalues _ _ hin hin' hrest

/-- A catalog and ingredients whose ids, predicates and artifacts hold no separator. -/
structure Separated (capabilities : List Capability) (ingredients : List Ingredient) : Prop where
  ids : ∀ k ∈ capabilities, nulChar ∉ k.id.toList
  distinct : ∀ k ∈ capabilities, ∀ k' ∈ capabilities, k.id = k'.id → k = k'
  predicates : Lacks nulChar capabilities ingredients
  artifacts : ∀ i ∈ ingredients, nulChar ∉ (i.artifactId.getD "").toList

theorem ingredientValue_source {i : Ingredient} (h : nulChar ∉ (i.artifactId.getD "").toList) :
    KeySource (ingredientValue i).source := by
  obtain ⟨predicate, artifactId⟩ := i
  cases artifactId with
  | none => exact .ingredient (by simp [truthy]) (by simp [truthy])
  | some text =>
    by_cases hempty : text = ""
    · exact .ingredient (by simp [truthy, hempty]) (by simp [truthy, Option.filter, hempty])
    · exact .ingredient (by simp [truthy, hempty]) (by simpa [truthy, Option.filter, hempty] using h)

theorem invocationKeysExact_of_separated {capabilities : List Capability}
    {ingredients : List Ingredient} (h : Separated capabilities ingredients) :
    InvocationKeysExact capabilities ingredients := by
  intro steps hderived c m c' m' happ happ' hkey
  have hfacts : ∀ v ∈ factsAfter (ingredients.map ingredientValue) steps, KeyValue v := by
    intro v hv
    refine ⟨hderived.lacks h.predicates (by decide) v hv, ?_⟩
    rcases hderived.fact_source hv with hv | ⟨step, hstep, output, hsource, -⟩
    · obtain ⟨i, hi, rfl⟩ := List.mem_map.mp hv
      exact ingredientValue_source (h.artifacts i hi)
    · obtain ⟨before, after, k, n, -, -, rfl⟩ := hderived.mem hstep
      rw [hsource]
      exact .step _ output
  have hin : ∀ v ∈ m.inputs, KeyValue v := fun v hv => hfacts v ((mem_matchRequirements.1 happ.matched).1 v hv)
  have hin' : ∀ v ∈ m'.inputs, KeyValue v := fun v hv => hfacts v ((mem_matchRequirements.1 happ'.matched).1 v hv)
  rw [invocationKey_eq, invocationKey_eq] at hkey
  have hparts := join_injective (c := nulChar) rfl (keyParts_lack (h.ids c happ.listed) hin)
    (keyParts_lack (h.ids c' happ'.listed) hin') (by simp [keyParts]) (by simp [keyParts]) hkey
  obtain ⟨hid, hinputs⟩ := keyParts_injective hin hin' hparts
  exact ⟨h.distinct c happ.listed c' happ'.listed hid, hinputs⟩

/-! ## What all planners build -/

/-- A derivation with its cost, and results among its facts. -/
structure Built (capabilities : List Capability) (ingredients : List Ingredient)
    (program : AdHocProgram) : Prop where
  derived : Derived capabilities (ingredients.map ingredientValue) program.steps
  totalCost : program.totalCost = (program.steps.map PlanStep.cost).sum
  results : ∀ v ∈ program.results,
    v ∈ factsAfter (ingredients.map ingredientValue) program.steps

section Built
variable {locale : Locale} {budget : ℕ} {capabilities : List Capability}
  {ingredients : List Ingredient} {goals : List Predicate} {program : AdHocProgram}

variable {explored states : ℕ} {options : EnrichmentOptions} {maxStates : Option Limit}

theorem solve_built {options : SolveOptions} (h : solve locale budget capabilities ingredients goals options =
      some (.ok program explored)) : Built capabilities ingredients program := by
  obtain ⟨state, hsound, hresults, hprogram⟩ :=
    solve_ok h (sound_start capabilities _) fun _ hs _ hc => hs.successors hc
  rw [hprogram]
  refine ⟨hsound.derived, hsound.cost, fun v hv => ?_⟩
  dsimp only at hv ⊢
  rw [← hsound.facts]
  exact (resolveGoals_some hresults).1 v hv

theorem expandEnrichment_built {initial : List PlanStep}
    (hinitial : Derived capabilities (ingredients.map ingredientValue) initial)
    (h : expandEnrichment locale budget capabilities
      (factsAfter (ingredients.map ingredientValue) initial) initial options goals =
        some (.ok program explored)) : Built capabilities ingredients program := by
  obtain ⟨e, rfl, he, -⟩ := expandEnrichment_ok hinitial h
  refine ⟨he.derived, ?_, fun v hv => he.facts ▸ hv⟩
  exact List.sum_eq_foldl.symm

theorem planEnrichment_built (h : planEnrichment locale budget capabilities ingredients options =
      some (.ok program explored)) : Built capabilities ingredients program := by
  have hnil : factsAfter (ingredients.map ingredientValue) [] = ingredients.map ingredientValue := by simp [factsAfter]
  unfold planEnrichment at h
  rw [← hnil] at h
  exact expandEnrichment_built .nil h

theorem planGoalThenEnrichment_ok
    (h : planGoalThenEnrichment locale budget capabilities ingredients goals options maxStates =
      some (.ok program explored states)) :
    ∃ exact, solve locale budget capabilities ingredients goals ⟨options.maxSteps, maxStates⟩ =
        some (.ok exact states) ∧ expandEnrichment locale budget capabilities
        (factsAfter (ingredients.map ingredientValue) exact.steps) exact.steps options goals =
          some (.ok program explored) := by
  unfold planGoalThenEnrichment at h
  split at h
  · cases h
  · cases h
  · rename_i exact states' hsolve
    obtain ⟨result, hexpand, hresult⟩ := Option.map_eq_some_iff.mp h
    cases result with
    | failed reason explored' => cases hresult
    | ok program' explored' =>
      cases hresult
      exact ⟨exact, hsolve, hexpand⟩

theorem planGoalThenEnrichment_built
    (h : planGoalThenEnrichment locale budget capabilities ingredients goals options maxStates =
      some (.ok program explored states)) : Built capabilities ingredients program := by
  obtain ⟨exact, hsolve, hexpand⟩ := planGoalThenEnrichment_ok h
  exact expandEnrichment_built (solve_built hsolve).derived hexpand

end Built

/-! ## The planners saturate -/

def copyCatalog : List Capability :=
  [⟨"copy", "copier", "copy", ["p(X)"], ["q(X)"], none, none, none, none, none⟩]

/-- Two artifacts for one fact whose value keys are one text. -/
def copyIngredients : List Ingredient :=
  [⟨"p(a)", some "x\x00ingredient:y"⟩, ⟨"p(a)\x00ingredient:x", some "y"⟩]

/-- The copy of the second artifact is taken for the copy of the first, and is never made. -/
def copyProgram : AdHocProgram :=
  let first : PlanValue := ⟨"p(a)", .ingredient (some "x\x00ingredient:y")⟩
  let second : PlanValue := ⟨"p(a)\x00ingredient:x", .ingredient (some "y")⟩
  let copy : PlanValue := ⟨"q(a)", .step "step-1" 0⟩
  ⟨[], [⟨"step-1", "copy", "copier", "copy", [first], [copy], [], 1⟩], 1, [first, second, copy]⟩

end AvenOS.Actors
