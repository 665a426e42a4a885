import AvenOS.Actors.PlannerSoundness

/-! # The characters of derived facts

Plans are told apart by texts that join predicates with a separator. A character that occurs in no
predicate of a catalog and of its ingredients occurs in no fact derived from them. -/
namespace AvenOS.Actors
open Text

/-- A character that terms are not written with. -/
def Separator (c : Char) : Prop := c ∉ ['(', ')', ',', ' ']

instance (c : Char) : Decidable (Separator c) := by unfold Separator; infer_instance

structure Lacks (c : Char) (capabilities : List Capability) (ingredients : List Ingredient) :
    Prop where
  requires : ∀ k ∈ capabilities, ∀ p ∈ k.requires, c ∉ p.toList
  produces : ∀ k ∈ capabilities, ∀ p ∈ k.produces, c ∉ p.toList
  ingredients : ∀ i ∈ ingredients, c ∉ i.predicate.toList

section Text
variable {c : Char} {p : Predicate}

theorem parseTerm_args_lack (h : c ∉ p.toList) : ∀ a ∈ (parseTerm p).args, c ∉ a.toList :=
  fun a ha hc => h (parseTerm_args_chars p a ha c hc)

theorem substituteWith_lacks (hsep : Separator c) (h : c ∉ p.toList) {f : String → String}
    (hf : ∀ x ∈ (parseTerm p).args, c ∉ (f x).toList) : c ∉ (substituteWith f p).toList := by
  have hfunctor : c ∉ (parseTerm p).functor.toList := fun hc => h (parseTerm_functor_chars p c hc)
  simp only [Separator, List.mem_cons, List.not_mem_nil, or_false, not_or] at hsep
  unfold substituteWith
  dsimp only
  split
  · exact hfunctor
  · have hargs : c ∉ [',', ' '].intercalate (((parseTerm p).args.map f).map String.toList) := by
      intro hc
      rcases mem_intercalate hc with hc | ⟨l, hl, hc⟩
      · simp [hsep] at hc
      · simp only [List.map_map, List.mem_map, Function.comp_apply] at hl
        obtain ⟨x, hx, rfl⟩ := hl
        exact hf x hx hc
    simpa [String.toList_append, String.toList_intercalate, hfunctor, hsep] using hargs

theorem unifyAll_valued {P : String → Prop} {ps qs : List Predicate} {b b' : Bindings}
    (hb : FlatUnification.Valued isVariable P b)
    (hps : ∀ p ∈ ps, ∀ a ∈ (parseTerm p).args, P a) (hqs : ∀ q ∈ qs, ∀ a ∈ (parseTerm q).args, P a)
    (h : unifyAll ps qs b = some b') : FlatUnification.Valued isVariable P b' := by
  induction ps generalizing qs b with
  | nil =>
    cases qs with
    | nil =>
      cases h
      exact hb
    | cons q qs => cases h
  | cons p ps ih =>
    cases qs with
    | nil => cases h
    | cons q qs =>
      simp only [unifyAll, Option.bind_eq_some_iff] at h
      obtain ⟨b₁, hu, hrest⟩ := h
      unfold unify at hu
      dsimp only at hu
      split at hu
      · cases hu
      · have hb₁ := hb.unifyArgs (hps p List.mem_cons_self) (hqs q List.mem_cons_self) hu
        exact ih hb₁ (fun r hr => hps r (List.mem_cons_of_mem p hr))
          (fun r hr => hqs r (List.mem_cons_of_mem q hr)) hrest

end Text

section Derived
variable {c : Char} {capabilities : List Capability} {ingredients : List Ingredient}
  {steps : List PlanStep} {capability : Capability} {m : RequirementMatch}

theorem Lacks.output (h : Lacks c capabilities ingredients) (hsep : Separator c)
    {facts : List PlanValue} (hfacts : ∀ v ∈ facts, c ∉ v.predicate.toList)
    (happ : Applies capabilities facts capability m) {p : Predicate} (hp : p ∈ capability.produces) :
    c ∉ ((Substitution.ofBindings m.bindings).instantiate p).toList := by
  obtain ⟨hmem, hunify⟩ := mem_matchRequirements.1 happ.matched
  have hvalued := unifyAll_valued (P := fun a => c ∉ a.toList) FlatUnification.valued_nil
    (fun r hr => parseTerm_args_lack (h.requires _ happ.listed r hr)) (by
      intro q hq
      obtain ⟨v, hv, rfl⟩ := List.mem_map.mp hq
      exact parseTerm_args_lack (hfacts v (hmem v hv))) hunify
  have hplain := h.produces _ happ.listed p hp
  exact substituteWith_lacks hsep hplain fun x hx => hvalued.resolve (parseTerm_args_lack hplain x hx)

theorem Derived.lacks (h : Derived capabilities (ingredients.map ingredientValue) steps)
    (hlacks : Lacks c capabilities ingredients) (hsep : Separator c) :
    ∀ v ∈ factsAfter (ingredients.map ingredientValue) steps, c ∉ v.predicate.toList := by
  induction h with
  | nil =>
    intro v hv
    rw [factsAfter, List.flatMap_nil, List.append_nil] at hv
    obtain ⟨i, hi, rfl⟩ := List.mem_map.mp hv
    exact hlacks.ingredients i hi
  | @snoc steps capability m hd happ ih =>
    intro v hv
    rw [factsAfter_snoc] at hv
    rcases List.mem_append.mp hv with hv | hv
    · exact ih v hv
    · obtain ⟨p, hp, heq⟩ := planStep_output_predicate hv
      rw [heq]
      exact hlacks.output hsep ih happ hp

end Derived

end AvenOS.Actors
