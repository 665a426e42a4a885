import AvenOS.Actors.Planner
import AvenOS.Foundations.ExceptLoop

/-! # What `matchRequirements` finds

The nested visit is the plain enumeration `enumerate`, cut where a limit cuts it; the enumeration
holds exactly the tuples of facts that one run of `unify` takes in order, which are the tuples that
some substitution makes equal to the requirements. -/
namespace AvenOS.Actors
open ExceptLoop

/-- The matches below one state of the visit, in the order they are found. -/
def enumerate : List (Predicate × List PlanValue) → Bindings → List PlanValue →
    List RequirementMatch
  | [], bindings, inputs => [⟨bindings, inputs⟩]
  | (requirement, facts) :: rest, bindings, inputs =>
    facts.flatMap fun fact =>
      match unify requirement fact.predicate bindings with
      | none => []
      | some next => enumerate rest next (inputs ++ [fact])

example (b : Bindings) (inputs : List PlanValue) : enumerate [] b inputs = [⟨b, inputs⟩] := by
  rw [enumerate]

/-- One run of `unify` through two lists. -/
def unifyAll : List Predicate → List Predicate → Bindings → Option Bindings
  | [], [], bindings => some bindings
  | p :: ps, q :: qs, bindings => (unify p q bindings).bind (unifyAll ps qs)
  | _, _, _ => none

example (b : Bindings) : unifyAll [] [] b = some b := by
  rw [unifyAll]

example (options : MatchOptions) (bindings : Bindings) (inputs : List PlanValue) (v : Visit)
    (h : options.maxMatches ≤ v.found.length) : visit options [] bindings inputs v = .ok v := by
  rw [visit, if_pos h]

/-! ## The visit and its limits -/

theorem not_top_le_nat (n : ℕ) : ¬ (⊤ : Limit) ≤ (n : Limit) := by simp

variable {maxAttempts : Limit} {inputs facts : List PlanValue} {requirements : List Predicate}
    {b : Bindings} {m : RequirementMatch}

variable {bindings b' : Bindings} {v v' : Visit} {maxMatches : Limit} {found : List RequirementMatch}
  {ps qs : List Predicate} {σ : Substitution}

theorem visit_found {requirements : List (Predicate × List PlanValue)}
    (h : visit ⟨maxAttempts, ⊤⟩ requirements bindings inputs v = .ok v') :
    v'.found = v.found ++ enumerate requirements bindings inputs := by
  induction requirements generalizing bindings inputs v v' with
  | nil =>
    simp only [visit, not_top_le_nat, if_false] at h
    cases h
    rfl
  | cons r rest ih =>
    obtain ⟨requirement, facts⟩ := r
    simp only [visit, not_top_le_nat, if_false] at h
    refine foldlM_append (g := Visit.found) ?_ h
    intro v fact v' hv
    split at hv
    · cases hv
    · cases hu : unify requirement fact.predicate bindings with
      | none =>
        simp only [hu] at hv
        cases hv
        simp
      | some next =>
        simp only [hu] at hv
        rw [ih hv]

theorem visit_total (requirements : List (Predicate × List PlanValue)) (bindings : Bindings) (inputs : List PlanValue)
    (v : Visit) : ∃ v', visit ⟨⊤, maxMatches⟩ requirements bindings inputs v = .ok v' := by
  induction requirements generalizing bindings inputs v with
  | nil =>
    unfold visit
    split <;> exact ⟨_, rfl⟩
  | cons r rest ih =>
    obtain ⟨requirement, facts⟩ := r
    unfold visit
    split
    · exact ⟨v, rfl⟩
    · refine foldlM_total ?_
      intro v fact
      have hlim : ¬ (⊤ : Limit) < (v.attempts : Limit) + 1 := not_top_lt
      simp only [hlim, if_false]
      split
      · exact ⟨v, rfl⟩
      · split
        · exact ⟨_, rfl⟩
        · exact ih _ _ _

theorem visit_nil_iff (hm : maxMatches ≠ 0) {requirements : List (Predicate × List PlanValue)}
    (h : visit ⟨⊤, maxMatches⟩ requirements bindings inputs v = .ok v') :
    v'.found = [] ↔ v.found = [] ∧ enumerate requirements bindings inputs = [] := by
  -- a visit that is full has found something
  have hfull : ∀ w : Visit, maxMatches ≤ w.found.length → w.found ≠ [] := by
    intro w hw hnil
    rw [hnil] at hw
    exact hm (by simpa using hw)
  induction requirements generalizing bindings inputs v v' with
  | nil =>
    unfold visit at h
    split at h
    · rename_i hw
      cases h
      simp [hfull v hw]
    · cases h
      simp [enumerate]
  | cons r rest ih =>
    obtain ⟨requirement, facts⟩ := r
    unfold visit at h
    split at h
    · rename_i hw
      cases h
      simp [hfull v hw]
    · unfold enumerate
      rw [List.flatMap_eq_nil_iff]
      refine foldlM_iff (P := fun v => v.found = []) ?_ h
      intro v fact v' hv
      have hlim : ¬ (⊤ : Limit) < (v.attempts : Limit) + 1 := not_top_lt
      simp only [hlim, if_false] at hv
      split at hv
      · rename_i hw
        cases hv
        simp [hfull v hw]
      · cases hu : unify requirement fact.predicate bindings with
        | none =>
          simp only [hu] at hv
          cases hv
          simp
        | some next =>
          simp only [hu] at hv
          have hrest := ih hv
          simpa using hrest

theorem matchRequirementsWith_found (h : matchRequirementsWith ⟨maxAttempts, ⊤⟩ requirements facts = .ok found) :
    found = enumerate (requirements.map fun r => (r, candidates r facts)) [] [] := by
  unfold matchRequirementsWith at h
  split at h
  · rename_i hnil
    cases h
    rw [hnil]
    rfl
  · cases hv : visit ⟨maxAttempts, ⊤⟩ (requirements.map fun r => (r, candidates r facts)) [] [] ⟨[], 0⟩ with
    | error e =>
      rw [hv] at h
      cases h
    | ok v =>
      rw [hv] at h
      cases h
      exact visit_found hv

theorem matchRequirementsWith_unlimited (requirements : List Predicate) (facts : List PlanValue) :
    matchRequirementsWith .unlimited requirements facts = .ok (matchRequirements requirements facts) := by
  have htotal : ∃ found, matchRequirementsWith .unlimited requirements facts = .ok found := by
    unfold matchRequirementsWith
    split
    · exact ⟨_, rfl⟩
    · obtain ⟨v, hv⟩ := @visit_total ⊤ (requirements.map fun r => (r, candidates r facts)) [] [] ⟨[], 0⟩
      refine ⟨v.found, ?_⟩
      rw [MatchOptions.unlimited, hv]
      rfl
  obtain ⟨found, hfound⟩ := htotal
  unfold matchRequirements
  rw [hfound]

theorem matchRequirements_eq_enumerate (requirements : List Predicate) (facts : List PlanValue) :
    matchRequirements requirements facts = enumerate (requirements.map fun r => (r, candidates r facts)) [] [] :=
  matchRequirementsWith_found (matchRequirementsWith_unlimited requirements facts)

theorem matchRequirementsWith_attempts (h : matchRequirementsWith ⟨maxAttempts, ⊤⟩ requirements facts = .ok found) :
    found = matchRequirements requirements facts := by
  rw [matchRequirementsWith_found h, matchRequirements_eq_enumerate]

theorem matchRequirementsWith_one (requirements : List Predicate) (facts : List PlanValue) :
    ∃ found, matchRequirementsWith ⟨⊤, 1⟩ requirements facts = .ok found ∧
      (found = [] ↔ matchRequirements requirements facts = []) := by
  unfold matchRequirementsWith
  split
  · rename_i hnil
    refine ⟨_, rfl, ?_⟩
    rw [matchRequirements_eq_enumerate, hnil]
    simp [enumerate]
  · obtain ⟨v, hv⟩ := @visit_total 1 (requirements.map fun r => (r, candidates r facts)) [] [] ⟨[], 0⟩
    refine ⟨v.found, by rw [hv]; rfl, ?_⟩
    rw [visit_nil_iff one_ne_zero hv, matchRequirements_eq_enumerate]
    simp

/-! ## The tuples found -/

theorem unify_some_mem_candidates {requirement : Predicate} {fact : PlanValue} (hmem : fact ∈ facts)
    (h : unify requirement fact.predicate b = some b') : fact ∈ candidates requirement facts := by
  unfold unify at h
  dsimp only at h
  split at h
  · cases h
  · rename_i hshape
    simp only [not_or, not_not] at hshape
    unfold candidates
    rw [List.mem_filter]
    simp [hmem, hshape.1, hshape.2]

theorem mem_enumerate : m ∈ enumerate (requirements.map fun r => (r, candidates r facts)) b inputs ↔
      ∃ tuple, m.inputs = inputs ++ tuple ∧ (∀ v ∈ tuple, v ∈ facts) ∧
        unifyAll requirements (tuple.map PlanValue.predicate) b = some m.bindings := by
  induction requirements generalizing b inputs with
  | nil =>
    simp only [List.map_nil, enumerate, List.mem_singleton]
    constructor
    · rintro rfl
      exact ⟨[], by simp, by simp, rfl⟩
    · rintro ⟨tuple, hin, -, hu⟩
      cases tuple with
      | nil =>
        cases m
        simp only [List.map_nil, unifyAll, Option.some.injEq] at hu
        simp_all
      | cons v tuple => simp [unifyAll] at hu
  | cons r requirements ih =>
    simp only [List.map_cons, enumerate, List.mem_flatMap]
    constructor
    · rintro ⟨fact, hfact, hm⟩
      cases hu : unify r fact.predicate b with
      | none => simp [hu] at hm
      | some next =>
        rw [hu] at hm
        obtain ⟨tuple, hin, hmem, hrest⟩ := ih.mp hm
        refine ⟨fact :: tuple, by simpa using hin, ?_, ?_⟩
        · intro v hv
          rcases List.mem_cons.mp hv with rfl | hv
          · exact List.mem_of_mem_filter hfact
          · exact hmem v hv
        · simpa [unifyAll, hu] using hrest
    · rintro ⟨tuple, hin, hmem, hall⟩
      cases tuple with
      | nil => simp [unifyAll] at hall
      | cons fact tuple =>
        simp only [List.map_cons, unifyAll] at hall
        cases hu : unify r fact.predicate b with
        | none => simp [hu] at hall
        | some next =>
          rw [hu] at hall
          refine ⟨fact, unify_some_mem_candidates (hmem fact (by simp)) hu, ?_⟩
          rw [hu]
          exact ih.mpr ⟨tuple, by simpa using hin, fun v hv => hmem v (List.mem_cons_of_mem fact hv), hall⟩

theorem mem_matchRequirements : m ∈ matchRequirements requirements facts ↔ (∀ v ∈ m.inputs, v ∈ facts) ∧
        unifyAll requirements (m.inputs.map PlanValue.predicate) [] = some m.bindings := by
  rw [matchRequirements_eq_enumerate, mem_enumerate]
  constructor
  · rintro ⟨tuple, hin, hmem, hall⟩
    rw [List.nil_append] at hin
    rw [hin]
    exact ⟨hmem, hall⟩
  · rintro ⟨hmem, hall⟩
    exact ⟨m.inputs, by simp, hmem, hall⟩

theorem unifyAll_some (hb : Acyclic b) (h : unifyAll ps qs b = some b') :
    Acyclic b' ∧ ∀ σ : Substitution, σ.Satisfies b' ↔ σ.Satisfies b ∧ σ.UnifiesAll ps qs := by
  induction ps generalizing qs b with
  | nil =>
    cases qs with
    | nil =>
      cases h
      exact ⟨hb, fun σ => by simp [Substitution.UnifiesAll]⟩
    | cons q qs => cases h
  | cons p ps ih =>
    cases qs with
    | nil => cases h
    | cons q qs =>
      simp only [unifyAll, Option.bind_eq_some_iff] at h
      obtain ⟨b₁, hu, hrest⟩ := h
      obtain ⟨hb₁, hsat₁⟩ := unify_some hb hu
      obtain ⟨hac, hsat⟩ := ih hb₁ hrest
      refine ⟨hac, fun σ => ?_⟩
      rw [hsat σ, hsat₁ σ, and_assoc, Substitution.UnifiesAll, Substitution.UnifiesAll, List.forall₂_cons]

theorem unifyAll_complete (hb : Acyclic b) (hσ : σ.Satisfies b) (h : σ.UnifiesAll ps qs) :
    ∃ b', unifyAll ps qs b = some b' := by
  induction h generalizing b with
  | nil => exact ⟨b, rfl⟩
  | @cons p q ps qs hpq _ ih =>
    obtain ⟨b₁, hu⟩ := unify_complete hb hσ hpq
    obtain ⟨hb₁, hsat₁⟩ := unify_some hb hu
    obtain ⟨b', hb'⟩ := ih hb₁ ((hsat₁ σ).mpr ⟨hσ, hpq⟩)
    refine ⟨b', ?_⟩
    simp [unifyAll, hu, hb']

theorem match_unifies (h : m ∈ matchRequirements requirements facts) :
    (Substitution.ofBindings m.bindings).UnifiesAll requirements (m.inputs.map PlanValue.predicate) := by
  obtain ⟨hac, hsat⟩ := unifyAll_some acyclic_nil (mem_matchRequirements.1 h).2
  exact ((hsat _).mp (ofBindings_satisfies hac)).2

theorem match_complete (hmem : ∀ v ∈ inputs, v ∈ facts)
    (h : σ.UnifiesAll requirements (inputs.map PlanValue.predicate)) :
    ∃ m ∈ matchRequirements requirements facts, m.inputs = inputs ∧ σ.Satisfies m.bindings := by
  obtain ⟨b, hb⟩ := unifyAll_complete acyclic_nil σ.satisfies_nil h
  obtain ⟨-, hsat⟩ := unifyAll_some acyclic_nil hb
  exact ⟨⟨b, inputs⟩, mem_matchRequirements.2 ⟨hmem, hb⟩, rfl, (hsat σ).mpr ⟨σ.satisfies_nil, h⟩⟩

theorem match_unique {facts' : List PlanValue}
    {m' : RequirementMatch} (h : m ∈ matchRequirements requirements facts)
    (h' : m' ∈ matchRequirements requirements facts') (hin : m.inputs = m'.inputs) : m = m' := by
  have hb := (mem_matchRequirements.1 h).2
  have hb' := (mem_matchRequirements.1 h').2
  rw [hin, hb'] at hb
  cases m
  cases m'
  simp_all

end AvenOS.Actors
