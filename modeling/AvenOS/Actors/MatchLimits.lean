import AvenOS.Actors.Matching

/-! # Matching under limits

Without limits `matchRequirements` runs through all tuples of facts in lexicographic order and keeps those that unify with
the requirements together. A bound on the matches cuts the list of them; a bound on the attempts throws when the search
would make more. Only an empty list of requirements is answered before any bound is looked at. -/
namespace AvenOS.Actors
open ExceptLoop

/-! ## All tuples -/

/-- The tuples of facts, the first position varying slowest. -/
def tuples {α : Type} (facts : List α) : ℕ → List (List α)
  | 0 => [[]]
  | n + 1 => facts.flatMap fun fact => (tuples facts n).map (fact :: ·)

def JointlyUnifiable (requirements : List Predicate) (tuple : List PlanValue) : Prop :=
  ∃ σ : Substitution, σ.UnifiesAll requirements (tuple.map PlanValue.predicate)

theorem unifyAll_isSome_iff {ps qs : List Predicate} {b : Bindings} (hb : Acyclic b) :
    (unifyAll ps qs b).isSome = true ↔ ∃ σ : Substitution, σ.Satisfies b ∧ σ.UnifiesAll ps qs := by
  rw [Option.isSome_iff_exists]
  constructor
  · rintro ⟨b', h⟩
    obtain ⟨hac, hsat⟩ := unifyAll_some hb h
    exact ⟨.ofBindings b', (hsat _).mp (ofBindings_satisfies hac)⟩
  · rintro ⟨σ, hσ, hunifies⟩
    exact unifyAll_complete hb hσ hunifies

theorem jointlyUnifiable_iff {requirements : List Predicate} {tuple : List PlanValue} :
    (unifyAll requirements (tuple.map PlanValue.predicate) []).isSome = true ↔ JointlyUnifiable requirements tuple := by
  rw [unifyAll_isSome_iff acyclic_nil]
  exact exists_congr fun σ => and_iff_right σ.satisfies_nil

instance (requirements : List Predicate) (tuple : List PlanValue) : Decidable (JointlyUnifiable requirements tuple) :=
  decidable_of_iff _ jointlyUnifiable_iff

theorem flatMap_candidates {β : Type} {r : Predicate} {facts : List PlanValue} {g : PlanValue → List β}
    (hg : ∀ fact ∈ facts, fact ∉ candidates r facts → g fact = []) : (candidates r facts).flatMap g = facts.flatMap g := by
  have hfilter : ∀ (keep : PlanValue → Bool) (l : List PlanValue), (∀ fact ∈ l, keep fact = false → g fact = []) →
      (l.filter keep).flatMap g = l.flatMap g := by
    intro keep l hl
    induction l with
    | nil => rfl
    | cons fact l ih =>
      have hrest := ih fun other hother => hl other (List.mem_cons_of_mem _ hother)
      cases hkeep : keep fact with
      | true => rw [List.filter_cons_of_pos hkeep, List.flatMap_cons, List.flatMap_cons, hrest]
      | false =>
        rw [List.filter_cons_of_neg (by simp [hkeep]), List.flatMap_cons, hrest, hl fact List.mem_cons_self hkeep,
          List.nil_append]
  refine hfilter _ facts fun fact hmem hkeep => hg fact hmem fun hin => ?_
  have hkept := (List.mem_filter.mp hin).2
  rw [hkeep] at hkept
  cases hkept

theorem enumerate_cons (r : Predicate) (facts : List PlanValue) (rest : List (Predicate × List PlanValue)) (b : Bindings)
    (inputs : List PlanValue) : enumerate ((r, facts) :: rest) b inputs = facts.flatMap fun fact =>
      (unify r fact.predicate b).elim [] fun next => enumerate rest next (inputs ++ [fact]) := by
  rw [enumerate]
  refine List.flatMap_congr fun fact _ => ?_
  cases unify r fact.predicate b <;> rfl

theorem enumerate_inputs (facts : List PlanValue) (requirements : List Predicate) (b : Bindings) (inputs : List PlanValue) :
    (enumerate (requirements.map fun r => (r, candidates r facts)) b inputs).map RequirementMatch.inputs =
      ((tuples facts requirements.length).filter fun tuple =>
        (unifyAll requirements (tuple.map PlanValue.predicate) b).isSome).map (inputs ++ ·) := by
  induction requirements generalizing b inputs with
  | nil => simp [enumerate, tuples, unifyAll]
  | cons r requirements ih =>
    rw [List.map_cons, enumerate_cons, List.length_cons, tuples, List.filter_flatMap, List.map_flatMap, List.map_flatMap]
    have hfact : ∀ fact, ((unify r fact.predicate b).elim [] fun next =>
          enumerate (requirements.map fun r => (r, candidates r facts)) next (inputs ++ [fact])).map RequirementMatch.inputs =
        (((tuples facts requirements.length).map (fact :: ·)).filter fun tuple =>
          (unifyAll (r :: requirements) (tuple.map PlanValue.predicate) b).isSome).map (inputs ++ ·) := by
      intro fact
      rw [List.filter_map, List.map_map]
      cases hunify : unify r fact.predicate b with
      | none => simp [Function.comp_def, unifyAll, hunify]
      | some next => simp [Function.comp_def, unifyAll, hunify, ih]
    -- what the prefilter leaves out gives no tuple
    refine (flatMap_candidates fun fact hmem hout => ?_).trans (List.flatMap_congr fun fact _ => hfact fact)
    cases hunify : unify r fact.predicate b with
    | none => rfl
    | some next => exact absurd (unify_some_mem_candidates hmem hunify) hout

theorem matchRequirements_inputs (requirements : List Predicate) (facts : List PlanValue) :
    (matchRequirements requirements facts).map RequirementMatch.inputs =
      (tuples facts requirements.length).filter fun tuple => decide (JointlyUnifiable requirements tuple) := by
  rw [matchRequirements_eq_enumerate, enumerate_inputs]
  simp only [List.nil_append, List.map_id']
  refine List.filter_congr fun tuple _ => ?_
  rw [Bool.eq_iff_iff, decide_eq_true_iff]
  exact jointlyUnifiable_iff

/-! ## A bound on the matches -/

def firstOf {α : Type} (limit : Limit) (l : List α) : List α :=
  match limit with
  | ⊤ => l
  | (n : ℕ) => l.take n

section First
variable {α : Type} {limit : Limit} {l more : List α}

theorem firstOf_full (h : limit ≤ (firstOf limit l).length) : firstOf limit (l ++ more) = firstOf limit l := by
  cases limit with
  | none => exact absurd h (not_top_le_nat _)
  | some n =>
    have hn : n ≤ (l.take n).length := Nat.cast_le.mp h
    rw [List.length_take] at hn
    exact List.take_append_of_le_length (by omega)

theorem firstOf_concat {a : α} (h : ¬ limit ≤ (firstOf limit l).length) :
    firstOf limit (l ++ [a]) = firstOf limit l ++ [a] := by
  cases limit with
  | none => rfl
  | some n =>
    have hn : ¬ n ≤ (l.take n).length := fun hle => h (Nat.cast_le.mpr hle)
    rw [List.length_take] at hn
    change (l ++ [a]).take n = l.take n ++ [a]
    rw [List.take_of_length_le (by rw [List.length_append, List.length_singleton]; omega), List.take_of_length_le (by omega)]

end First

theorem visit_first {maxMatches : Limit} {requirements : List (Predicate × List PlanValue)} {bindings : Bindings}
    {inputs : List PlanValue} {v v' : Visit} {before : List RequirementMatch} (hv : v.found = firstOf maxMatches before)
    (h : visit ⟨⊤, maxMatches⟩ requirements bindings inputs v = .ok v') :
    v'.found = firstOf maxMatches (before ++ enumerate requirements bindings inputs) := by
  induction requirements generalizing bindings inputs v v' before with
  | nil =>
    unfold visit at h
    split at h
    · rename_i hfull
      cases h
      rw [hv] at hfull
      rw [hv, firstOf_full hfull]
    · rename_i hfull
      cases h
      rw [hv] at hfull
      change v.found ++ [⟨bindings, inputs⟩] = _
      rw [enumerate, firstOf_concat hfull, hv]
  | cons r rest ih =>
    obtain ⟨requirement, facts⟩ := r
    unfold visit at h
    split at h
    · rename_i hfull
      cases h
      rw [hv] at hfull
      rw [hv, firstOf_full hfull]
    · rw [enumerate_cons]
      clear * - ih h hv
      induction facts generalizing v before with
      | nil =>
        cases h
        rw [List.flatMap_nil, List.append_nil, hv]
      | cons fact facts ihf =>
        obtain ⟨w, hw, hrest⟩ := foldlM_cons_ok h
        have hfact : w.found = firstOf maxMatches (before ++
            (unify requirement fact.predicate bindings).elim [] fun next => enumerate rest next (inputs ++ [fact])) := by
          split at hw
          · rename_i hfull
            cases hw
            rw [hv] at hfull
            rw [hv, firstOf_full hfull]
          · have hlim : ¬ (⊤ : Limit) < (v.attempts : Limit) + 1 := not_top_lt
            simp only [hlim, if_false] at hw
            cases hunify : unify requirement fact.predicate bindings with
            | none =>
              simp only [hunify] at hw
              cases hw
              simpa using hv
            | some next =>
              simp only [hunify] at hw
              have hv' : (⟨v.found, v.attempts + 1⟩ : Visit).found = firstOf maxMatches before := hv
              exact ih hv' hw
        rw [List.flatMap_cons, ← List.append_assoc]
        exact ihf hfact hrest

/-! ## A bound on the attempts -/

def Metered (maxAttempts : Limit) (v : Visit) (bounded : Except RequirementSearchLimit Visit) (v' : Visit) : Prop :=
  v.attempts ≤ v'.attempts ∧
    ((v.attempts : Limit) ≤ maxAttempts →
      bounded = if maxAttempts < (v'.attempts : Limit) then .error .reached else .ok v')

section Attempts
variable {maxAttempts maxMatches : Limit} {v v' : Visit}

theorem Metered.same : Metered maxAttempts v (.ok v) v := ⟨Nat.le_refl _, fun h => by rw [if_neg (not_lt.mpr h)]⟩

theorem metered_foldlM {bounded unbounded : Visit → PlanValue → Except RequirementSearchLimit Visit} {facts : List PlanValue}
    (hstep : ∀ v fact v', unbounded v fact = .ok v' → Metered maxAttempts v (bounded v fact) v')
    (h : facts.foldlM unbounded v = .ok v') : Metered maxAttempts v (facts.foldlM bounded v) v' := by
  induction facts generalizing v with
  | nil =>
    cases h
    exact Metered.same
  | cons fact facts ih =>
    obtain ⟨w, hw, hrest⟩ := foldlM_cons_ok h
    obtain ⟨hle, hfact⟩ := hstep v fact w hw
    obtain ⟨hle', hlater⟩ := ih hrest
    refine ⟨hle.trans hle', fun hv => ?_⟩
    rw [List.foldlM_cons, hfact hv]
    by_cases hover : maxAttempts < (w.attempts : Limit)
    · have hover' : maxAttempts < (v'.attempts : Limit) := hover.trans_le (Nat.cast_le.mpr hle')
      rw [if_pos hover, if_pos hover']
      rfl
    · rw [if_neg hover]
      exact hlater (not_lt.mp hover)

variable (maxAttempts) in
theorem visit_metered {requirements : List (Predicate × List PlanValue)} {bindings : Bindings} {inputs : List PlanValue}
    (h : visit ⟨⊤, maxMatches⟩ requirements bindings inputs v = .ok v') :
    Metered maxAttempts v (visit ⟨maxAttempts, maxMatches⟩ requirements bindings inputs v) v' := by
  induction requirements generalizing bindings inputs v v' with
  | nil =>
    unfold visit at h ⊢
    split at h
    · rename_i hfull
      cases h
      rw [if_pos hfull]
      exact Metered.same
    · rename_i hfull
      cases h
      rw [if_neg hfull]
      exact ⟨Nat.le_refl _, fun hv => by rw [if_neg (not_lt.mpr hv)]⟩
  | cons r rest ih =>
    obtain ⟨requirement, facts⟩ := r
    unfold visit at h ⊢
    split at h
    · rename_i hfull
      cases h
      rw [if_pos hfull]
      exact Metered.same
    · rename_i hfull
      rw [if_neg hfull]
      refine metered_foldlM (fun v fact w hw => ?_) h
      have hlim : ¬ (⊤ : Limit) < (v.attempts : Limit) + 1 := not_top_lt
      by_cases hfull' : maxMatches ≤ (v.found.length : Limit)
      · rw [if_pos hfull'] at hw ⊢
        cases hw
        exact Metered.same
      · rw [if_neg hfull', if_neg hlim] at hw
        rw [if_neg hfull']
        dsimp only at hw ⊢
        have hrest : Metered maxAttempts { v with attempts := v.attempts + 1 }
            ((unify requirement fact.predicate bindings).elim (.ok { v with attempts := v.attempts + 1 }) fun next =>
              visit ⟨maxAttempts, maxMatches⟩ rest next (inputs ++ [fact]) { v with attempts := v.attempts + 1 }) w := by
          cases hunify : unify requirement fact.predicate bindings with
          | none =>
            simp only [hunify] at hw
            cases hw
            exact Metered.same
          | some next =>
            simp only [hunify] at hw
            exact ih hw
        obtain ⟨hle, hrest⟩ := hrest
        refine ⟨Nat.le_of_succ_le hle, fun _ => ?_⟩
        by_cases hover : maxAttempts < (v.attempts : Limit) + 1
        · have hover' : maxAttempts < (w.attempts : Limit) := hover.trans_le (by exact_mod_cast hle)
          rw [if_pos hover, if_pos hover']
        · rw [if_neg hover]
          refine Eq.trans ?_ (hrest (by exact_mod_cast not_lt.mp hover))
          cases unify requirement fact.predicate bindings <;> rfl

end Attempts

/-! ## The enumeration is complete -/

def searchAttempts (maxMatches : Limit) (requirements : List Predicate) (facts : List PlanValue) : ℕ :=
  match visit ⟨⊤, maxMatches⟩ (requirements.map fun r => (r, candidates r facts)) [] [] ⟨[], 0⟩ with
  | .ok v => v.attempts
  | .error _ => 0

structure EnumeratesCompletely (requirements : List Predicate) (facts : List PlanValue) (maxAttempts maxMatches : Limit) :
    Prop where
  /-- Without limits: the tuples that unify, each choice of positions once and in lexicographic order. -/
  tuples : (matchRequirements requirements facts).map RequirementMatch.inputs =
    (tuples facts requirements.length).filter fun tuple => decide (JointlyUnifiable requirements tuple)
  bindings : ∀ m ∈ matchRequirements requirements facts, Acyclic m.bindings ∧ ∀ σ : Substitution,
    σ.Satisfies m.bindings ↔ σ.UnifiesAll requirements (m.inputs.map PlanValue.predicate)
  first : matchRequirementsWith ⟨⊤, maxMatches⟩ requirements facts =
    .ok (firstOf maxMatches (matchRequirements requirements facts))
  attempts : matchRequirementsWith ⟨maxAttempts, maxMatches⟩ requirements facts =
    if maxAttempts < searchAttempts maxMatches requirements facts then .error .reached
    else matchRequirementsWith ⟨⊤, maxMatches⟩ requirements facts

section Complete
variable {requirements : List Predicate} {facts : List PlanValue} {maxAttempts maxMatches : Limit}

theorem matchRequirements_nil : matchRequirements [] facts = [⟨[], []⟩] := rfl

theorem matchRequirements_bindings {m : RequirementMatch} (hm : m ∈ matchRequirements requirements facts) :
    Acyclic m.bindings ∧ ∀ σ : Substitution,
      σ.Satisfies m.bindings ↔ σ.UnifiesAll requirements (m.inputs.map PlanValue.predicate) := by
  obtain ⟨hac, hsat⟩ := unifyAll_some acyclic_nil (mem_matchRequirements.1 hm).2
  exact ⟨hac, fun σ => (hsat σ).trans (and_iff_right σ.satisfies_nil)⟩

theorem matchRequirementsWith_first (h : requirements ≠ [] ∨ maxMatches ≠ 0) :
    matchRequirementsWith ⟨⊤, maxMatches⟩ requirements facts =
      .ok (firstOf maxMatches (matchRequirements requirements facts)) := by
  unfold matchRequirementsWith
  split
  · rename_i hnil
    rw [hnil, matchRequirements_nil]
    cases maxMatches with
    | none => rfl
    | some n =>
      have hn : n ≠ 0 := fun hzero => (h.resolve_left (not_not.mpr hnil)) (by rw [hzero]; rfl)
      obtain ⟨k, rfl⟩ := Nat.exists_eq_succ_of_ne_zero hn
      change _ = Except.ok (List.take (k + 1) [(⟨[], []⟩ : RequirementMatch)])
      rw [List.take_succ_cons, List.take_nil]
  · obtain ⟨v, hv⟩ := @visit_total maxMatches (requirements.map fun r => (r, candidates r facts)) [] [] ⟨[], 0⟩
    have hstart : (⟨[], 0⟩ : Visit).found = firstOf maxMatches [] := by
      cases maxMatches with
      | none => rfl
      | some n => exact List.take_nil.symm
    rw [hv, matchRequirements_eq_enumerate]
    exact congrArg Except.ok (visit_first hstart hv)

theorem matchRequirementsWith_metered : matchRequirementsWith ⟨maxAttempts, maxMatches⟩ requirements facts =
      if maxAttempts < searchAttempts maxMatches requirements facts then .error .reached
      else matchRequirementsWith ⟨⊤, maxMatches⟩ requirements facts := by
  obtain ⟨v, hv⟩ := @visit_total maxMatches (requirements.map fun r => (r, candidates r facts)) [] [] ⟨[], 0⟩
  have hzero : ((0 : ℕ) : Limit) ≤ maxAttempts := by
    rw [Nat.cast_zero]
    exact zero_le
  have hmetered := (visit_metered maxAttempts hv).2 hzero
  unfold matchRequirementsWith searchAttempts
  rw [hv]
  by_cases hnil : requirements = []
  · subst hnil
    have hattempts : v.attempts = 0 := by
      simp only [List.map_nil, visit] at hv
      split at hv <;> (cases hv; rfl)
    have hlimit : ¬ maxAttempts < ((v.attempts : ℕ) : Limit) := by
      rw [hattempts]
      exact not_lt.mpr hzero
    rw [if_pos rfl, if_pos rfl]
    exact (if_neg hlimit).symm
  · rw [if_neg hnil, if_neg hnil, hmetered]
    split <;> rfl

end Complete

end AvenOS.Actors
