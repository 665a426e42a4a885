import AvenOS.Foundations.LabelledRun

/-! # Layers of a readiness test

Elements are taken in rounds: each round takes every element that is ready given what the rounds before took. When no element
left is ready, one last round takes them all. -/
namespace AvenOS.Layering

variable {α : Type} (ready : List α → α → Bool)

/-- The rounds, within a budget of them. -/
def layers : ℕ → List (List α) → List α → Option (List (List α))
  | _, result, [] => some result
  | 0, _, _ :: _ => none
  | budget + 1, result, a :: pending =>
    match (a :: pending).filter (ready result.flatten) with
    | [] => some (result ++ [a :: pending])
    | first :: rest =>
      layers budget (result ++ [first :: rest]) ((a :: pending).filter fun x => !ready result.flatten x)

/-- Rounds of all elements: each but a last one is ready, and what a later round takes was not ready before. -/
structure Layered (elements : List α) (result : List (List α)) : Prop where
  once : result.flatten.Perm elements
  nonempty : ∀ stage ∈ result, stage ≠ []
  stage : ∀ before stage after, result = before ++ stage :: after →
    (∀ a ∈ stage, ready before.flatten a = true) ∨ after = [] ∧ ∀ a ∈ stage, ready before.flatten a = false
  earliest : ∀ before stage after, result = before ++ stage :: after →
    ∀ a ∈ after.flatten, ready before.flatten a = false

/-- The rounds so far, and what is left for later ones. -/
structure Rounds (elements : List α) (result : List (List α)) (pending : List α) : Prop where
  once : (result.flatten ++ pending).Perm elements
  nonempty : ∀ stage ∈ result, stage ≠ []
  stage : ∀ before stage after, result = before ++ stage :: after → ∀ a ∈ stage, ready before.flatten a = true
  earliest : ∀ before stage after, result = before ++ stage :: after →
    ∀ a ∈ after.flatten ++ pending, ready before.flatten a = false

variable {ready} {elements pending : List α} {result : List (List α)}

variable (ready) in
theorem rounds_start (elements : List α) : Rounds ready elements [] elements where
  once := List.Perm.refl _
  nonempty := by simp
  stage := by simp
  earliest := by simp

theorem Rounds.done (h : Rounds ready elements result []) : Layered ready elements result where
  once := by simpa using h.once
  nonempty := h.nonempty
  stage before stage after hsplit := .inl (h.stage before stage after hsplit)
  earliest before stage after hsplit := by simpa using h.earliest before stage after hsplit

theorem Rounds.round (h : Rounds ready elements result pending) (hready : pending.filter (ready result.flatten) ≠ []) :
    Rounds ready elements (result ++ [pending.filter (ready result.flatten)])
      (pending.filter fun x => !ready result.flatten x) where
  once := by
    rw [List.flatten_append, List.flatten_singleton, List.append_assoc]
    exact ((List.filter_append_perm _ pending).append_left _).trans h.once
  nonempty := by
    intro stage hstage
    rcases List.mem_append.mp hstage with hstage | hstage
    · exact h.nonempty stage hstage
    · rw [List.mem_singleton.mp hstage]
      exact hready
  stage := by
    intro before stage after hsplit
    rcases LabelledRun.concat_split hsplit with ⟨rfl, rfl, -⟩ | ⟨rest, -, hresult⟩
    · intro a ha
      exact (List.mem_filter.mp ha).2
    · exact h.stage before stage rest hresult
  earliest := by
    intro before stage after hsplit a ha
    rcases LabelledRun.concat_split hsplit with ⟨rfl, rfl, rfl⟩ | ⟨rest, rfl, hresult⟩
    · rw [List.flatten_nil, List.nil_append] at ha
      simpa using (List.mem_filter.mp ha).2
    · refine h.earliest before stage rest hresult a ?_
      simp only [List.flatten_append, List.flatten_singleton, List.mem_append, List.mem_filter] at ha ⊢
      tauto

theorem Rounds.rest (h : Rounds ready elements result pending) (hpending : pending ≠ [])
    (hready : pending.filter (ready result.flatten) = []) : Layered ready elements (result ++ [pending]) where
  once := by simpa using h.once
  nonempty := by
    intro stage hstage
    rcases List.mem_append.mp hstage with hstage | hstage
    · exact h.nonempty stage hstage
    · rw [List.mem_singleton.mp hstage]
      exact hpending
  stage := by
    intro before stage after hsplit
    rcases LabelledRun.concat_split hsplit with ⟨rfl, rfl, rfl⟩ | ⟨rest, -, hresult⟩
    · exact .inr ⟨rfl, fun a ha => Bool.eq_false_iff.mpr (List.filter_eq_nil_iff.mp hready a ha)⟩
    · exact .inl (h.stage before stage rest hresult)
  earliest := by
    intro before stage after hsplit a ha
    rcases LabelledRun.concat_split hsplit with ⟨rfl, rfl, rfl⟩ | ⟨rest, rfl, hresult⟩
    · cases ha
    · refine h.earliest before stage rest hresult a ?_
      simpa using ha

theorem layers_layered (h : Rounds ready elements result pending) : ∃ final, Layered ready elements final ∧
      ∀ budget, pending.length ≤ budget → layers ready budget result pending = some final := by
  induction hlength : pending.length using Nat.strongRecOn generalizing result pending with
  | _ length ih =>
    subst hlength
    cases pending with
    | nil => exact ⟨result, h.done, fun budget _ => by cases budget <;> rfl⟩
    | cons a pending =>
      cases htaken : (a :: pending).filter (ready result.flatten) with
      | nil =>
        refine ⟨_, h.rest (List.cons_ne_nil _ _) htaken, fun budget hbudget => ?_⟩
        obtain ⟨budget, rfl⟩ := Nat.exists_eq_add_of_le' (Nat.lt_of_lt_of_le (Nat.succ_pos _) hbudget)
        rw [layers, htaken]
      | cons first rest =>
        have hround := h.round (by rw [htaken]; exact List.cons_ne_nil _ _)
        have hless : ((a :: pending).filter fun x => !ready result.flatten x).length < (a :: pending).length := by
          have htotal := List.length_eq_length_filter_add (l := a :: pending) (ready result.flatten)
          have hfirst : (first :: rest).length = rest.length + 1 := List.length_cons
          rw [htaken] at htotal
          omega
        rw [htaken] at hround
        obtain ⟨final, hfinal, hrun⟩ := ih _ hless hround rfl
        refine ⟨final, hfinal, fun budget hbudget => ?_⟩
        obtain ⟨budget, rfl⟩ := Nat.exists_eq_add_of_le' (Nat.lt_of_lt_of_le (Nat.succ_pos _) hbudget)
        rw [layers, htaken]
        exact hrun budget (by omega)

end AvenOS.Layering
