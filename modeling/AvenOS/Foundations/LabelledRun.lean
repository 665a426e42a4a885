import Mathlib.Data.List.Basic

/-! # Runs of a labelled machine

A machine is a partial function of a state and a label. A run takes its labels one after another, and
stops where a label is not enabled. What every enabled step keeps, every run keeps. -/
namespace AvenOS.LabelledRun

variable {S A : Type} (step : S → A → Option S)

def run : S → List A → Option S
  | s, [] => some s
  | s, a :: actions => (step s a).bind fun s' => run s' actions

variable {step} {s s' : S} {a : A} {actions : List A}

theorem run_cons (h : run step s (a :: actions) = some s') :
    ∃ next, step s a = some next ∧ run step next actions = some s' :=
  Option.bind_eq_some_iff.mp h

theorem guarded_some {c : Prop} [Decidable c] (h : (if c then some s else none) = some s') : c ∧ s = s' := by
  obtain ⟨hc, hs⟩ := Option.ite_none_right_eq_some.mp h
  exact ⟨hc, Option.some.inj hs⟩

theorem run_append {more : List A} :
    run step s (actions ++ more) = (run step s actions).bind fun s' => run step s' more := by
  induction actions generalizing s with
  | nil => rfl
  | cons a actions ih =>
    rw [List.cons_append, run, run]
    cases step s a with
    | none => rfl
    | some next => exact ih

variable {last : A} {I : S → Prop} {P : A → Prop}

theorem concat_split {xs before after : List A} (h : xs ++ [last] = before ++ a :: after) :
    xs = before ∧ last = a ∧ after = [] ∨ ∃ rest, after = rest ++ [last] ∧ xs = before ++ a :: rest := by
  rcases List.eq_nil_or_concat after with rfl | ⟨rest, b, rfl⟩
  · obtain ⟨hbefore, hlast⟩ := List.append_inj' h rfl
    exact .inl ⟨hbefore, (List.cons.inj hlast).1, rfl⟩
  · rw [List.concat_eq_append, ← List.cons_append, ← List.append_assoc] at h
    obtain ⟨hbefore, hlast⟩ := List.append_inj' h rfl
    exact .inr ⟨rest, by rw [List.concat_eq_append, (List.cons.inj hlast).1], hbefore⟩

def lastWhere (test : A → Bool) (log : List A) : Option A := (log.filter test).getLast?

theorem lastWhere_concat {test : A → Bool} {log : List A} :
    lastWhere test (log ++ [last]) = if test last then some last else lastWhere test log := by
  unfold lastWhere
  rw [List.filter_append]
  by_cases hlast : test last = true
  · rw [if_pos hlast, List.filter_cons_of_pos hlast, List.filter_nil, List.getLast?_concat]
  · rw [if_neg hlast, List.filter_cons_of_neg hlast, List.filter_nil, List.append_nil]

theorem run_snoc (h : run step s (actions ++ [a]) = some s') :
    ∃ before, run step s actions = some before ∧ step before a = some s' := by
  rw [run_append] at h
  obtain ⟨before, hbefore, hlast⟩ := Option.bind_eq_some_iff.mp h
  obtain ⟨next, hnext, hrun⟩ := run_cons hlast
  cases hrun
  exact ⟨before, hbefore, hnext⟩

theorem run_invariant (hstep : ∀ s a s', P a → I s → step s a = some s' → I s') (hactions : ∀ a ∈ actions, P a)
    (hs : I s) (h : run step s actions = some s') : I s' := by
  induction actions generalizing s with
  | nil =>
    cases h
    exact hs
  | cons a actions ih =>
    obtain ⟨next, hnext, hrun⟩ := run_cons h
    exact ih (fun b hb => hactions b (List.mem_cons_of_mem a hb))
      (hstep s a next (hactions a List.mem_cons_self) hs hnext) hrun

theorem run_relates {R : S → S → Prop} (hinvariant : ∀ s a s', P a → I s → step s a = some s' → I s')
    (hrefl : ∀ s, R s s) (htrans : ∀ s t u, R s t → R t u → R s u)
    (hstep : ∀ s a s', P a → I s → step s a = some s' → R s s') (hactions : ∀ a ∈ actions, P a) (hs : I s)
    (h : run step s actions = some s') : R s s' := by
  induction actions generalizing s with
  | nil =>
    cases h
    exact hrefl _
  | cons a actions ih =>
    obtain ⟨next, hnext, hrun⟩ := run_cons h
    have ha := hactions a List.mem_cons_self
    exact htrans s next s' (hstep s a next ha hs hnext)
      (ih (fun b hb => hactions b (List.mem_cons_of_mem a hb)) (hinvariant s a next ha hs hnext) hrun)

/-! ## Runs whose steps all meet a condition on the state before -/

/-- Every label of a run is allowed in the state that it finds. -/
def along (step : S → A → Option S) (allowed : S → A → Bool) : S → List A → Bool
  | _, [] => true
  | s, a :: actions => allowed s a && (step s a).all fun s' => along step allowed s' actions

section Along
variable {allowed : S → A → Bool}

theorem along_cons (h : along step allowed s (a :: actions) = true) :
    allowed s a = true ∧ ∀ s', step s a = some s' → along step allowed s' actions = true := by
  obtain ⟨hallowed, hrest⟩ := Bool.and_eq_true _ _ ▸ h
  exact ⟨hallowed, fun s' hs' => by rw [hs'] at hrest; exact hrest⟩

variable {after : List A} {I : S → Prop}

theorem along_split (h : along step allowed s (actions ++ after) = true) (hrun : run step s actions = some s') :
    along step allowed s' after = true := by
  induction actions generalizing s with
  | nil =>
    cases hrun
    exact h
  | cons a actions ih =>
    obtain ⟨next, hnext, hrest⟩ := run_cons hrun
    exact ih ((along_cons h).2 next hnext) hrest

theorem along_append (h : along step allowed s actions = true)
    (hafter : ∀ s', run step s actions = some s' → along step allowed s' after = true) :
    along step allowed s (actions ++ after) = true := by
  induction actions generalizing s with
  | nil => exact hafter s rfl
  | cons a actions ih =>
    obtain ⟨hallowed, hrest⟩ := along_cons h
    rw [List.cons_append, along, hallowed, Bool.true_and, Option.all_eq_true]
    intro next hnext
    refine ih (hrest next hnext) fun s' hs' => hafter s' ?_
    rw [run, hnext]
    exact hs'

theorem along_of_forall (h : ∀ s, ∀ a ∈ actions, allowed s a = true) : along step allowed s actions = true := by
  induction actions generalizing s with
  | nil => rfl
  | cons a actions ih =>
    rw [along, h s a List.mem_cons_self, Bool.true_and, Option.all_eq_true]
    exact fun s' _ => ih fun t b hb => h t b (List.mem_cons_of_mem a hb)

theorem along_before (h : along step allowed s (actions ++ after) = true) : along step allowed s actions = true := by
  induction actions generalizing s with
  | nil => rfl
  | cons a actions ih =>
    obtain ⟨hallowed, hrest⟩ := along_cons h
    rw [along, hallowed, Bool.true_and, Option.all_eq_true]
    exact fun s' hs' => ih (hrest s' hs')

theorem along_and {other : S → A → Bool} (h : along step allowed s actions = true)
    (hother : along step other s actions = true) :
    along step (fun s a => allowed s a && other s a) s actions = true := by
  induction actions generalizing s with
  | nil => rfl
  | cons a actions ih =>
    obtain ⟨hallowed, hrest⟩ := along_cons h
    obtain ⟨hallowed', hrest'⟩ := along_cons hother
    rw [along, hallowed, hallowed', Bool.true_and, Bool.true_and, Option.all_eq_true]
    exact fun s' hs' => ih (hrest s' hs') (hrest' s' hs')

theorem along_invariant (hstep : ∀ s a s', allowed s a = true → I s → step s a = some s' → I s')
    (h : along step allowed s actions = true) (hs : I s) (hrun : run step s actions = some s') : I s' := by
  induction actions generalizing s with
  | nil =>
    cases hrun
    exact hs
  | cons a actions ih =>
    obtain ⟨next, hnext, hrest⟩ := run_cons hrun
    obtain ⟨hallowed, hlater⟩ := along_cons h
    exact ih (hlater next hnext) (hstep s a next hallowed hs hnext) hrest

theorem along_relates {R : S → S → Prop} (hinvariant : ∀ s a s', allowed s a = true → I s → step s a = some s' → I s')
    (hrefl : ∀ s, R s s) (htrans : ∀ s t u, R s t → R t u → R s u)
    (hstep : ∀ s a s', allowed s a = true → I s → step s a = some s' → R s s')
    (h : along step allowed s actions = true) (hs : I s) (hrun : run step s actions = some s') : R s s' := by
  induction actions generalizing s with
  | nil =>
    cases hrun
    exact hrefl _
  | cons a actions ih =>
    obtain ⟨next, hnext, hrest⟩ := run_cons hrun
    obtain ⟨hallowed, hlater⟩ := along_cons h
    exact htrans s next s' (hstep s a next hallowed hs hnext)
      (ih (hlater next hnext) (hinvariant s a next hallowed hs hnext) hrest)

end Along

end AvenOS.LabelledRun
