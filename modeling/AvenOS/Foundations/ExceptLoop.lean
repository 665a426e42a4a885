import Mathlib.Data.List.Basic

/-! # Loops that may throw

Rules for `List.foldlM` in `Except`: what one round preserves a whole loop preserves, what the
rounds append a whole loop appends, and a loop that changed nothing changed nothing anywhere.
`List.mapM` answers elementwise. -/
namespace AvenOS.ExceptLoop

variable {ε α β γ : Type} {f : β → α → Except ε β} {l : List α} {b b' : β}

variable {a : α} {g : α → Except ε β} {R : α → β → Prop}

theorem foldlM_cons_ok (h : (a :: l).foldlM f b = .ok b') : ∃ b₁, f b a = .ok b₁ ∧ l.foldlM f b₁ = .ok b' := by
  rw [List.foldlM_cons] at h
  cases hf : f b a with
  | error e =>
    rw [hf] at h
    cases h
  | ok b₁ =>
    rw [hf] at h
    exact ⟨b₁, rfl, h⟩

variable {P : β → Prop} {x : Except ε α} {l' : List β}

theorem foldlM_invariant (hstep : ∀ b, ∀ a ∈ l, ∀ b', P b → f b a = .ok b' → P b')
    (h : l.foldlM f b = .ok b') (hb : P b) : P b' := by
  induction l generalizing b with
  | nil =>
    cases h
    exact hb
  | cons a l ih =>
    obtain ⟨b₁, h₁, h₂⟩ := foldlM_cons_ok h
    have hb₁ := hstep b a (by simp) b₁ hb h₁
    exact ih (fun b a ha => hstep b a (List.mem_cons_of_mem _ ha)) h₂ hb₁

theorem foldlM_append {g : β → List γ} {added : α → List γ}
    (hstep : ∀ b a b', f b a = .ok b' → g b' = g b ++ added a) (h : l.foldlM f b = .ok b') :
    g b' = g b ++ l.flatMap added := by
  induction l generalizing b with
  | nil =>
    cases h
    simp
  | cons a l ih =>
    obtain ⟨b₁, h₁, h₂⟩ := foldlM_cons_ok h
    rw [ih h₂, hstep b a b₁ h₁, List.flatMap_cons, List.append_assoc]

theorem foldlM_iff {Q : α → Prop} (hstep : ∀ b a b', f b a = .ok b' → (P b' ↔ P b ∧ Q a)) (h : l.foldlM f b = .ok b') :
    P b' ↔ P b ∧ ∀ a ∈ l, Q a := by
  induction l generalizing b with
  | nil =>
    cases h
    simp
  | cons a l ih =>
    obtain ⟨b₁, h₁, h₂⟩ := foldlM_cons_ok h
    rw [ih h₂, hstep b a b₁ h₁, List.forall_mem_cons, and_assoc]

theorem foldlM_total (hstep : ∀ b a, ∃ b', f b a = .ok b') : ∃ b', l.foldlM f b = .ok b' := by
  induction l generalizing b with
  | nil => exact ⟨b, rfl⟩
  | cons a l ih =>
    obtain ⟨b₁, h₁⟩ := hstep b a
    obtain ⟨b', h'⟩ := @ih b₁
    refine ⟨b', ?_⟩
    rw [List.foldlM_cons, h₁]
    exact h'

theorem foldlM_quiet {Q : β → Prop} {S : β → α → Prop}
    (hstep : ∀ b, ∀ a ∈ l, ∀ b', f b a = .ok b' → Q b' → b' = b ∧ S b a)
    (h : l.foldlM f b = .ok b') (hq : Q b') : b' = b ∧ ∀ a ∈ l, S b a := by
  induction l generalizing b with
  | nil =>
    cases h
    simp
  | cons a l ih =>
    obtain ⟨b₁, h₁, h₂⟩ := foldlM_cons_ok h
    obtain ⟨rfl, hrest⟩ := ih (fun b a ha => hstep b a (List.mem_cons_of_mem _ ha)) h₂
    obtain ⟨rfl, hskip⟩ := hstep b a (by simp) _ h₁ hq
    refine ⟨rfl, ?_⟩
    intro x hx
    rcases List.mem_cons.mp hx with rfl | hx
    · exact hskip
    · exact hrest x hx

theorem bind_eq_ok (h : x >>= g = .ok b) : ∃ a, x = .ok a ∧ g a = .ok b := by
  cases x with
  | error e => cases h
  | ok a => exact ⟨a, rfl, h⟩

theorem bind_ok_iff : x >>= g = .ok b ↔ ∃ a, x = .ok a ∧ g a = .ok b :=
  ⟨bind_eq_ok, fun ⟨_, hx, hg⟩ => by rw [hx]; exact hg⟩

theorem map_eq_ok {g : α → β} (h : x.map g = .ok b) : ∃ a, x = .ok a ∧ g a = b := by
  cases x with
  | error e => cases h
  | ok a => exact ⟨a, rfl, Except.ok.inj h⟩

theorem forall₂_right (h : List.Forall₂ R l l') (hb : b ∈ l') : ∃ a ∈ l, R a b := by
  induction h with
  | nil => cases hb
  | cons hhead _ ih =>
    rcases List.mem_cons.mp hb with rfl | hb
    · exact ⟨_, List.mem_cons_self, hhead⟩
    · obtain ⟨a, ha, hR⟩ := ih hb
      exact ⟨a, List.mem_cons_of_mem _ ha, hR⟩

theorem mapM_ok {f : α → Except ε β} (h : l.mapM f = .ok l') : List.Forall₂ (fun a b => f a = .ok b) l l' := by
  induction l generalizing l' with
  | nil =>
    cases h
    exact .nil
  | cons a l ih =>
    rw [List.mapM_cons] at h
    cases hf : f a with
    | error e =>
      rw [hf] at h
      cases h
    | ok b =>
      cases hl : l.mapM f with
      | error e =>
        rw [hf, hl] at h
        cases h
      | ok bs =>
        rw [hf, hl] at h
        cases h
        exact .cons hf (ih hl)

theorem mapM_ok_mem {f : α → Except ε β} (h : l.mapM f = .ok l') (ha : a ∈ l) : ∃ b ∈ l', f a = .ok b := by
  have hall := mapM_ok h
  clear h
  induction hall with
  | nil => cases ha
  | cons hab _ ih =>
    rcases List.mem_cons.mp ha with rfl | ha
    · exact ⟨_, List.mem_cons_self, hab⟩
    · obtain ⟨b, hb, hab⟩ := ih ha
      exact ⟨b, List.mem_cons_of_mem _ hb, hab⟩

theorem mem_mapM_ok {f : α → Except ε β} (h : l.mapM f = .ok l') {b : β} (hb : b ∈ l') : ∃ a ∈ l, f a = .ok b := by
  have hall := mapM_ok h
  clear h
  induction hall with
  | nil => cases hb
  | cons hab _ ih =>
    rcases List.mem_cons.mp hb with rfl | hb
    · exact ⟨_, List.mem_cons_self, hab⟩
    · obtain ⟨a, ha, hab⟩ := ih hb
      exact ⟨a, List.mem_cons_of_mem _ ha, hab⟩

theorem map_mapM_ok {f : α → Except ε β} {key : α → γ} {key' : β → γ}
    (h : l.mapM f = .ok l') (hkey : ∀ a b, f a = .ok b → key' b = key a) : l'.map key' = l.map key := by
  have hall := mapM_ok h
  clear h
  induction hall with
  | nil => rfl
  | cons hab _ ih => rw [List.map_cons, List.map_cons, ih, hkey _ _ hab]

theorem mapM_all_ok {f : α → Except ε β} (h : ∀ a ∈ l, ∃ b, f a = .ok b ∧ R a b) :
    ∃ l', l.mapM f = .ok l' ∧ List.Forall₂ R l l' := by
  induction l with
  | nil => exact ⟨[], rfl, .nil⟩
  | cons a l ih =>
    obtain ⟨b, hb, hR⟩ := h a List.mem_cons_self
    obtain ⟨l', hl', hall⟩ := ih fun a ha => h a (List.mem_cons_of_mem _ ha)
    exact ⟨b :: l', by rw [List.mapM_cons, hb, hl']; rfl, .cons hR hall⟩

theorem forM_all_ok {f : α → Except ε PUnit} (h : ∀ a ∈ l, f a = .ok ⟨⟩) : l.forM f = .ok ⟨⟩ := by
  induction l with
  | nil => rfl
  | cons a l ih =>
    rw [List.forM_eq_forM, List.forM_cons, h a List.mem_cons_self]
    exact ih fun a ha => h a (List.mem_cons_of_mem _ ha)

theorem foldlM_all_ok {g : β → α → β} (hstep : ∀ b, ∀ a ∈ l, P b → f b a = .ok (g b a) ∧ P (g b a)) (hb : P b) :
    l.foldlM f b = .ok (l.foldl g b) := by
  induction l generalizing b with
  | nil => rfl
  | cons a l ih =>
    obtain ⟨hok, hP⟩ := hstep b a List.mem_cons_self hb
    rw [List.foldlM_cons, hok]
    exact ih (fun b a ha => hstep b a (List.mem_cons_of_mem _ ha)) hP

/-! ## Computations that fail alike -/

section Agree
variable {ε α α' β β' : Type} {R : α → α' → Prop} {S : β → β' → Prop}

/-- Two computations that fail with one error, or return values that are related. -/
inductive Agree (R : α → α' → Prop) : Except ε α → Except ε α' → Prop
  | ok {a : α} {a' : α'} (h : R a a') : Agree R (.ok a) (.ok a')
  | error (e : ε) : Agree R (.error e) (.error e)

variable {x : Except ε α}

theorem Agree.split {y : Except ε α'} (h : Agree R x y) :
    (∃ e, x = .error e ∧ y = .error e) ∨ ∃ a a', x = .ok a ∧ y = .ok a' ∧ R a a' := by
  cases h with
  | ok h => exact .inr ⟨_, _, rfl, rfl, h⟩
  | error e => exact .inl ⟨e, rfl, rfl⟩

theorem Agree.refl (x : Except ε α) : Agree Eq x x := by
  cases x with
  | error e => exact .error e
  | ok a => exact .ok rfl

theorem Agree.eq {y : Except ε α} (h : Agree Eq x y) : x = y := by
  cases h with
  | error e => rfl
  | ok h => rw [h]

theorem Agree.bind {x' : Except ε α'} {f : α → Except ε β} {g : α' → Except ε β'} (h : Agree R x x')
    (hnext : ∀ a a', R a a' → Agree S (f a) (g a')) : Agree S (x >>= f) (x' >>= g) := by
  cases h with
  | error e => exact .error e
  | ok h => exact hnext _ _ h

theorem Agree.then {f : α → Except ε β} {g : α → Except ε β'} (hnext : ∀ a, Agree S (f a) (g a)) :
    Agree S (x >>= f) (x >>= g) :=
  (Agree.refl x).bind fun a _ h => h ▸ hnext a

end Agree
end AvenOS.ExceptLoop
