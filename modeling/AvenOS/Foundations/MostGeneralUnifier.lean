import AvenOS.Foundations.FlatUnification
import Mathlib.Logic.Equiv.Basic

/-! # The answer of a unification

A unification only binds variables that were free. Run with its lists exchanged it gives an answer as well, and the two
answers are one up to a renaming of variables: where the first binds one variable to another, the second may bind the
other to the one. -/
namespace AvenOS.FlatUnification

variable {α : Type} [DecidableEq α] {isVar : α → Bool} {b b' one other : Bindings α}

/-! ## More bindings -/

def Extends (b b' : Bindings α) : Prop := ∀ x y, b.lookup x = some y → b'.lookup x = some y

theorem Extends.refl (b : Bindings α) : Extends b b := fun _ _ h => h

theorem Extends.trans {b'' : Bindings α} (h : Extends b b') (h' : Extends b' b'') : Extends b b'' :=
  fun x y hxy => h' x y (h x y hxy)

variable {v t l r wild : α} {ls rs : List α} {one' : Bindings α}

theorem extends_cons (hv : isVar v = true) (hfree : next isVar b v = none) : Extends b ((v, t) :: b) := by
  intro x y hxy
  have hne : (x == v) = false := by
    rw [beq_eq_false_iff_ne]
    rintro rfl
    rw [next, if_pos hv, hxy] at hfree
    cases hfree
  rw [List.lookup_cons, hne]
  exact hxy

theorem unifyStep_extends (hb : Acyclic isVar b) (h : unifyStep isVar b l r = some b') : Extends b b' := by
  unfold unifyStep at h
  dsimp only at h
  split at h
  · cases h
    exact Extends.refl _
  · split at h
    · rename_i hv
      cases h
      exact extends_cons hv (resolve_final hb l)
    · split at h
      · rename_i hv
        cases h
        exact extends_cons hv (resolve_final hb r)
      · cases h

theorem unifyArgs_extends (hb : Acyclic isVar b) (h : unifyArgs isVar wild ls rs b = some b') : Extends b b' := by
  induction ls generalizing rs b with
  | nil =>
    cases rs with
    | nil =>
      cases h
      exact Extends.refl _
    | cons r rs => cases h
  | cons l ls ih =>
    cases rs with
    | nil => cases h
    | cons r rs =>
      unfold unifyArgs at h
      split at h
      · exact ih hb h
      · split at h
        · cases h
        · rename_i b₁ hstep
          exact (unifyStep_extends hb hstep).trans (ih (unifyStep_some hb hstep).1 h)

theorem resolve_cons (hb : Acyclic isVar b) (hv : isVar v = true) (hfree : next isVar b v = none)
    (ht : next isVar b t = none) (hne : t ≠ v) (x : α) :
    resolve isVar ((v, t) :: b) x = if resolve isVar b x = v then t else resolve isVar b x := by
  have hac := acyclic_cons hb hv hfree ht hne
  have hlink : ∀ y z, Linked isVar b y z → Linked isVar ((v, t) :: b) y z := by
    intro y z hyz
    have hy : y ≠ v := by
      rintro rfl
      rw [Linked, hfree] at hyz
      cases hyz
    rw [Linked, next_cons hv, if_neg hy]
    exact hyz
  have hchain : Chain isVar ((v, t) :: b) x (resolve isVar b x) := Relation.ReflTransGen.mono hlink _ _ (resolve_chain b x)
  have hfinal : ∀ y, y ≠ v → next isVar b y = none → next isVar ((v, t) :: b) y = none := by
    intro y hy hyb
    rw [next_cons hv, if_neg hy]
    exact hyb
  by_cases hend : resolve isVar b x = v
  · rw [if_pos hend]
    have hstep : Linked isVar ((v, t) :: b) (resolve isVar b x) t := by
      rw [hend, Linked, next_cons hv, if_pos rfl]
    exact chain_final_unique (resolve_chain _ x) (resolve_final hac x) (hchain.tail hstep) (hfinal t hne ht)
  · rw [if_neg hend]
    exact chain_final_unique (resolve_chain _ x) (resolve_final hac x) hchain (hfinal _ hend (resolve_final hb x))

/-! ## Two orders -/

/-- Variables exchanged for variables. -/
structure Renaming (isVar : α → Bool) (π : Equiv.Perm α) : Prop where
  kind : ∀ x, isVar (π x) = isVar x
  const : ∀ x, isVar x = false → π x = x

/-- What one resolves to, the other resolves to under other names. -/
def Renamed (isVar : α → Bool) (one other : Bindings α) : Prop :=
  ∃ π : Equiv.Perm α, Renaming isVar π ∧ ∀ x, resolve isVar other x = π (resolve isVar one x)

omit [DecidableEq α] in
theorem renaming_refl : Renaming isVar (Equiv.refl α) := ⟨fun _ => rfl, fun _ _ => rfl⟩

theorem renamed_refl (b : Bindings α) : Renamed isVar b b := ⟨Equiv.refl α, renaming_refl, fun _ => rfl⟩

theorem Renaming.swap {π : Equiv.Perm α} (h : Renaming isVar π) {w : α} (hv : isVar v = true) (hw : isVar w = true) :
    Renaming isVar ((Equiv.swap v w).trans π) := by
  have hswap : ∀ x, isVar (Equiv.swap v w x) = isVar x := by
    intro x
    by_cases hxv : x = v
    · rw [hxv, Equiv.swap_apply_left, hv, hw]
    · by_cases hxw : x = w
      · rw [hxw, Equiv.swap_apply_right, hv, hw]
      · rw [Equiv.swap_apply_of_ne_of_ne hxv hxw]
  refine ⟨fun x => ?_, fun x hx => ?_⟩
  · rw [Equiv.trans_apply, h.kind, hswap]
  · have hxv : x ≠ v := by
      rintro rfl
      rw [hv] at hx
      cases hx
    have hxw : x ≠ w := by
      rintro rfl
      rw [hw] at hx
      cases hx
    rw [Equiv.trans_apply, Equiv.swap_apply_of_ne_of_ne hxv hxw, h.const x hx]

theorem unifyStep_exchanged (hone : Acyclic isVar one) (hother : Acyclic isVar other) (h : Renamed isVar one other)
    (hstep : unifyStep isVar one l r = some one') :
    ∃ other', unifyStep isVar other r l = some other' ∧ Renamed isVar one' other' := by
  obtain ⟨π, hπ, hrenamed⟩ := h
  have hleft := resolve_final hone l
  have hright := resolve_final hone r
  have hleft' := resolve_final hother l
  have hright' := resolve_final hother r
  rw [hrenamed] at hleft' hright'
  unfold unifyStep at hstep ⊢
  dsimp only at hstep ⊢
  rw [hrenamed r, hrenamed l]
  generalize resolve isVar one l = left at *
  generalize resolve isVar one r = right at *
  split at hstep
  · rename_i heq
    cases hstep
    exact ⟨other, by rw [heq, if_pos rfl], π, hπ, hrenamed⟩
  · rename_i hne
    have hne' : π right ≠ π left := fun heq => hne (π.injective heq).symm
    rw [if_neg hne']
    split at hstep
    · rename_i hvar
      cases hstep
      have hvar' : isVar (π left) = true := (hπ.kind left).trans hvar
      by_cases hboth : isVar right = true
      · -- the first binds `left`, the second binds the image of `right`
        have hboth' : isVar (π right) = true := (hπ.kind right).trans hboth
        rw [if_pos hboth']
        refine ⟨_, rfl, (Equiv.swap left right).trans π, hπ.swap hvar hboth, fun x => ?_⟩
        rw [resolve_cons hother hboth' hright' hleft' hne'.symm, resolve_cons hone hvar hleft hright (Ne.symm hne), hrenamed x,
          Equiv.trans_apply]
        by_cases hxl : resolve isVar one x = left
        · rw [if_pos hxl, hxl, if_neg hne'.symm, Equiv.swap_apply_right]
        · rw [if_neg hxl]
          by_cases hxr : resolve isVar one x = right
          · rw [hxr, if_pos rfl, Equiv.swap_apply_right]
          · rw [if_neg fun heq => hxr (π.injective heq), Equiv.swap_apply_of_ne_of_ne hxl hxr]
      · have hconst : isVar right = false := by simpa using hboth
        have hsame : π right = right := hπ.const right hconst
        rw [hsame] at hright' hne' ⊢
        rw [if_neg hboth, if_pos hvar']
        refine ⟨_, rfl, π, hπ, fun x => ?_⟩
        rw [resolve_cons hother hvar' hleft' hright' hne', resolve_cons hone hvar hleft hright (Ne.symm hne), hrenamed x]
        by_cases hxl : resolve isVar one x = left
        · rw [if_pos hxl, hxl, if_pos rfl, hsame]
        · rw [if_neg hxl, if_neg fun heq => hxl (π.injective heq)]
    · rename_i hvar
      split at hstep
      · rename_i hboth
        cases hstep
        have hconst : isVar left = false := by simpa using hvar
        have hsame : π left = left := hπ.const left hconst
        have hboth' : isVar (π right) = true := (hπ.kind right).trans hboth
        rw [hsame] at hleft' hne' ⊢
        rw [if_pos hboth']
        refine ⟨_, rfl, π, hπ, fun x => ?_⟩
        rw [resolve_cons hother hboth' hright' hleft' hne'.symm, resolve_cons hone hboth hright hleft hne, hrenamed x]
        by_cases hxr : resolve isVar one x = right
        · rw [if_pos hxr, hxr, if_pos rfl, hsame]
        · rw [if_neg hxr, if_neg fun heq => hxr (π.injective heq)]
      · cases hstep

theorem unifyArgs_exchanged (hone : Acyclic isVar one) (hother : Acyclic isVar other) (h : Renamed isVar one other)
    (hunify : unifyArgs isVar wild ls rs one = some one') :
    ∃ other', unifyArgs isVar wild rs ls other = some other' ∧ Renamed isVar one' other' := by
  induction ls generalizing rs one other with
  | nil =>
    cases rs with
    | nil =>
      cases hunify
      exact ⟨other, rfl, h⟩
    | cons r rs => cases hunify
  | cons l ls ih =>
    cases rs with
    | nil => cases hunify
    | cons r rs =>
      unfold unifyArgs at hunify ⊢
      split at hunify
      · rename_i hwild
        rw [if_pos hwild.symm]
        exact ih hone hother h hunify
      · rename_i hwild
        rw [if_neg fun hw => hwild hw.symm]
        split at hunify
        · cases hunify
        · rename_i one₁ hstep
          obtain ⟨other₁, hstep', hrenamed⟩ := unifyStep_exchanged hone hother h hstep
          rw [hstep']
          exact ih (unifyStep_some hone hstep).1 (unifyStep_some hother hstep').1 hrenamed hunify

end AvenOS.FlatUnification
