import Mathlib.Logic.Relation

/-! # Forests given by parents

Each element has one parent or none. Where some elements get one parent that has none itself, and is not one of
them, no cycle arises. -/
namespace AvenOS.ParentForest

variable {α : Type} {parent next : α → Option α} {target : α} {grafted : α → Prop}

/-- The elements above another one. -/
def Above (parent : α → Option α) : α → α → Prop := Relation.TransGen fun a b => parent a = some b

def Acyclic (parent : α → Option α) : Prop := ∀ a, ¬Above parent a a

theorem not_above_of_root (h : parent target = none) {a : α} : ¬Above parent target a := fun habove => by
  obtain ⟨b, hfirst, -⟩ := Relation.TransGen.head'_iff.mp habove
  rw [h] at hfirst
  cases hfirst

theorem acyclic_empty (h : ∀ a, parent a = none) : Acyclic parent := fun a => not_above_of_root (h a)

theorem above_graft (htarget : next target = none) (hgrafted : ∀ a, grafted a → next a = some target)
    (hother : ∀ a, ¬grafted a → next a = parent a) {a b : α} (h : Above next a b) :
    Above parent a b ∨ b = target := by
  induction h with
  | @single b hstep =>
    by_cases ha : grafted a
    · exact .inr (Option.some.inj (hstep.symm.trans (hgrafted a ha)))
    · exact .inl (.single ((hother a ha).symm.trans hstep))
  | @tail b c hpath hstep ih =>
    rcases ih with habove | rfl
    · by_cases hb : grafted b
      · exact .inr (Option.some.inj (hstep.symm.trans (hgrafted b hb)))
      · exact .inl (habove.tail ((hother b hb).symm.trans hstep))
    · rw [htarget] at hstep
      cases hstep

variable (grafted) in
theorem Acyclic.graft (h : Acyclic parent) (htarget : parent target = none) (hnot : ¬grafted target)
    (hgrafted : ∀ a, grafted a → next a = some target) (hother : ∀ a, ¬grafted a → next a = parent a) :
    Acyclic next := by
  have hroot : next target = none := (hother target hnot).trans htarget
  intro a hcycle
  rcases above_graft hroot hgrafted hother hcycle with habove | rfl
  · exact h a habove
  · exact not_above_of_root hroot hcycle

end AvenOS.ParentForest
