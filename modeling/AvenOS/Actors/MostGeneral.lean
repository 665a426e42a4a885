import AvenOS.Actors.Term
import AvenOS.Foundations.MostGeneralUnifier

/-! # The bindings that `unify` returns

The answer of `unify` is the most general one: it makes the two predicates equal, keeps the bindings there were, and any
substitution that does both goes through it. Asked the other way round, `unify` gives the same answer up to the names of
variables. -/
namespace AvenOS.Actors
open FlatUnification

structure MostGeneral (p q : Predicate) (b b' : FlatUnification.Bindings String) : Prop where
  extending : Extends b b'
  acyclic : Acyclic b'
  /-- Following the bindings ends at what is not bound. -/
  final : ∀ x, next isVariable b' (resolve x b') = none
  equates : (Substitution.ofBindings b').Unifies p q
  factors : ∀ σ : Substitution, σ.Satisfies b → σ.Unifies p q → ∀ x, σ.apply (resolve x b') = σ.apply x

section Unify
variable {p q : Predicate} {b b' : FlatUnification.Bindings String}

theorem unify_mostGeneral (hb : Acyclic b) (h : unify p q b = some b') : MostGeneral p q b b' := by
  obtain ⟨hac, hsat⟩ := unify_some hb h
  have hextends : Extends b b' := by
    unfold unify at h
    dsimp only at h
    split at h
    · cases h
    · exact unifyArgs_extends hb h
  refine ⟨hextends, hac, resolve_final hac, ((hsat _).mp (ofBindings_satisfies hac)).2, fun σ hσ hunifies x => ?_⟩
  exact ((hsat σ).mpr ⟨hσ, hunifies⟩).resolve x

theorem unify_exchanged (hb : Acyclic b) (h : unify p q b = some b') :
    ∃ b'', unify q p b = some b'' ∧ Renamed isVariable b' b'' := by
  unfold unify at h ⊢
  dsimp only at h ⊢
  split at h
  · cases h
  · rename_i hshape
    rw [if_neg fun hs => hshape (hs.imp Ne.symm Ne.symm)]
    exact unifyArgs_exchanged hb hb (renamed_refl b) h

end Unify

end AvenOS.Actors
