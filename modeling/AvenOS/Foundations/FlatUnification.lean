import Mathlib.Data.List.Forall2
import Mathlib.Data.List.Nodup
import Mathlib.Data.List.Perm.Subperm
import Mathlib.Logic.Relation

/-! # Unification of flat argument lists under chained bindings

An argument is a symbol, and a symbol is a variable or a constant. A list of bindings sends
variables to symbols, newest first; `resolve` follows it to the end of the chain. Nothing here
names a syntax: the symbols are any type with decidable equality.

* `Satisfies θ b`: the valuation `θ` makes every binding of `b` an equation.
* `Acyclic b`: no chain of bindings returns to a symbol it left.
* `unifyArgs_some`, `unifyArgs_none`: the valuations of the answer are exactly the valuations of
  the input that agree on both lists, and there is an answer as soon as there is one of those.
-/
namespace AvenOS.FlatUnification

variable {α : Type} [DecidableEq α]

abbrev Bindings (α : Type) := List (α × α)

section Chains
variable (isVar : α → Bool)

/-- The symbol a variable is bound to. -/
def next (b : Bindings α) (x : α) : Option α := if isVar x then b.lookup x else none

/-- Follow the bindings, at most `n` of them and none twice. -/
def walk (b : Bindings α) : ℕ → α → List α → α
  | 0, x, _ => x
  | n + 1, x, seen =>
    match next isVar b x with
    | none => x
    | some y => if x ∈ seen then x else walk b n y (x :: seen)

def resolve (b : Bindings α) (x : α) : α := walk isVar b b.length x []

def Linked (b : Bindings α) (x y : α) : Prop := next isVar b x = some y

abbrev Chain (b : Bindings α) : α → α → Prop := Relation.ReflTransGen (Linked isVar b)

def Acyclic (b : Bindings α) : Prop :=
  ∃ rank : α → ℕ, ∀ x y, next isVar b x = some y → rank y < rank x

theorem acyclic_nil : Acyclic isVar ([] : Bindings α) := by
  refine ⟨fun _ => 0, ?_⟩
  intro x y h
  simp [next] at h

variable {isVar}

variable {b b' : Bindings α} {x y v t l r wild : α} {θ : α → α} {ls rs : List α}

theorem next_const (h : isVar x = false) : next isVar b x = none := by
  simp [next, h]

theorem next_mem (h : next isVar b x = some y) : x ∈ b.map Prod.fst := by
  unfold next at h
  split at h
  · by_contra hx
    have hn : b.lookup x = none := by
      rw [List.lookup_eq_none_iff]
      intro p hp
      have hne : x ≠ p.1 := fun e => hx (List.mem_map.mpr ⟨p, hp, e.symm⟩)
      simpa using hne
    rw [hn] at h
    cases h
  · cases h

theorem next_cons (hv : isVar v = true) : next isVar ((v, t) :: b) x = if x = v then some t else next isVar b x := by
  by_cases hx : x = v
  · subst hx
    simp [next, hv]
  · have hb : (x == v) = false := by simpa using hx
    simp [next, List.lookup_cons, hx, hb]

/-! ## The end of a chain -/

theorem walk_chain (b : Bindings α) (n : ℕ) (x : α) (seen : List α) : Chain isVar b x (walk isVar b n x seen) := by
  induction n generalizing x seen with
  | zero => exact Relation.ReflTransGen.refl
  | succ n ih =>
    unfold walk
    split
    · exact Relation.ReflTransGen.refl
    · rename_i y hy
      split
      · exact Relation.ReflTransGen.refl
      · exact Relation.ReflTransGen.head hy (ih y _)

theorem resolve_chain (b : Bindings α) (x : α) : Chain isVar b x (resolve isVar b x) := walk_chain b _ x []

theorem walk_final {rank : α → ℕ} (hrank : ∀ x y, next isVar b x = some y → rank y < rank x) (n : ℕ) (x : α)
    (seen : List α) (hnodup : seen.Nodup) (hseen : ∀ s ∈ seen, s ∈ b.map Prod.fst ∧ rank x < rank s)
    (hn : b.length ≤ n + seen.length) : next isVar b (walk isVar b n x seen) = none := by
  have hfresh : x ∉ seen := fun hx => Nat.lt_irrefl _ (hseen x hx).2
  induction n generalizing x seen with
  | zero =>
    by_contra hne
    obtain ⟨y, hy⟩ := Option.ne_none_iff_exists'.mp hne
    change next isVar b x = some y at hy
    have hsub : (x :: seen) ⊆ b.map Prod.fst := by
      intro s hs
      rcases List.mem_cons.mp hs with rfl | hs
      · exact next_mem hy
      · exact (hseen s hs).1
    have hle := (List.subperm_of_subset (List.nodup_cons.mpr ⟨hfresh, hnodup⟩) hsub).length_le
    rw [List.length_cons, List.length_map] at hle
    omega
  | succ n ih =>
    unfold walk
    split
    · rename_i hx
      exact hx
    · rename_i y hy
      rw [if_neg hfresh]
      have hlt := hrank x y hy
      have hseen' : ∀ s ∈ x :: seen, s ∈ b.map Prod.fst ∧ rank y < rank s := by
        intro s hs
        rcases List.mem_cons.mp hs with rfl | hs
        · exact ⟨next_mem hy, hlt⟩
        · exact ⟨(hseen s hs).1, Nat.lt_trans hlt (hseen s hs).2⟩
      refine ih y (x :: seen) (List.nodup_cons.mpr ⟨hfresh, hnodup⟩) hseen' ?_ ?_
      · rw [List.length_cons]
        omega
      · exact fun hmem => Nat.lt_irrefl _ (hseen' y hmem).2

theorem resolve_final (hb : Acyclic isVar b) (x : α) : next isVar b (resolve isVar b x) = none := by
  obtain ⟨rank, hrank⟩ := hb
  exact walk_final hrank b.length x [] List.nodup_nil (by simp) (by simp)

theorem resolve_of_final (hx : next isVar b x = none) : resolve isVar b x = x := by
  unfold resolve
  cases b.length with
  | zero => rfl
  | succ n => simp [walk, hx]

theorem resolve_const (h : isVar x = false) : resolve isVar b x = x := resolve_of_final (next_const h)

theorem chain_final_unique {z : α} (hxy : Chain isVar b x y) (hy : next isVar b y = none) (hxz : Chain isVar b x z)
    (hz : next isVar b z = none) : y = z := by
  induction hxy using Relation.ReflTransGen.head_induction_on with
  | refl =>
    rcases Relation.ReflTransGen.cases_head hxz with h | ⟨c, hc, _⟩
    · exact h
    · rw [Linked, hy] at hc
      cases hc
  | @head x c hc _ ih =>
    rcases Relation.ReflTransGen.cases_head hxz with rfl | ⟨d, hd, hdz⟩
    · rw [Linked, hz] at hc
      cases hc
    · rw [Linked] at hc hd
      rw [hc] at hd
      cases hd
      exact ih hdz

theorem resolve_next (hb : Acyclic isVar b) (h : next isVar b x = some y) : resolve isVar b x = resolve isVar b y :=
  chain_final_unique (resolve_chain b x) (resolve_final hb x)
    (Relation.ReflTransGen.head h (resolve_chain b y)) (resolve_final hb y)

/-! ## Valuations -/

/-- A valuation leaves constants alone. -/
def Respects (isVar : α → Bool) (θ : α → α) : Prop := ∀ x, isVar x = false → θ x = x

def Satisfies (isVar : α → Bool) (θ : α → α) (b : Bindings α) : Prop :=
  ∀ x y, next isVar b x = some y → θ x = θ y

theorem satisfies_nil (θ : α → α) : Satisfies isVar θ [] := by
  intro x y h
  simp [next] at h

theorem Satisfies.chain (h : Satisfies isVar θ b) (hxy : Chain isVar b x y) : θ x = θ y := by
  induction hxy with
  | refl => rfl
  | tail _ hyz ih => exact ih.trans (h _ _ hyz)

theorem Satisfies.resolve (h : Satisfies isVar θ b) (x : α) :
    θ (resolve isVar b x) = θ x := (h.chain (resolve_chain b x)).symm

theorem resolve_respects (b : Bindings α) : Respects isVar (resolve isVar b) := fun _ hx => resolve_const hx

theorem resolve_satisfies (hb : Acyclic isVar b) : Satisfies isVar (resolve isVar b) b := fun _ _ h => resolve_next hb h

/-! ## Binding one more variable -/

theorem satisfies_cons (hv : isVar v = true) (hfree : next isVar b v = none) :
    Satisfies isVar θ ((v, t) :: b) ↔ Satisfies isVar θ b ∧ θ v = θ t := by
  constructor
  · intro h
    refine ⟨?_, h v t (by rw [next_cons hv, if_pos rfl])⟩
    intro x y hxy
    have hx : x ≠ v := by
      rintro rfl
      rw [hfree] at hxy
      cases hxy
    exact h x y (by rw [next_cons hv, if_neg hx, hxy])
  · rintro ⟨h, hvt⟩ x y hxy
    rw [next_cons hv] at hxy
    split at hxy
    · rename_i hx
      cases hxy
      rw [hx, hvt]
    · exact h x y hxy

theorem acyclic_cons (hb : Acyclic isVar b) (hv : isVar v = true) (hfree : next isVar b v = none)
    (ht : next isVar b t = none) (hne : t ≠ v) : Acyclic isVar ((v, t) :: b) := by
  have hres : ∀ x y, next isVar b x = some y → resolve isVar b x = resolve isVar b y := fun _ _ => resolve_next hb
  obtain ⟨rank, hrank⟩ := hb
  refine ⟨fun x => if resolve isVar b x = v then rank x + rank t + 1 else rank x, ?_⟩
  intro x y hxy
  rw [next_cons hv] at hxy
  dsimp only
  split at hxy
  · rename_i hx
    cases hxy
    rw [hx, resolve_of_final ht, if_neg hne, resolve_of_final hfree, if_pos rfl]
    omega
  · have hlt := hrank x y hxy
    rw [hres x y hxy]
    split <;> omega

/-! ## Two argument lists -/

/-- Make two symbols equal under the bindings, if that can be done. -/
def unifyStep (isVar : α → Bool) (b : Bindings α) (l r : α) : Option (Bindings α) :=
  let left := resolve isVar b l
  let right := resolve isVar b r
  if left = right then some b
  else if isVar left then some ((left, right) :: b)
  else if isVar right then some ((right, left) :: b)
  else none

theorem unifyStep_some (hb : Acyclic isVar b) (h : unifyStep isVar b l r = some b') :
    Acyclic isVar b' ∧ ∀ θ, Satisfies isVar θ b' ↔ Satisfies isVar θ b ∧ θ l = θ r := by
  have hl := resolve_final hb l
  have hr := resolve_final hb r
  -- a valuation of the old bindings sees the two ends where it sees the two symbols
  have hends : ∀ θ, Satisfies isVar θ b → (θ (resolve isVar b l) = θ (resolve isVar b r) ↔ θ l = θ r) := by
    intro θ hθ
    rw [hθ.resolve, hθ.resolve]
  unfold unifyStep at h
  dsimp only at h
  split at h
  · rename_i heq
    cases h
    refine ⟨hb, fun θ => ⟨fun hθ => ⟨hθ, ?_⟩, And.left⟩⟩
    exact (hends θ hθ).mp (by rw [heq])
  · rename_i hne
    split at h
    · rename_i hv
      cases h
      refine ⟨acyclic_cons hb hv hl hr (Ne.symm hne), fun θ => ?_⟩
      rw [satisfies_cons hv hl]
      exact and_congr_right (hends θ)
    · split at h
      · rename_i hv
        cases h
        refine ⟨acyclic_cons hb hv hr hl hne, fun θ => ?_⟩
        rw [satisfies_cons hv hr]
        exact and_congr_right fun hθ => eq_comm.trans (hends θ hθ)
      · cases h

theorem unifyStep_none (h : unifyStep isVar b l r = none) (hc : Respects isVar θ) (hθ : Satisfies isVar θ b) :
    θ l ≠ θ r := by
  unfold unifyStep at h
  dsimp only at h
  split at h
  · cases h
  · rename_i hne
    split at h
    · cases h
    · rename_i hl
      split at h
      · cases h
      · rename_i hr
        intro heq
        apply hne
        rw [← hθ.resolve l, ← hθ.resolve r, hc _ (by simpa using hl), hc _ (by simpa using hr)] at heq
        exact heq

/-- Position by position; the symbol `wild` stands for anything. -/
def unifyArgs (isVar : α → Bool) (wild : α) : List α → List α → Bindings α → Option (Bindings α)
  | [], [], b => some b
  | l :: ls, r :: rs, b =>
    if l = wild ∨ r = wild then unifyArgs isVar wild ls rs b
    else
      match unifyStep isVar b l r with
      | none => none
      | some b' => unifyArgs isVar wild ls rs b'
  | _, _, _ => none

/-- The two positions are equal under the valuation, or one of them is the wildcard. -/
def Agree (wild : α) (θ : α → α) (l r : α) : Prop := l = wild ∨ r = wild ∨ θ l = θ r

omit [DecidableEq α] in
theorem eq_of_agree (hc : Respects isVar θ) (hw : isVar wild = true) (h : List.Forall₂ (Agree wild θ) ls rs)
    (hl : ∀ a ∈ ls, isVar a = false) (hr : ∀ a ∈ rs, isVar a = false) : ls = rs := by
  have hne : ∀ a, isVar a = false → a ≠ wild := by
    rintro a ha rfl
    rw [hw] at ha
    cases ha
  induction h with
  | nil => rfl
  | @cons l r ls rs hlr _ ih =>
    have hlc := hl l (by simp)
    have hrc := hr r (by simp)
    have hval : θ l = θ r := (hlr.resolve_left (hne l hlc)).resolve_left (hne r hrc)
    rw [hc l hlc, hc r hrc] at hval
    rw [hval, ih (fun a ha => hl a (List.mem_cons_of_mem l ha)) (fun a ha => hr a (List.mem_cons_of_mem r ha))]

theorem unifyArgs_some (hb : Acyclic isVar b) (h : unifyArgs isVar wild ls rs b = some b') : Acyclic isVar b' ∧
      ∀ θ, Satisfies isVar θ b' ↔ Satisfies isVar θ b ∧ List.Forall₂ (Agree wild θ) ls rs := by
  induction ls generalizing rs b with
  | nil =>
    cases rs with
    | nil =>
      cases h
      exact ⟨hb, fun θ => by simp⟩
    | cons r rs => cases h
  | cons l ls ih =>
    cases rs with
    | nil => cases h
    | cons r rs =>
      unfold unifyArgs at h
      split at h
      · rename_i hw
        obtain ⟨hac, hsat⟩ := ih hb h
        refine ⟨hac, fun θ => ?_⟩
        have hag : Agree wild θ l r := hw.elim .inl fun hr => .inr (.inl hr)
        rw [hsat θ, List.forall₂_cons]
        simp [hag]
      · rename_i hw
        rw [not_or] at hw
        split at h
        · cases h
        · rename_i b₁ hstep
          obtain ⟨hb₁, hsat₁⟩ := unifyStep_some hb hstep
          obtain ⟨hac, hsat⟩ := ih hb₁ h
          refine ⟨hac, fun θ => ?_⟩
          have hag : Agree wild θ l r ↔ θ l = θ r := by simp [Agree, hw.1, hw.2]
          rw [hsat θ, hsat₁ θ, List.forall₂_cons, hag, and_assoc]

theorem unifyArgs_none (hb : Acyclic isVar b) (h : unifyArgs isVar wild ls rs b = none) (hc : Respects isVar θ)
    (hθ : Satisfies isVar θ b) : ¬ List.Forall₂ (Agree wild θ) ls rs := by
  induction ls generalizing rs b with
  | nil =>
    cases rs with
    | nil => cases h
    | cons r rs => simp
  | cons l ls ih =>
    cases rs with
    | nil => simp
    | cons r rs =>
      rw [List.forall₂_cons]
      rintro ⟨hag, hrest⟩
      unfold unifyArgs at h
      split at h
      · exact ih hb h hθ hrest
      · rename_i hw
        rw [not_or] at hw
        have hlr : θ l = θ r := by simpa [Agree, hw.1, hw.2] using hag
        split at h
        · rename_i hstep
          exact unifyStep_none hstep hc hθ hlr
        · rename_i b₁ hstep
          obtain ⟨hb₁, hsat₁⟩ := unifyStep_some hb hstep
          exact ih hb₁ h ((hsat₁ θ).mpr ⟨hθ, hlr⟩) hrest

/-! ## Where symbols come from -/

/-- Every symbol a variable is bound to has the property. -/
def Valued (isVar : α → Bool) (P : α → Prop) (b : Bindings α) : Prop :=
  ∀ x y, next isVar b x = some y → P y

variable {P : α → Prop}

theorem valued_nil : Valued isVar P ([] : Bindings α) := by
  intro x y h
  simp [next] at h

theorem Valued.resolve (h : Valued isVar P b) (hx : P x) : P (resolve isVar b x) := by
  rcases (resolve_chain b x).cases_tail with heq | ⟨y, -, hlink⟩
  · rwa [heq]
  · exact h _ _ hlink

theorem Valued.unifyStep (hb : Valued isVar P b) (hl : P l) (hr : P r) (h : unifyStep isVar b l r = some b') :
    Valued isVar P b' := by
  have hcons : ∀ {v t : α}, isVar v = true → P t → Valued isVar P ((v, t) :: b) := by
    intro v t hv ht x y hxy
    rw [next_cons hv] at hxy
    split at hxy
    · cases hxy
      exact ht
    · exact hb x y hxy
  unfold FlatUnification.unifyStep at h
  dsimp only at h
  split at h
  · cases h
    exact hb
  · split at h
    · rename_i hv
      cases h
      exact hcons hv (hb.resolve hr)
    · split at h
      · rename_i hv
        cases h
        exact hcons hv (hb.resolve hl)
      · cases h

theorem Valued.unifyArgs (hb : Valued isVar P b) (hl : ∀ a ∈ ls, P a) (hr : ∀ a ∈ rs, P a)
    (h : unifyArgs isVar wild ls rs b = some b') : Valued isVar P b' := by
  induction ls generalizing rs b with
  | nil =>
    cases rs with
    | nil =>
      cases h
      exact hb
    | cons r rs => cases h
  | cons l ls ih =>
    cases rs with
    | nil => cases h
    | cons r rs =>
      have hl' : ∀ a ∈ ls, P a := fun a ha => hl a (List.mem_cons_of_mem l ha)
      have hr' : ∀ a ∈ rs, P a := fun a ha => hr a (List.mem_cons_of_mem r ha)
      unfold FlatUnification.unifyArgs at h
      split at h
      · exact ih hb hl' hr' h
      · split at h
        · cases h
        · rename_i b₁ hstep
          have hb₁ := hb.unifyStep (hl l List.mem_cons_self) (hr r List.mem_cons_self) hstep
          exact ih hb₁ hl' hr' h

end Chains
end AvenOS.FlatUnification
