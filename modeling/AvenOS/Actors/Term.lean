import AvenOS.Actors.Text
import AvenOS.Foundations.FlatUnification

/-! # Predicates as terms

`parseTerm`, `resolve`, `unify` and `substitute` as the planner and the router run them, on the
text of a predicate, and what they mean for substitutions: `unify` answers exactly when some
substitution makes the two predicates equal, and its answer has exactly those substitutions.
Bindings are finite maps from variable names to arguments. -/
namespace AvenOS.Actors
open Text

/-- A predicate as written in a contract: `mail(M)`, `intent(M, Class)`. -/
abbrev Predicate := String

structure Term where
  functor : String
  args : List String
deriving DecidableEq, Repr

/-- The arguments between the parentheses; nothing there is no argument. -/
def argsOf (inner : List Char) : List String :=
  if inner = [] then [] else (pieces inner).map String.ofList

def parseTerm (predicate : Predicate) : Term :=
  let trimmed := trimChars predicate.toList
  match indexOf '(' trimmed with
  | none => ⟨String.ofList trimmed, []⟩
  | some opening =>
    let functor := trimChars (trimmed.take opening)
    let inner := trimChars (slice trimmed (opening + 1) (lastIndexOf ')' trimmed))
    ⟨String.ofList functor, argsOf inner⟩

def isVariable (arg : String) : Bool :=
  match arg.toList with
  | [] => false
  | c :: _ => ('A' ≤ c && c ≤ 'Z') || c == '_'

/-- A substitution as the code builds it: variable name to variable name or constant. -/
abbrev Bindings := FlatUnification.Bindings String

def resolve (value : String) (bindings : Bindings) : String :=
  FlatUnification.resolve isVariable bindings value

/-- Each anonymous `_` is a fresh wildcard, not one shared variable. -/
def unify (a b : Predicate) (bindings : Bindings) : Option Bindings :=
  let ta := parseTerm a
  let tb := parseTerm b
  if ta.functor ≠ tb.functor ∨ ta.args.length ≠ tb.args.length then none
  else FlatUnification.unifyArgs isVariable "_" ta.args tb.args bindings

def unifiable (a b : Predicate) : Bool := (unify a b []).isSome

/-- `mail(M)` to `mail`. -/
def functor (p : Predicate) : String :=
  match indexOf '(' p.toList with
  | none => trim p
  | some opening => String.ofList (trimChars (p.toList.take opening))

/-- The text of a predicate whose arguments went through `f`. -/
def substituteWith (f : String → String) (predicate : Predicate) : Predicate :=
  let term := parseTerm predicate
  if '(' ∉ predicate.toList then term.functor
  else term.functor ++ "(" ++ ", ".intercalate (term.args.map f) ++ ")"

def substitute (predicate : Predicate) (bindings : Bindings) : Predicate :=
  substituteWith (fun arg => resolve arg bindings) predicate

/-! ## Substitutions -/

/-- What variables stand for; constants stand for themselves. -/
structure Substitution where
  apply : String → String
  const : ∀ a, isVariable a = false → apply a = a

namespace Substitution

def identity : Substitution := ⟨id, fun _ _ => rfl⟩

def ofBindings (bindings : Bindings) : Substitution :=
  ⟨fun a => resolve a bindings, FlatUnification.resolve_respects bindings⟩

def instantiate (σ : Substitution) (p : Predicate) : Predicate := substituteWith σ.apply p

/-- The substitution makes the two predicates equal, a wildcard being equal to anything. -/
def Unifies (σ : Substitution) (p q : Predicate) : Prop :=
  (parseTerm p).functor = (parseTerm q).functor ∧
    List.Forall₂ (FlatUnification.Agree "_" σ.apply) (parseTerm p).args (parseTerm q).args

def Satisfies (σ : Substitution) (bindings : Bindings) : Prop :=
  FlatUnification.Satisfies isVariable σ.apply bindings

/-- Position by position, under one substitution. -/
def UnifiesAll (σ : Substitution) (ps qs : List Predicate) : Prop := List.Forall₂ σ.Unifies ps qs

theorem instantiate_ofBindings (b : Bindings) (p : Predicate) : (ofBindings b).instantiate p = substitute p b := rfl

theorem satisfies_nil (σ : Substitution) : σ.Satisfies [] := FlatUnification.satisfies_nil σ.apply

theorem unifies_self (σ : Substitution) (p : Predicate) : σ.Unifies p p := by
  refine ⟨rfl, ?_⟩
  exact List.forall₂_same.mpr fun _ _ => .inr (.inr rfl)

end Substitution

abbrev Acyclic (bindings : Bindings) : Prop := FlatUnification.Acyclic isVariable bindings

theorem acyclic_nil : Acyclic [] := FlatUnification.acyclic_nil isVariable

theorem ofBindings_satisfies {b : Bindings} (hb : Acyclic b) :
    (Substitution.ofBindings b).Satisfies b := FlatUnification.resolve_satisfies hb

theorem unify_some {p q : Predicate} {b b' : Bindings} (hb : Acyclic b) (h : unify p q b = some b') :
    Acyclic b' ∧ ∀ σ : Substitution, σ.Satisfies b' ↔ σ.Satisfies b ∧ σ.Unifies p q := by
  unfold unify at h
  dsimp only at h
  split at h
  · cases h
  · rename_i hshape
    simp only [not_or, not_not] at hshape
    obtain ⟨hac, hsat⟩ := FlatUnification.unifyArgs_some hb h
    refine ⟨hac, fun σ => ?_⟩
    have := hsat σ.apply
    simpa [Substitution.Satisfies, Substitution.Unifies, hshape.1] using this

theorem unify_complete {p q : Predicate} {b : Bindings} (hb : Acyclic b) {σ : Substitution}
    (hσ : σ.Satisfies b) (hpq : σ.Unifies p q) : ∃ b', unify p q b = some b' := by
  unfold unify
  dsimp only
  have hshape : ¬ ((parseTerm p).functor ≠ (parseTerm q).functor ∨
      (parseTerm p).args.length ≠ (parseTerm q).args.length) := by
    simp [hpq.1, hpq.2.length_eq]
  rw [if_neg hshape]
  cases h : FlatUnification.unifyArgs isVariable "_" (parseTerm p).args (parseTerm q).args b with
  | some b' => exact ⟨b', rfl⟩
  | none => exact absurd hpq.2 (FlatUnification.unifyArgs_none hb h σ.const hσ)

theorem unifiable_iff {p q : Predicate} : unifiable p q = true ↔ ∃ σ : Substitution, σ.Unifies p q := by
  constructor
  · intro h
    obtain ⟨b, hb⟩ := Option.isSome_iff_exists.mp h
    obtain ⟨hac, hsat⟩ := unify_some acyclic_nil hb
    exact ⟨_, ((hsat _).mp (ofBindings_satisfies hac)).2⟩
  · rintro ⟨σ, hσ⟩
    obtain ⟨b, hb⟩ := unify_complete acyclic_nil σ.satisfies_nil hσ
    exact Option.isSome_iff_exists.mpr ⟨b, hb⟩

theorem unifiable_self (p : Predicate) : unifiable p p = true :=
  unifiable_iff.2 ⟨.identity, Substitution.unifies_self _ p⟩

/-! ## Predicates without variables -/

def Ground (p : Predicate) : Prop := ∀ a ∈ (parseTerm p).args, isVariable a = false

instance (p : Predicate) : Decidable (Ground p) := by unfold Ground; infer_instance

theorem wild_isVariable : isVariable "_" = true := by decide

theorem Substitution.Unifies.parseTerm_eq {σ : Substitution} {p q : Predicate} (h : σ.Unifies p q)
    (hp : Ground p) (hq : Ground q) : parseTerm p = parseTerm q := by
  obtain ⟨hf, hargs⟩ := h
  have heq : (parseTerm p).args = (parseTerm q).args := FlatUnification.eq_of_agree σ.const wild_isVariable hargs hp hq
  calc
    parseTerm p = ⟨(parseTerm p).functor, (parseTerm p).args⟩ := rfl
    _ = ⟨(parseTerm q).functor, (parseTerm q).args⟩ := by rw [hf, heq]
    _ = parseTerm q := rfl

/-! ## Reading a substituted predicate back -/

theorem parseTerm_functor_trimmed (p : Predicate) :
    trimChars (parseTerm p).functor.toList = (parseTerm p).functor.toList := by
  unfold parseTerm
  dsimp only
  split <;> simp [trimChars_trimChars]

theorem parseTerm_functor_no_paren (p : Predicate) : '(' ∉ (parseTerm p).functor.toList := by
  unfold parseTerm
  dsimp only
  split
  · rename_i h
    simpa using indexOf_none.1 h
  · rename_i i h
    rw [String.toList_ofList]
    exact fun hm => indexOf_some_take h (mem_of_mem_trimChars hm)

theorem argsOf_clean (inner : List Char) : ∀ a ∈ argsOf inner, Clean a.toList := by
  unfold argsOf
  split
  · simp
  · intro a ha
    obtain ⟨cs, hcs, rfl⟩ := List.mem_map.mp ha
    rw [String.toList_ofList]
    exact pieces_clean inner cs hcs

theorem parseTerm_args_clean (p : Predicate) : ∀ a ∈ (parseTerm p).args, Clean a.toList := by
  intro a ha
  unfold parseTerm at ha
  dsimp only at ha
  split at ha
  · simp at ha
  · dsimp only at ha
    exact argsOf_clean _ a ha

theorem parseTerm_functor_chars (p : Predicate) : ∀ c ∈ (parseTerm p).functor.toList, c ∈ p.toList := by
  intro c hc
  unfold parseTerm at hc
  dsimp only at hc
  split at hc
  · rw [String.toList_ofList] at hc
    exact mem_of_mem_trimChars hc
  · rw [String.toList_ofList] at hc
    exact mem_of_mem_trimChars (List.mem_of_mem_take (mem_of_mem_trimChars hc))

theorem parseTerm_args_chars (p : Predicate) : ∀ a ∈ (parseTerm p).args, ∀ c ∈ a.toList, c ∈ p.toList := by
  intro a ha c hc
  unfold parseTerm at ha
  dsimp only at ha
  split at ha
  · cases ha
  · dsimp only at ha
    unfold argsOf at ha
    split at ha
    · cases ha
    · obtain ⟨cs, hcs, rfl⟩ := List.mem_map.mp ha
      rw [String.toList_ofList] at hc
      have hinner := mem_of_mem_trimChars (mem_of_mem_pieces hcs hc)
      exact mem_of_mem_trimChars (mem_of_mem_slice hinner)

theorem parseTerm_no_paren {p : Predicate} (h : '(' ∉ p.toList) : parseTerm p = ⟨trim p, []⟩ := by
  have hn : indexOf '(' (trimChars p.toList) = none := indexOf_none.2 fun hm => h (mem_of_mem_trimChars hm)
  simp only [parseTerm, hn, trim]

theorem trimChars_render {f : List Char} (hf : trimChars f = f) (body : List Char) :
    trimChars (f ++ '(' :: (body ++ [')'])) = f ++ '(' :: (body ++ [')']) := by
  cases f with
  | nil => exact trimChars_of_ends _ (by decide) (by decide)
  | cons c f =>
    have h := trimChars_of_ends (f ++ '(' :: body) (head_of_trimmed hf) (d := ')') (by decide)
    simpa using h

theorem parseTerm_functor_render {f : List Char} (hf : trimChars f = f) (hno : '(' ∉ f) (body : List Char) :
    (parseTerm (String.ofList (f ++ '(' :: (body ++ [')'])))).functor = String.ofList f := by
  unfold parseTerm
  rw [String.toList_ofList]
  simp only [trimChars_render hf, indexOf_append_cons _ hno, List.take_left, hf]

theorem parseTerm_render {f : List Char} (hf : trimChars f = f) (hno : '(' ∉ f)
    {args : List (List Char)} (hargs : ∀ a ∈ args, Clean a) :
    parseTerm (String.ofList (f ++ '(' :: ([',', ' '].intercalate args ++ [')']))) =
      ⟨String.ofList f, (if args = [[]] then [] else args).map String.ofList⟩ := by
  set body := [',', ' '].intercalate args with hbody
  have htrim := trimChars_render hf body
  have hslice : slice (f ++ '(' :: (body ++ [')'])) (f.length + 1)
      (lastIndexOf ')' (f ++ '(' :: (body ++ [')']))) = body := by
    have hlast := lastIndexOf_append (f ++ ['('] ++ body) ')'
    have hmid := slice_middle (f ++ ['(']) body [')']
    simp only [List.append_assoc, List.cons_append, List.nil_append] at hlast hmid
    rw [hlast]
    simpa using hmid
  have hpieces : args ≠ [] → pieces (trimChars body) = args := by
    intro hne
    rw [pieces_trimChars, hbody, pieces_join hne hargs]
  have hargs' : argsOf (trimChars body) = (if args = [[]] then [] else args).map String.ofList := by
    unfold argsOf
    by_cases hnil : args = []
    · have hb : body = [] := by rw [hbody, hnil]; rfl
      simp [hb, hnil, trimChars]
    · by_cases hb : trimChars body = []
      · have hone := hpieces hnil
        rw [hb] at hone
        have hsingle : args = [[]] := by rw [← hone]; rfl
        simp [hb, hsingle]
      · have hne : args ≠ [[]] := by
          intro h
          apply hb
          rw [hbody, h]
          rfl
        rw [if_neg hb, if_neg hne, hpieces hnil]
  unfold parseTerm
  rw [String.toList_ofList]
  simp only [htrim, indexOf_append_cons _ hno, List.take_left, hf, hslice, hargs']

theorem parseTerm_functor_substituteWith (f : String → String) (p : Predicate) :
    (parseTerm (substituteWith f p)).functor = (parseTerm p).functor := by
  have htrimmed := parseTerm_functor_trimmed p
  have hno := parseTerm_functor_no_paren p
  unfold substituteWith
  dsimp only
  split
  · rw [parseTerm_no_paren hno]
    simp only [trim, htrimmed, String.ofList_toList]
  · have htext : (parseTerm p).functor ++ "(" ++ ", ".intercalate ((parseTerm p).args.map f) ++ ")" =
        String.ofList ((parseTerm p).functor.toList ++
          '(' :: ((", ".intercalate ((parseTerm p).args.map f)).toList ++ [')'])) := by
      rw [← String.toList_inj]
      simp [String.toList_append]
    rw [htext, parseTerm_functor_render htrimmed hno, String.ofList_toList]

theorem parseTerm_substituteWith_args {f : String → String} {p : Predicate}
    (hclean : ∀ x ∈ (parseTerm p).args, Clean (f x).toList) :
    ∀ a ∈ (parseTerm (substituteWith f p)).args, ∃ x ∈ (parseTerm p).args, f x = a := by
  unfold substituteWith
  dsimp only
  split
  · intro a ha
    rw [parseTerm_no_paren (parseTerm_functor_no_paren p)] at ha
    cases ha
  · have htext : (parseTerm p).functor ++ "(" ++ ", ".intercalate ((parseTerm p).args.map f) ++ ")" =
        String.ofList ((parseTerm p).functor.toList ++ '(' ::
          ([',', ' '].intercalate ((parseTerm p).args.map fun x => (f x).toList) ++ [')'])) := by
      rw [← String.toList_inj]
      simp [String.toList_append, String.toList_intercalate, List.map_map, Function.comp_def]
    rw [htext, parseTerm_render (parseTerm_functor_trimmed p) (parseTerm_functor_no_paren p)]
    · intro a ha
      have ha' : a ∈ ((parseTerm p).args.map fun x => (f x).toList).map String.ofList := by
        dsimp only at ha
        split at ha
        · simp at ha
        · exact ha
      simpa using ha'
    · intro cs hcs
      obtain ⟨x, hx, rfl⟩ := List.mem_map.mp hcs
      exact hclean x hx

end AvenOS.Actors
