import AvenOS.Actors.Term

/-! # The merge law

An actor that composes others has the interface of its members: what they produce, and what they require and do not produce
for each other. The interface of a tree of composites is the one of its leaves, however they are grouped. -/
namespace AvenOS.Actors

structure Interface where
  requires : List Predicate
  produces : List Predicate
deriving DecidableEq, Repr

/-- Values as a `Set` keeps them: each once, where it was first added. -/
def distinct (predicates : List Predicate) : List Predicate := predicates.eraseDups

def compositeInterface (members : List Interface) : Interface :=
  let produced := members.flatMap Interface.produces
  let required := members.flatMap Interface.requires
  { requires := distinct (required.filter fun r => !produced.any fun p => unifiable p r)
    produces := distinct produced }

/-! ## Actors -/

structure MethodContract where
  requires : Option (List Predicate)
  produces : Option (List Predicate)
deriving DecidableEq, Repr

structure Manifest where
  id : String
  requires : Option (List Predicate)
  produces : Option (List Predicate)
  methods : List MethodContract
deriving DecidableEq, Repr

/-- An actor with the contracts that its machine declares, and the actors it composes. -/
inductive Actor
  | mk (uuid : String) (manifest : Manifest) (contracts : Option Interface) (members : List Actor)

namespace Actor

def uuid : Actor → String
  | .mk uuid _ _ _ => uuid

def members : Actor → List Actor
  | .mk _ _ _ members => members

/-- What an actor without members declares. -/
def declared (manifest : Manifest) (contracts : Option Interface) : Interface where
  requires := distinct ((contracts.map Interface.requires).getD (manifest.requires.getD []) ++
    manifest.methods.flatMap fun m => m.requires.getD [])
  produces := distinct ((contracts.map Interface.produces).getD (manifest.produces.getD []) ++
    manifest.methods.flatMap fun m => m.produces.getD [])

mutual

/-- The getters `requires` and `produces`. -/
def interface : Actor → Interface
  | .mk _ manifest contracts [] => declared manifest contracts
  | .mk _ _ _ (first :: rest) => compositeInterface (first.interface :: interfaces rest)

def interfaces : List Actor → List Interface
  | [] => []
  | a :: actors => a.interface :: interfaces actors

end

def requires (a : Actor) : List Predicate := a.interface.requires

def produces (a : Actor) : List Predicate := a.interface.produces

mutual

/-- The actors of a tree that compose no others. -/
def leaves : Actor → List Actor
  | .mk uuid manifest contracts [] => [.mk uuid manifest contracts []]
  | .mk _ _ _ (first :: rest) => first.leaves ++ leavesOf rest

def leavesOf : List Actor → List Actor
  | [] => []
  | a :: actors => a.leaves ++ leavesOf actors

end

end Actor

/-! ## Interfaces of trees -/

variable {p : Predicate} {members : List Interface}

theorem mem_distinct {predicates : List Predicate} : p ∈ distinct predicates ↔ p ∈ predicates := by
  simp [distinct]

theorem mem_composite_produces : p ∈ (compositeInterface members).produces ↔ ∃ m ∈ members, p ∈ m.produces := by
  rw [compositeInterface, mem_distinct, List.mem_flatMap]

theorem mem_composite_requires {r : Predicate} : r ∈ (compositeInterface members).requires ↔
      (∃ m ∈ members, r ∈ m.requires) ∧ ∀ m ∈ members, ∀ p ∈ m.produces, unifiable p r = false := by
  rw [compositeInterface, mem_distinct, List.mem_filter, List.mem_flatMap, Bool.not_eq_true', List.any_eq_false]
  refine and_congr_right fun _ => ?_
  constructor
  · intro h m hm p hp
    exact Bool.eq_false_iff.mpr (h p (List.mem_flatMap.mpr ⟨m, hm, hp⟩))
  · intro h p hp
    obtain ⟨m, hm, hpm⟩ := List.mem_flatMap.mp hp
    exact Bool.eq_false_iff.mp (h m hm p hpm)

namespace Actor

theorem interfaces_eq (actors : List Actor) : interfaces actors = actors.map interface := by
  induction actors with
  | nil => rfl
  | cons a actors ih => rw [interfaces, ih, List.map_cons]

theorem leavesOf_eq (actors : List Actor) : leavesOf actors = actors.flatMap leaves := by
  induction actors with
  | nil => rfl
  | cons a actors ih => rw [leavesOf, ih, List.flatMap_cons]

variable {a : Actor} {r : Predicate}

theorem interface_members (h : a.members ≠ []) : a.interface = compositeInterface (a.members.map interface) := by
  obtain ⟨uuid, manifest, contracts, members⟩ := a
  cases members with
  | nil => exact absurd rfl h
  | cons first rest => rw [interface, interfaces_eq, members, List.map_cons]

theorem leaves_members (h : a.members ≠ []) : a.leaves = a.members.flatMap leaves := by
  obtain ⟨uuid, manifest, contracts, members⟩ := a
  cases members with
  | nil => exact absurd rfl h
  | cons first rest => rw [leaves, leavesOf_eq, members, List.flatMap_cons]

theorem leaves_leaf (h : a.members = []) : a.leaves = [a] := by
  obtain ⟨uuid, manifest, contracts, members⟩ := a
  cases h
  rfl

theorem tree_induction {P : Actor → Prop} (hleaf : ∀ a : Actor, a.members = [] → P a)
    (hcomposite : ∀ a : Actor, a.members ≠ [] → (∀ m ∈ a.members, P m) → P a) : ∀ a, P a := by
  intro a
  induction a using Actor.rec (motive_2 := fun actors => ∀ m ∈ actors, P m) with
  | mk uuid manifest contracts members ih =>
    cases members with
    | nil => exact hleaf _ rfl
    | cons first rest => exact hcomposite _ (List.cons_ne_nil _ _) ih
  | nil =>
    rename_i hm
    cases hm
  | cons a actors ha hactors =>
    rename_i m hm
    rcases List.mem_cons.mp hm with rfl | hm
    · exact ha
    · exact hactors m hm

/-! ## Leaves and the root -/

theorem mem_produces (a : Actor) : ∀ p, p ∈ a.produces ↔ ∃ leaf ∈ a.leaves, p ∈ leaf.produces := by
  induction a using tree_induction with
  | hleaf a h => simp [leaves_leaf h]
  | hcomposite a h ih =>
    intro p
    rw [produces, interface_members h, mem_composite_produces, leaves_members h]
    constructor
    · intro hp
      obtain ⟨m, hm, hpm⟩ := hp
      obtain ⟨m, hmem, rfl⟩ := List.mem_map.mp hm
      obtain ⟨leaf, hleaf, hpl⟩ := (ih m hmem p).mp hpm
      exact ⟨leaf, List.mem_flatMap.mpr ⟨m, hmem, hleaf⟩, hpl⟩
    · intro hp
      obtain ⟨leaf, hleaf, hpl⟩ := hp
      obtain ⟨m, hmem, hlm⟩ := List.mem_flatMap.mp hleaf
      exact ⟨m.interface, List.mem_map_of_mem hmem, (ih m hmem p).mpr ⟨leaf, hlm, hpl⟩⟩

def Unmet (a : Actor) (r : Predicate) : Prop := ∀ leaf ∈ a.leaves, ∀ p ∈ leaf.produces, unifiable p r = false

theorem unmet_produces : Unmet a r ↔ ∀ p ∈ a.produces, unifiable p r = false := by
  constructor
  · intro h p hp
    obtain ⟨leaf, hleaf, hpl⟩ := (mem_produces a p).mp hp
    exact h leaf hleaf p hpl
  · intro h leaf hleaf p hp
    exact h p ((mem_produces a p).mpr ⟨leaf, hleaf, hp⟩)

theorem unmet_members (h : a.members ≠ []) : Unmet a r ↔ ∀ m ∈ a.members, Unmet m r := by
  rw [Unmet, leaves_members h]
  constructor
  · intro hr m hm leaf hleaf
    exact hr leaf (List.mem_flatMap.mpr ⟨m, hm, hleaf⟩)
  · intro hr leaf hleaf
    obtain ⟨m, hm, hlm⟩ := List.mem_flatMap.mp hleaf
    exact hr m hm leaf hlm

theorem mem_requires_members (h : a.members ≠ []) : r ∈ a.requires ↔ (∃ m ∈ a.members, r ∈ m.requires) ∧ Unmet a r := by
  rw [requires, interface_members h, mem_composite_requires, unmet_members h]
  simp only [List.mem_map, exists_exists_and_eq_and, forall_exists_index, and_imp, forall_apply_eq_imp_iff₂]
  refine and_congr_right fun _ => ?_
  exact forall₂_congr fun m _ => unmet_produces.symm

theorem mem_requires_of_unmet (a : Actor) :
    ∀ r, Unmet a r → (r ∈ a.requires ↔ ∃ leaf ∈ a.leaves, r ∈ leaf.requires) := by
  induction a using tree_induction with
  | hleaf a h => simp [leaves_leaf h]
  | hcomposite a h ih =>
    intro r hr
    have hm := (unmet_members h).mp hr
    rw [mem_requires_members h, leaves_members h]
    constructor
    · intro hreq
      obtain ⟨⟨m, hmem, hrm⟩, -⟩ := hreq
      obtain ⟨leaf, hleaf, hrl⟩ := (ih m hmem r (hm m hmem)).mp hrm
      exact ⟨leaf, List.mem_flatMap.mpr ⟨m, hmem, hleaf⟩, hrl⟩
    · intro hreq
      obtain ⟨leaf, hleaf, hrl⟩ := hreq
      obtain ⟨m, hmem, hlm⟩ := List.mem_flatMap.mp hleaf
      exact ⟨⟨m, hmem, (ih m hmem r (hm m hmem)).mpr ⟨leaf, hlm, hrl⟩⟩, hr⟩

theorem mem_requires (h : a.members ≠ []) (r : Predicate) :
    r ∈ a.requires ↔ (∃ leaf ∈ a.leaves, r ∈ leaf.requires) ∧ Unmet a r := by
  constructor
  · intro hreq
    have hr := ((mem_requires_members h).mp hreq).2
    exact ⟨(mem_requires_of_unmet a r hr).mp hreq, hr⟩
  · intro hreq
    exact (mem_requires_of_unmet a r hreq.2).mpr hreq.1

/-- The interface of a tree of composites is the composite interface of its leaves: what a leaf requires and no leaf offers,
and what a leaf offers. Two trees over the same leaves have the same one. -/
theorem interface_independent_of_grouping (root : Actor) (h : root.members ≠ []) :
    (∀ r, r ∈ root.requires ↔ r ∈ (compositeInterface (root.leaves.map interface)).requires) ∧
      (∀ p, p ∈ root.produces ↔ p ∈ (compositeInterface (root.leaves.map interface)).produces) ∧
      (∀ r, r ∈ root.requires ↔ (∃ leaf ∈ root.leaves, r ∈ leaf.requires) ∧
        ∀ leaf ∈ root.leaves, ∀ p ∈ leaf.produces, unifiable p r = false) ∧
      (∀ p, p ∈ root.produces ↔ ∃ leaf ∈ root.leaves, p ∈ leaf.produces) ∧
      ∀ other : Actor, other.members ≠ [] → (∀ leaf, leaf ∈ other.leaves ↔ leaf ∈ root.leaves) →
        (∀ r, r ∈ other.requires ↔ r ∈ root.requires) ∧ (∀ p, p ∈ other.produces ↔ p ∈ root.produces) := by
  refine ⟨fun r => ?_, fun p => ?_, mem_requires h, mem_produces root, fun other hother hsame => ⟨fun r => ?_, fun p => ?_⟩⟩
  · rw [mem_requires h, mem_composite_requires]
    simp [Unmet, requires, produces]
  · rw [mem_produces, mem_composite_produces]
    simp [produces]
  · rw [mem_requires h, mem_requires hother, Unmet, Unmet]
    simp only [hsame]
  · rw [mem_produces, mem_produces]
    simp only [hsame]

/-- Two stages of a pipeline composed before the third joins them: only the mail stays required. -/
def mailPipeline : Actor :=
  let leaf := fun id input output => Actor.mk id ⟨id, some [input], some [output], []⟩ none []
  let reading := Actor.mk "reading" ⟨"reading", none, none, []⟩ none
    [leaf "parser" "mail(M)" "parsed(M)", leaf "classifier" "parsed(M)" "intent(M, Class)"]
  .mk "pipeline" ⟨"pipeline", none, none, []⟩ none [reading, leaf "planner" "intent(M, work)" "plan(M)"]

theorem interface_independent_of_grouping_mail : mailPipeline.requires = ["mail(M)"] ∧
      ∀ r, r ∈ mailPipeline.requires ↔ r ∈ (compositeInterface (mailPipeline.leaves.map interface)).requires :=
  ⟨by decide +kernel, (interface_independent_of_grouping mailPipeline (List.cons_ne_nil _ _)).1⟩

end Actor

end AvenOS.Actors
