import AvenOS.Actors.ObservationSolver
import Mathlib.Data.List.ReduceOption

/-! # What stands in the ready frontier

An invocation is ready at a list of facts when its inputs are facts that one run of `unify` takes for the
requirements, and each member of each sealed collection has exactly one fact. The frontier holds exactly these. -/
namespace AvenOS.Actors
open ExceptLoop

variable {V : Type}

/-! ## Facts and the values planned over -/

def hits (facts : List (SolverFact V)) (query : Predicate) : List (SolverFact V) :=
  facts.filter fun fact => unifiable query fact.predicate

variable {facts : List (SolverFact V)} {fact : SolverFact V}

theorem mem_hits {query : Predicate} :
    fact ∈ hits facts query ↔ fact ∈ facts ∧ unifiable query fact.predicate = true := by
  unfold hits
  exact List.mem_filter

abbrev Distinct (facts : List (SolverFact V)) : Prop := (facts.map SolverFact.id).Nodup

theorem Distinct.eq_of_id (h : Distinct facts) {a b : SolverFact V} (ha : a ∈ facts) (hb : b ∈ facts)
    (hid : a.id = b.id) : a = b :=
  List.inj_on_of_nodup_map h ha hb hid

theorem factOf_planValue (h : Distinct facts) (hmem : fact ∈ facts) : factOf facts fact.planValue = some fact := by
  have hfind : (facts.find? fun other => other.id == fact.id) = some fact := by
    cases hf : facts.find? fun other => other.id == fact.id with
    | none =>
      have hall := List.find?_eq_none.mp hf fact hmem
      simp at hall
    | some other =>
      have hid : other.id = fact.id := by simpa using List.find?_some hf
      rw [h.eq_of_id (List.mem_of_find?_eq_some hf) hmem hid]
  exact hfind

theorem factsOf_planValues (h : Distinct facts) {bindings : Bindings} {inputs : List (SolverFact V)}
    (hmem : ∀ fact ∈ inputs, fact ∈ facts) : factsOf facts ⟨bindings, inputs.map SolverFact.planValue⟩ = inputs := by
  unfold factsOf
  dsimp only
  induction inputs with
  | nil => rfl
  | cons fact inputs ih =>
    rw [List.map_cons, List.filterMap_cons_some (factOf_planValue h (hmem fact List.mem_cons_self)),
      ih fun other hother => hmem other (List.mem_cons_of_mem _ hother)]

theorem planValues_of_mem {values : List PlanValue} (h : ∀ value ∈ values, value ∈ facts.map SolverFact.planValue) :
    ∃ inputs : List (SolverFact V), values = inputs.map SolverFact.planValue ∧ ∀ fact ∈ inputs, fact ∈ facts := by
  induction values with
  | nil => exact ⟨[], rfl, fun _ hmem => absurd hmem List.not_mem_nil⟩
  | cons value values ih =>
    obtain ⟨inputs, rfl, hinputs⟩ := ih fun other hother => h other (List.mem_cons_of_mem _ hother)
    obtain ⟨fact, hfact, rfl⟩ := List.mem_map.mp (h value List.mem_cons_self)
    refine ⟨fact :: inputs, rfl, fun other hother => ?_⟩
    rcases List.mem_cons.mp hother with rfl | hmem
    · exact hfact
    · exact hinputs other hmem

theorem map_predicate_planValue (facts : List (SolverFact V)) :
    (facts.map SolverFact.planValue).map PlanValue.predicate = facts.map SolverFact.predicate := by
  rw [List.map_map]
  rfl

theorem mem_matchFacts {requirements : List Predicate} {m : RequirementMatch} :
    m ∈ matchRequirements requirements (facts.map SolverFact.planValue) ↔
      ∃ inputs : List (SolverFact V), m.inputs = inputs.map SolverFact.planValue ∧ (∀ fact ∈ inputs, fact ∈ facts) ∧
        unifyAll requirements (inputs.map SolverFact.predicate) [] = some m.bindings := by
  rw [mem_matchRequirements]
  constructor
  · intro ⟨hmem, hall⟩
    obtain ⟨inputs, hinputs, hfacts⟩ := planValues_of_mem hmem
    refine ⟨inputs, hinputs, hfacts, ?_⟩
    rw [hinputs, map_predicate_planValue] at hall
    exact hall
  · intro ⟨inputs, hinputs, hfacts, hall⟩
    rw [hinputs, map_predicate_planValue]
    refine ⟨fun value hvalue => ?_, hall⟩
    obtain ⟨fact, hfact, rfl⟩ := List.mem_map.mp hvalue
    exact List.mem_map_of_mem (hfacts fact hfact)

/-! ## The fact of a member -/

theorem enumerate_single (query : Predicate) (values : List PlanValue) : enumerate [(query, values)] [] [] =
      values.filterMap fun value => (unify query value.predicate []).map fun b => ⟨b, [value]⟩ := by
  induction values with
  | nil => rfl
  | cons value values ih =>
    unfold enumerate at ih ⊢
    rw [List.flatMap_cons, ih]
    cases hu : unify query value.predicate [] with
    | none => rw [List.filterMap_cons_none (by rw [hu]; rfl)]; rfl
    | some b => rw [List.filterMap_cons_some (b := ⟨b, [value]⟩) (by rw [hu]; rfl)]; rfl

theorem filterMap_candidates (query : Predicate) (values : List PlanValue) :
    ((candidates query values).filterMap fun value => (unify query value.predicate []).map fun b =>
        (⟨b, [value]⟩ : RequirementMatch)) =
      values.filterMap fun value => (unify query value.predicate []).map fun b => ⟨b, [value]⟩ := by
  induction values with
  | nil => rfl
  | cons value values ih =>
    by_cases hc : value ∈ candidates query [value]
    · have hsplit : candidates query (value :: values) = value :: candidates query values := by
        unfold candidates at hc ⊢
        exact List.filter_cons_of_pos (List.mem_filter.mp hc).2
      rw [hsplit, List.filterMap_cons, List.filterMap_cons, ih]
    · have hsplit : candidates query (value :: values) = candidates query values := by
        unfold candidates at hc ⊢
        refine List.filter_cons_of_neg fun htrue => hc ?_
        exact List.mem_filter.mpr ⟨List.mem_cons_self, htrue⟩
      have hnone : unify query value.predicate [] = none := by
        cases hu : unify query value.predicate [] with
        | none => rfl
        | some b => exact absurd (unify_some_mem_candidates List.mem_cons_self hu) hc
      rw [hsplit, ih, List.filterMap_cons_none (by rw [hnone]; rfl)]

theorem matchRequirements_single (query : Predicate) (facts : List (SolverFact V)) :
    matchRequirements [query] (facts.map SolverFact.planValue) =
      (hits facts query).filterMap fun fact => (unify query fact.predicate []).map fun b => ⟨b, [fact.planValue]⟩ := by
  rw [matchRequirements_eq_enumerate]
  show enumerate [(query, candidates query (facts.map SolverFact.planValue))] [] [] = _
  rw [enumerate_single, filterMap_candidates]
  induction facts with
  | nil => rfl
  | cons fact facts ih =>
    unfold hits unifiable at ih ⊢
    rw [List.map_cons]
    cases hu : unify query fact.predicate [] with
    | none =>
      rw [List.filterMap_cons_none (by show (unify query fact.predicate []).map _ = none; rw [hu]; rfl), ih,
        List.filter_cons_of_neg (by rw [hu]; exact Bool.false_ne_true)]
    | some b =>
      rw [List.filterMap_cons_some (b := ⟨b, [fact.planValue]⟩)
          (by show (unify query fact.predicate []).map _ = _; rw [hu]; rfl), ih,
        List.filter_cons_of_pos (by rw [hu]; rfl), List.filterMap_cons_some (b := ⟨b, [fact.planValue]⟩)
          (by rw [hu]; rfl)]

theorem gatherMember_eq (h : Distinct facts) (operation : SolverOperation) (gather : SolverGather)
    (bindings : Bindings) (member : String) : gatherMember facts operation gather bindings member =
      match hits facts (memberQuery gather bindings member) with
      | [] => .ok none
      | [fact] => .ok (some fact)
      | _ => .error (.ambiguousCollectionMember operation.id gather.name member) := by
  have hall : ∀ fact ∈ hits facts (memberQuery gather bindings member),
      ∃ b, unify (memberQuery gather bindings member) fact.predicate [] = some b := by
    intro fact hfact
    exact Option.isSome_iff_exists.mp (mem_hits.1 hfact).2
  have hmem : ∀ fact ∈ hits facts (memberQuery gather bindings member), fact ∈ facts := fun fact hfact =>
    (mem_hits.1 hfact).1
  unfold gatherMember
  rw [matchRequirements_single]
  match hits facts (memberQuery gather bindings member), hall, hmem with
  | [], _, _ => rfl
  | [fact], hall, hmem =>
    obtain ⟨b, hb⟩ := hall fact List.mem_cons_self
    rw [List.filterMap_cons_some (b := ⟨b, [fact.planValue]⟩) (by rw [hb]; rfl)]
    have hfacts : factsOf facts ⟨b, [fact].map SolverFact.planValue⟩ = [fact] :=
      factsOf_planValues h fun other hother => hmem other hother
    show Except.ok (factsOf facts ⟨b, [fact].map SolverFact.planValue⟩).head? = _
    rw [hfacts]
    rfl
  | one :: two :: rest, hall, _ =>
    obtain ⟨b, hb⟩ := hall one List.mem_cons_self
    obtain ⟨b', hb'⟩ := hall two (List.mem_cons_of_mem _ List.mem_cons_self)
    rw [List.filterMap_cons_some (b := ⟨b, [one.planValue]⟩) (by rw [hb]; rfl),
      List.filterMap_cons_some (b := ⟨b', [two.planValue]⟩) (by rw [hb']; rfl)]

/-! ## Collections -/

section Gathers
variable [FactValue V]

abbrev MembersAnswered (facts : List (SolverFact V)) (gather : SolverGather) (bindings : Bindings)
    (members : List String) (gathered : List (SolverFact V)) : Prop :=
  List.Forall₂ (fun member fact => hits facts (memberQuery gather bindings member) = [fact]) members gathered

variable {facts inputs : List (SolverFact V)} {operation : SolverOperation} {gather : SolverGather}
  {bindings : Bindings} {members : List String} {platform : SolverPlatform} {runId : String}
  {invocation : SolverInvocation V}

omit [FactValue V] in
theorem gatherMembers_ok (h : Distinct facts) {gathered : List (SolverFact V)} :
    gatherMembers facts operation gather bindings members = .ok (some gathered) ↔
      MembersAnswered facts gather bindings members gathered := by
  induction members generalizing gathered with
  | nil =>
    constructor
    · intro hok
      cases hok
      exact .nil
    · intro hall
      cases hall
      rfl
  | cons member members ih =>
    unfold gatherMembers
    rw [gatherMember_eq h]
    match hhits : hits facts (memberQuery gather bindings member) with
    | [] =>
      constructor
      · intro hok
        cases hok
      · intro hall
        cases hall with
        | cons hone _ => rw [hhits] at hone; cases hone
    | [fact] =>
      dsimp only
      constructor
      · intro hok
        obtain ⟨answer, hrest, hanswer⟩ := map_eq_ok hok
        obtain ⟨rest, rfl, rfl⟩ := Option.map_eq_some_iff.mp hanswer
        exact .cons hhits (ih.mp hrest)
      · intro hall
        cases hall with
        | cons hone hrest =>
          rw [hhits] at hone
          cases hone
          rw [ih.mpr hrest]
          rfl
    | one :: two :: more =>
      constructor
      · intro hok
        cases hok
      · intro hall
        cases hall with
        | cons hone _ => rw [hhits] at hone; cases hone

omit [FactValue V] in
def Gathered (facts : List (SolverFact V)) (operation : SolverOperation) (bindings : Bindings)
    (inputs : List (SolverFact V)) (gather : SolverGather) (entry : String × List (SolverFact V)) : Prop :=
  entry.1 = gather.name ∧ ∃ members, sealedMembers operation gather inputs = .ok members ∧
    MembersAnswered facts gather bindings members entry.2

theorem gatherAll_cons (hseal : sealedMembers operation gather inputs = .ok members) (gathers : List SolverGather) :
    gatherAll facts operation bindings inputs (gather :: gathers) =
      match gatherMembers facts operation gather bindings members with
      | .error e => .error e
      | .ok none => .ok none
      | .ok (some gathered) =>
        (gatherAll facts operation bindings inputs gathers).map (Option.map ((gather.name, gathered) :: ·)) := by
  conv_lhs => unfold gatherAll
  rw [hseal]
  rfl

theorem gatherAll_ok (h : Distinct facts) {gathers : List SolverGather}
    {entries : List (String × List (SolverFact V))} :
    gatherAll facts operation bindings inputs gathers = .ok (some entries) ↔
      List.Forall₂ (Gathered facts operation bindings inputs) gathers entries := by
  induction gathers generalizing entries with
  | nil =>
    constructor
    · intro hok
      cases hok
      exact .nil
    · intro hall
      cases hall
      rfl
  | cons gather gathers ih =>
    constructor
    · intro hok
      cases hseal : sealedMembers operation gather inputs with
      | error e =>
        unfold gatherAll at hok
        rw [hseal] at hok
        cases hok
      | ok members =>
        rw [gatherAll_cons hseal] at hok
        match hanswer : gatherMembers facts operation gather bindings members with
        | .error e =>
          rw [hanswer] at hok
          cases hok
        | .ok none =>
          rw [hanswer] at hok
          cases hok
        | .ok (some gathered) =>
          rw [hanswer] at hok
          obtain ⟨answer, hrest, hall⟩ := map_eq_ok hok
          obtain ⟨rest, rfl, rfl⟩ := Option.map_eq_some_iff.mp hall
          exact .cons ⟨rfl, members, hseal, (gatherMembers_ok h).mp hanswer⟩ (ih.mp hrest)
    · intro hall
      cases hall with
      | @cons _ entry _ rest hone hrest =>
        obtain ⟨name, gathered⟩ := entry
        obtain ⟨hname, members, hseal, hmembers⟩ := hone
        dsimp only at hname hmembers
        subst hname
        rw [gatherAll_cons hseal, (gatherMembers_ok h).mpr hmembers, ih.mpr hrest]
        rfl

/-! ## Ready invocations -/

structure ReadyAt (platform : SolverPlatform) (runId : String) (facts : List (SolverFact V))
    (operation : SolverOperation) (invocation : SolverInvocation V) : Prop where
  operation_eq : invocation.operation = operation.id
  inputs_mem : ∀ fact ∈ invocation.inputs, fact ∈ facts
  unified : unifyAll operation.requires (invocation.inputs.map SolverFact.predicate) [] = some invocation.bindings
  gathered : List.Forall₂ (Gathered facts operation invocation.bindings invocation.inputs)
    (operation.gathers.getD []) invocation.gathers
  id_eq : invocation.id =
    platform.solverIdentity (invocationSeed runId operation invocation.inputs invocation.gathers)

theorem readyInvocation_ok (h : Distinct facts) :
    (∃ m ∈ matchRequirements operation.requires (facts.map SolverFact.planValue),
        readyInvocation platform runId facts operation m = .ok (some invocation)) ↔
      ReadyAt platform runId facts operation invocation := by
  constructor
  · intro ⟨m, hm, hready⟩
    obtain ⟨inputs, hinputs, hmem, hunify⟩ := mem_matchFacts.1 hm
    obtain ⟨answer, hall, hanswer⟩ := map_eq_ok hready
    obtain ⟨gathers, rfl, rfl⟩ := Option.map_eq_some_iff.mp hanswer
    obtain ⟨bindings, values⟩ := m
    dsimp only at hinputs hunify hall ⊢
    subst hinputs
    rw [factsOf_planValues h hmem] at hall ⊢
    exact ⟨rfl, hmem, hunify, (gatherAll_ok h).mp hall, rfl⟩
  · intro hready
    refine ⟨⟨invocation.bindings, invocation.inputs.map SolverFact.planValue⟩,
      mem_matchFacts.2 ⟨invocation.inputs, rfl, hready.inputs_mem, hready.unified⟩, ?_⟩
    unfold readyInvocation
    rw [factsOf_planValues h hready.inputs_mem, (gatherAll_ok h).mpr hready.gathered]
    obtain ⟨id, name, bindings, inputs, gathers⟩ := invocation
    have hname := hready.operation_eq
    have hid := hready.id_eq
    dsimp only at hname hid
    subst hname hid
    rfl

theorem mem_frontier {operations : List SolverOperation} {limit : Limit} {frontier : List (SolverInvocation V)}
    (h : solveObservedFrontier platform runId operations facts limit = .ok frontier) :
    invocation ∈ frontier ↔ ∃ operation ∈ operations, operation.available ≠ some false ∧
      ReadyAt platform runId facts operation invocation := by
  unfold solveObservedFrontier at h
  split at h
  · cases h
  · rename_i hids
    have hdistinct : Distinct facts := not_not.mp hids
    obtain ⟨parts, hparts, rfl⟩ := map_eq_ok h
    have hpart : ∀ operation part, operationFrontier platform runId facts limit operation = .ok part →
        (invocation ∈ part ↔ operation.available ≠ some false ∧ ReadyAt platform runId facts operation invocation) := by
      intro operation part hpart
      unfold operationFrontier at hpart
      split at hpart
      · rename_i hoff
        cases hpart
        simp [hoff]
      · rename_i hon
        split at hpart
        · cases hpart
        · rename_i found hfound
          rw [matchRequirementsWith_attempts hfound] at hpart
          split at hpart
          · cases hpart
          · rename_i ready hready
            cases hpart
            rw [← readyInvocation_ok hdistinct, List.reduceOption_mem_iff]
            constructor
            · intro hentry
              obtain ⟨m, hm, hok⟩ := mem_mapM_ok hready hentry
              exact ⟨hon, m, hm, hok⟩
            · intro ⟨_, m, hm, hok⟩
              obtain ⟨entry, hentry, hentryOk⟩ := mapM_ok_mem hready hm
              rw [hok] at hentryOk
              cases hentryOk
              exact hentry
    rw [List.mem_flatten]
    constructor
    · intro ⟨part, hmem, hin⟩
      obtain ⟨operation, hop, hok⟩ := mem_mapM_ok hparts hmem
      exact ⟨operation, hop, (hpart operation part hok).mp hin⟩
    · intro ⟨operation, hop, hready⟩
      obtain ⟨part, hmem, hok⟩ := mapM_ok_mem hparts hop
      exact ⟨part, hmem, (hpart operation part hok).mpr hready⟩

end Gathers

end AvenOS.Actors
