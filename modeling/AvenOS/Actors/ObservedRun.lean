import AvenOS.Actors.ObservedFrontier

/-! # Runs of the observation solver

`Running` are the states at the head of the loop of `executeObservedProgram`, whatever its port answers. In each
of them the facts are the ingredients and the facts of the accepted receipts, and what the run hands to its port
or ends with tells the truth about them. -/
namespace AvenOS.Actors
open ExceptLoop StableSort

variable {V : Type} [FactValue V] [DecidableEq V]

/-! ## Admission -/

/-- What may enter the map of facts. -/
structure Admissible (fact : SolverFact V) : Prop where
  supported : supportedPredicate fact.predicate = true
  named : fact.id ≠ ""
  ground : Ground fact.predicate
  portable : ∃ u, FactValue.portable fact.value = .ok u

variable {facts facts' : List (SolverFact V)}

omit [FactValue V] [DecidableEq V] in
theorem find_id_none {id : String} (h : (facts.find? fun other => other.id == id) = none) :
    id ∉ facts.map SolverFact.id := by
  intro hmem
  obtain ⟨other, hother, rfl⟩ := List.mem_map.mp hmem
  have hno := List.find?_eq_none.mp h other hother
  simp at hno

theorem admitFact_ok {fact : SolverFact V} (h : admitFact facts fact = .ok facts') :
    Admissible fact ∧ ((facts' = facts ∧ fact ∈ facts) ∨
      (facts' = facts ++ [fact] ∧ fact.id ∉ facts.map SolverFact.id)) := by
  unfold admitFact at h
  split at h
  · cases h
  · rename_i hsupported
    split at h
    · cases h
    · rename_i hnamed
      simp only [not_or] at hnamed
      have hground : Ground fact.predicate := by
        intro arg harg
        have hno := hnamed.2
        rw [List.any_eq_true, not_exists] at hno
        have harg' := hno arg
        cases hvar : isVariable arg with
        | false => rfl
        | true => exact absurd ⟨harg, hvar⟩ harg'
      split at h
      · cases h
      · rename_i u hportable
        have hadm : Admissible fact := ⟨not_not.mp hsupported, hnamed.1, hground, u, hportable⟩
        split at h
        · rename_i hnone
          cases h
          exact ⟨hadm, .inr ⟨rfl, find_id_none hnone⟩⟩
        · rename_i existing hfind
          split at h
          · rename_i heq
            cases h
            subst heq
            exact ⟨hadm, .inl ⟨rfl, List.mem_of_find?_eq_some hfind⟩⟩
          · cases h

structure AdmittedAll (facts added facts' : List (SolverFact V)) : Prop where
  mem : ∀ fact, fact ∈ facts' ↔ fact ∈ facts ∨ fact ∈ added
  distinct : Distinct facts → Distinct facts'
  admissible : ∀ fact ∈ added, Admissible fact
  grown : facts <+: facts'

theorem admitFacts_ok {added : List (SolverFact V)} (h : added.foldlM admitFact facts = .ok facts') :
    AdmittedAll facts added facts' := by
  induction added generalizing facts with
  | nil =>
    cases h
    exact ⟨fun fact => by simp, fun hd => hd, fun _ hmem => absurd hmem List.not_mem_nil, List.prefix_rfl⟩
  | cons fact added ih =>
    obtain ⟨middle, hfirst, hrest⟩ := foldlM_cons_ok h
    obtain ⟨hadm, hcase⟩ := admitFact_ok hfirst
    have hall := ih hrest
    have hadmissible : ∀ other ∈ fact :: added, Admissible other := by
      intro other hother
      rcases List.mem_cons.mp hother with rfl | hmem
      · exact hadm
      · exact hall.admissible other hmem
    rcases hcase with ⟨rfl, hmem⟩ | ⟨rfl, hnew⟩
    · refine ⟨fun other => ?_, hall.distinct, hadmissible, hall.grown⟩
      rw [hall.mem other, List.mem_cons]
      constructor
      · intro hor
        exact hor.imp id .inr
      · intro hor
        rcases hor with hold | rfl | hadded
        · exact .inl hold
        · exact .inl hmem
        · exact .inr hadded
    · refine ⟨fun other => ?_, fun hd => hall.distinct ?_, hadmissible, (List.prefix_append _ _).trans hall.grown⟩
      · rw [hall.mem other, List.mem_append, List.mem_singleton, List.mem_cons, or_assoc]
      · show ((facts ++ [fact]).map SolverFact.id).Nodup
        rw [List.map_append, List.nodup_append]
        refine ⟨hd, List.nodup_singleton _, fun id hid other hother => ?_⟩
        rw [List.map_singleton, List.mem_singleton] at hother
        rw [hother]
        exact fun heq => hnew (heq ▸ hid)

/-! ## One round of the loop -/

structure Accepted (operations : List SolverOperation) (s : Observed V) (invocation : SolverInvocation V)
    (receipt : SolverReceipt V) (s' : Observed V) : Prop where
  belongs : belongs invocation receipt
  declared : ∀ fact ∈ receipt.facts, isDeclared operations invocation receipt fact = true
  facts : AdmittedAll s.facts receipt.facts s'.facts
  accepted : s'.accepted = s.accepted ++ [(invocation, receipt)]
  completed : s'.completed = invocation.id :: s.completed

theorem accept_ok {operations : List SolverOperation} {s s' : Observed V} {invocation : SolverInvocation V}
    {receipt : SolverReceipt V} (h : accept operations s invocation receipt = .ok s') :
    Accepted operations s invocation receipt s' := by
  unfold accept at h
  split at h
  · cases h
  · rename_i hbelongs
    split at h
    · cases h
    · rename_i hdeclared
      obtain ⟨facts, hfacts, rfl⟩ := map_eq_ok h
      refine ⟨not_not.mp hbelongs, fun fact hfact => ?_, admitFacts_ok hfacts, rfl, rfl⟩
      simpa using List.find?_eq_none.mp hdeclared fact hfact

section Turns
omit [DecidableEq V]
variable {platform : SolverPlatform} {program : ObservedProgram V} {operations : List SolverOperation}
  {aborted : Bool} {s : Observed V}

structure Called (platform : SolverPlatform) (program : ObservedProgram V) (operations : List SolverOperation)
    (s : Observed V) (invocation : SolverInvocation V) : Prop where
  frontier : ∃ frontier, frontierAt platform program operations s = .ok frontier ∧
    (frontier.find? fun candidate => candidate.id ∉ s.completed) = some invocation
  room : s.accepted.length < program.maxInvocations.getD 1024

variable {invocation : SolverInvocation V}

theorem turn_call_iff : turn platform program operations aborted s = .call invocation ↔
      aborted = false ∧ ¬ (program.completion = some .goalOnly ∧ goalsSatisfied program s.facts = true) ∧
        Called platform program operations s invocation := by
  constructor
  · intro h
    unfold turn at h
    split at h
    · cases h
    · rename_i haborted
      split at h
      · cases h
      · rename_i hgoal
        split at h
        · cases h
        · cases h
        · rename_i frontier hfrontier
          split at h
          · cases h
          · rename_i candidate hfind
            split at h
            · cases h
            · rename_i hroom
              cases h
              exact ⟨by simpa using haborted, hgoal, ⟨frontier, hfrontier, hfind⟩, not_le.mp hroom⟩
  · intro ⟨haborted, hgoal, ⟨frontier, hfrontier, hfind⟩, hroom⟩
    unfold frontierAt at hfrontier
    unfold turn
    rw [haborted, if_neg Bool.false_ne_true, if_neg hgoal, hfrontier]
    dsimp only
    rw [hfind]
    exact if_neg (not_le.mpr hroom)

theorem turn_call (h : turn platform program operations aborted s = .call invocation) :
    aborted = false ∧ Called platform program operations s invocation :=
  ⟨(turn_call_iff.1 h).1, (turn_call_iff.1 h).2.2⟩

theorem Called.fresh (h : Called platform program operations s invocation) : invocation.id ∉ s.completed := by
  obtain ⟨frontier, -, hfind⟩ := h.frontier
  simpa using List.find?_some hfind

theorem Called.ready (h : Called platform program operations s invocation) :
    ∃ operation ∈ operations, operation.available ≠ some false ∧
      ReadyAt platform program.runId s.facts operation invocation := by
  obtain ⟨frontier, hfrontier, hfind⟩ := h.frontier
  exact (mem_frontier hfrontier).mp (List.mem_of_find?_eq_some hfind)

def AllCompleted (platform : SolverPlatform) (program : ObservedProgram V) (operations : List SolverOperation)
    (s : Observed V) : Prop :=
  ∀ operation ∈ operations, operation.available ≠ some false → ∀ invocation,
    ReadyAt platform program.runId s.facts operation invocation → invocation.id ∈ s.completed

theorem turn_ended {result : ObservationRunResult V} (h : turn platform program operations aborted s = .ended result) :
    (result = s.result program .cancelled ∧ aborted = true) ∨
      (result = s.result program .complete ∧ program.completion = some .goalOnly ∧
        goalsSatisfied program s.facts = true) ∨ result = s.result program .limit ∨
      (result = s.result program (exhausted program s) ∧ AllCompleted platform program operations s ∧
        ∃ frontier, frontierAt platform program operations s = .ok frontier) := by
  unfold turn at h
  split at h
  · rename_i haborted
    cases h
    exact .inl ⟨rfl, haborted⟩
  · split at h
    · rename_i hgoal
      cases h
      exact .inr (.inl ⟨rfl, hgoal⟩)
    · split at h
      · cases h
        exact .inr (.inr (.inl rfl))
      · cases h
      · rename_i frontier hfrontier
        split at h
        · rename_i hnone
          cases h
          refine .inr (.inr (.inr ⟨rfl, fun operation hop hon invocation hready => ?_, frontier, hfrontier⟩))
          have hmem := (mem_frontier hfrontier).mpr ⟨operation, hop, hon, hready⟩
          simpa using List.find?_eq_none.mp hnone invocation hmem
        · split at h
          · cases h
            exact .inr (.inr (.inl rfl))
          · cases h

end Turns

/-! ## Running states -/

/-- The states at the head of the loop, whatever the port answers and whenever the signal is looked at. -/
inductive Running (platform : SolverPlatform) (program : ObservedProgram V) (operations : List SolverOperation) :
    Observed V → Prop
  | start {facts : List (SolverFact V)} (hingredients : program.ingredients.foldlM admitFact [] = .ok facts) :
    Running platform program operations ⟨facts, [], []⟩
  | next {s s' : Observed V} {aborted : Bool} {invocation : SolverInvocation V} {receipt : SolverReceipt V}
    (hs : Running platform program operations s)
    (hturn : turn platform program operations aborted s = .call invocation)
    (haccept : accept operations s invocation receipt = .ok s') : Running platform program operations s'

section States
variable {platform : SolverPlatform} {program : ObservedProgram V} {operations : List SolverOperation}
  {s : Observed V}

theorem Running.induct {P : Observed V → Prop}
    (hstart : ∀ facts, AdmittedAll [] program.ingredients facts → P ⟨facts, [], []⟩)
    (hnext : ∀ s invocation receipt s', Running platform program operations s → P s →
      Called platform program operations s invocation → Accepted operations s invocation receipt s' → P s')
    (h : Running platform program operations s) : P s := by
  induction h with
  | start hingredients => exact hstart _ (admitFacts_ok hingredients)
  | next hs hturn haccept ih => exact hnext _ _ _ _ hs ih (turn_call hturn).2 (accept_ok haccept)

theorem Running.distinct (h : Running platform program operations s) : Distinct s.facts := by
  refine h.induct (P := fun s => Distinct s.facts) (fun facts hall => hall.distinct List.nodup_nil) ?_
  intro s invocation receipt s' _ hs _ haccept
  exact haccept.facts.distinct hs

theorem Running.mem_facts (h : Running platform program operations s) (fact : SolverFact V) :
    fact ∈ s.facts ↔ fact ∈ program.ingredients ∨ ∃ receipt ∈ s.receipts, fact ∈ receipt.facts := by
  refine h.induct (P := fun s => fact ∈ s.facts ↔ fact ∈ program.ingredients ∨ ∃ receipt ∈ s.receipts, fact ∈ receipt.facts)
    (fun facts hall => ?_) ?_
  · rw [hall.mem fact]
    simp [Observed.receipts]
  · intro s invocation receipt s' _ hs _ haccept
    unfold Observed.receipts at hs ⊢
    rw [haccept.facts.mem fact, hs, haccept.accepted, List.map_append, or_assoc]
    refine or_congr_right ⟨fun hor => ?_, fun ⟨other, hother, hin⟩ => ?_⟩
    · rcases hor with ⟨other, hother, hin⟩ | hin
      · exact ⟨other, List.mem_append_left _ hother, hin⟩
      · exact ⟨receipt, List.mem_append_right _ List.mem_cons_self, hin⟩
    · rcases List.mem_append.mp hother with hold | hnew
      · exact .inl ⟨other, hold, hin⟩
      · rw [List.map_singleton, List.mem_singleton] at hnew
        subst hnew
        exact .inr hin

theorem Running.admissible (h : Running platform program operations s) : ∀ fact ∈ s.facts, Admissible fact := by
  refine h.induct (P := fun s => ∀ fact ∈ s.facts, Admissible fact) (fun facts hall fact hfact => ?_) ?_
  · exact hall.admissible fact (((hall.mem fact).mp hfact).resolve_left List.not_mem_nil)
  · intro s invocation receipt s' _ hs _ haccept fact hfact
    rcases (haccept.facts.mem fact).mp hfact with hold | hnew
    · exact hs fact hold
    · exact haccept.facts.admissible fact hnew

/-- The ids executed so far. -/
def Observed.executed (s : Observed V) : List String := s.accepted.map fun entry => entry.1.id

theorem Running.mem_completed (h : Running platform program operations s) (id : String) :
    id ∈ s.completed ↔ id ∈ s.executed := by
  refine h.induct (P := fun s => id ∈ s.completed ↔ id ∈ s.executed) (fun facts _ => Iff.rfl) ?_
  intro s invocation receipt s' _ hs _ haccept
  unfold Observed.executed at hs ⊢
  rw [haccept.completed, haccept.accepted, List.map_append, List.mem_append, List.mem_cons, hs, List.map_singleton,
    List.mem_singleton]
  exact or_comm

theorem Running.executed_nodup (h : Running platform program operations s) : s.executed.Nodup := by
  refine h.induct (P := fun s => s.executed.Nodup) (fun facts _ => List.nodup_nil) ?_
  intro s invocation receipt s' hrun hs hcall haccept
  have hfresh : invocation.id ∉ s.executed := fun hmem => hcall.fresh ((hrun.mem_completed _).mpr hmem)
  unfold Observed.executed at hs hfresh ⊢
  rw [haccept.accepted, List.map_append, List.nodup_append]
  refine ⟨hs, List.nodup_singleton _, fun id hid other hother => ?_⟩
  rw [List.map_singleton, List.mem_singleton] at hother
  rw [hother]
  exact fun heq => hfresh (heq ▸ hid)

def ExecutedFrom (platform : SolverPlatform) (program : ObservedProgram V) (operations : List SolverOperation)
    (s : Observed V) (entry : SolverInvocation V × SolverReceipt V) : Prop :=
  ∃ earlier : Observed V, Running platform program operations earlier ∧
    (∀ fact ∈ earlier.facts, fact ∈ s.facts) ∧ Called platform program operations earlier entry.1 ∧
      belongs entry.1 entry.2 ∧ ∀ fact ∈ entry.2.facts, isDeclared operations entry.1 entry.2 fact = true

theorem Running.executed_from (h : Running platform program operations s) :
    ∀ entry ∈ s.accepted, ExecutedFrom platform program operations s entry := by
  refine h.induct (P := fun s => ∀ entry ∈ s.accepted, ExecutedFrom platform program operations s entry)
    (fun facts _ entry hentry => absurd hentry List.not_mem_nil) ?_
  intro s invocation receipt s' hrun hs hcall haccept entry hentry
  have hgrow : ∀ fact ∈ s.facts, fact ∈ s'.facts := fun fact hfact => (haccept.facts.mem fact).mpr (.inl hfact)
  rw [haccept.accepted, List.mem_append, List.mem_singleton] at hentry
  rcases hentry with hold | rfl
  · obtain ⟨earlier, hearlier, hfacts, hrest⟩ := hs entry hold
    exact ⟨earlier, hearlier, fun fact hfact => hgrow fact (hfacts fact hfact), hrest⟩
  · exact ⟨s, hrun, hgrow, hcall, haccept.belongs, haccept.declared⟩

end States

end AvenOS.Actors
