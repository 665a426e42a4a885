import AvenOS.Actors.ObservedTruth
import AvenOS.Foundations.CompactJson
import Mathlib.Order.Bounds.Basic

/-! # Saturation does not depend on the order

Where a receipt depends on the operation and on what the invocation was made of only, a run to the end holds the
least set of facts that contains the ingredients and is closed under the admitted operations. Neither the order of
the ingredients nor the costs that order the operations can be seen in what it ends with. -/
namespace AvenOS.Actors
open ExceptLoop StableSort

variable {V : Type} [FactValue V] [DecidableEq V]

/-- What an operation answers to its inputs and gathers. -/
abbrev Results (V : Type) := String → List (SolverFact V) → List (String × List (SolverFact V)) →
  ReceiptState × List (SolverFact V)

def Follows (results : Results V) (invocation : SolverInvocation V) (receipt : SolverReceipt V) : Prop :=
  (receipt.state, receipt.facts) = results invocation.operation invocation.inputs invocation.gathers

/-! ## Closed sets of facts -/

def GatheredIn (facts : Set (SolverFact V)) (operation : SolverOperation) (bindings : Bindings)
    (inputs : List (SolverFact V)) (gather : SolverGather) (entry : String × List (SolverFact V)) : Prop :=
  entry.1 = gather.name ∧ ∃ members, sealedMembers operation gather inputs = .ok members ∧
    List.Forall₂ (fun member fact => fact ∈ facts ∧
      unifiable (memberQuery gather bindings member) fact.predicate = true) members entry.2

structure Closed (program : ObservedProgram V) (results : Results V) (facts : Set (SolverFact V)) : Prop where
  ingredients : ∀ fact ∈ program.ingredients, fact ∈ facts
  answers : ∀ operation ∈ program.operations, admittedMode program operation = true →
    operation.available ≠ some false → ∀ inputs bindings gathers, (∀ fact ∈ inputs, fact ∈ facts) →
      unifyAll operation.requires (inputs.map SolverFact.predicate) [] = some bindings →
        List.Forall₂ (GatheredIn facts operation bindings inputs) (operation.gathers.getD []) gathers →
          ∀ fact ∈ (results operation.id inputs gathers).2, fact ∈ facts

/-! ## Where nothing is ambiguous, a set that names a member's fact names it for the run -/

section Frontier
variable {platform : SolverPlatform} {runId : String} {operations : List SolverOperation}
  {facts : List (SolverFact V)} {operation : SolverOperation} {bindings : Bindings}
  {inputs : List (SolverFact V)}

variable {limit : Limit} {frontier : List (SolverInvocation V)}

omit [DecidableEq V] in
theorem frontier_gathers (h : solveObservedFrontier platform runId operations facts limit = .ok frontier)
    (hop : operation ∈ operations) (hon : operation.available ≠ some false) (hmem : ∀ fact ∈ inputs, fact ∈ facts)
    (hunified : unifyAll operation.requires (inputs.map SolverFact.predicate) [] = some bindings) :
    ∃ answer, gatherAll facts operation bindings inputs (operation.gathers.getD []) = .ok answer := by
  unfold solveObservedFrontier at h
  split at h
  · cases h
  · rename_i hids
    have hdistinct : Distinct facts := not_not.mp hids
    obtain ⟨parts, hparts, -⟩ := map_eq_ok h
    obtain ⟨part, -, hpart⟩ := mapM_ok_mem hparts hop
    unfold operationFrontier at hpart
    rw [if_neg hon] at hpart
    split at hpart
    · cases hpart
    · rename_i found hfound
      rw [matchRequirementsWith_attempts hfound] at hpart
      split at hpart
      · cases hpart
      · rename_i ready hready
        have hmatch : (⟨bindings, inputs.map SolverFact.planValue⟩ : RequirementMatch) ∈
            matchRequirements operation.requires (facts.map SolverFact.planValue) :=
          mem_matchFacts.2 ⟨inputs, rfl, hmem, hunified⟩
        obtain ⟨entry, -, hentry⟩ := mapM_ok_mem hready hmatch
        obtain ⟨answer, hanswer, -⟩ := map_eq_ok hentry
        rw [factsOf_planValues hdistinct hmem] at hanswer
        exact ⟨answer, hanswer⟩

omit [FactValue V] [DecidableEq V] in
theorem members_answered (hdistinct : Distinct facts) {gather : SolverGather} {members : List String}
    {gathered : List (SolverFact V)} {answer : Option (List (SolverFact V))}
    (h : gatherMembers facts operation gather bindings members = .ok answer)
    (hall : List.Forall₂ (fun member fact => fact ∈ facts ∧
      unifiable (memberQuery gather bindings member) fact.predicate = true) members gathered) :
    answer = some gathered := by
  induction hall generalizing answer with
  | nil =>
    cases h
    rfl
  | @cons member fact members gathered hone _ ih =>
    have hhit : fact ∈ hits facts (memberQuery gather bindings member) := mem_hits.2 hone
    unfold gatherMembers at h
    rw [gatherMember_eq hdistinct] at h
    cases hhits : hits facts (memberQuery gather bindings member) with
    | nil =>
      rw [hhits] at hhit
      exact absurd hhit List.not_mem_nil
    | cons only more =>
      rw [hhits] at h hhit
      cases more with
      | nil =>
        obtain ⟨rest, hrest, rfl⟩ := map_eq_ok h
        rw [ih hrest, List.mem_singleton.mp hhit]
        rfl
      | cons two more => cases h

omit [DecidableEq V] in
theorem gathers_answered (hdistinct : Distinct facts) {gathers : List SolverGather}
    {entries : List (String × List (SolverFact V))} {answer : Option (List (String × List (SolverFact V)))}
    (h : gatherAll facts operation bindings inputs gathers = .ok answer)
    (hall : List.Forall₂ (GatheredIn {fact | fact ∈ facts} operation bindings inputs) gathers entries) :
    answer = some entries := by
  induction hall generalizing answer with
  | nil =>
    cases h
    rfl
  | @cons gather entry gathers entries hone _ ih =>
    obtain ⟨name, gathered⟩ := entry
    obtain ⟨hname, members, hseal, hanswered⟩ := hone
    dsimp only at hname
    subst hname
    rw [gatherAll_cons hseal] at h
    match hfirst : gatherMembers facts operation gather bindings members with
    | .error e =>
      rw [hfirst] at h
      cases h
    | .ok first =>
      rw [hfirst] at h
      have hsome := members_answered hdistinct hfirst hanswered
      subst hsome
      obtain ⟨rest, hrest, rfl⟩ := map_eq_ok h
      rw [ih hrest]
      rfl

omit [DecidableEq V] in
theorem ready_of_gatheredIn (h : solveObservedFrontier platform runId operations facts limit = .ok frontier)
    (hdistinct : Distinct facts) (hop : operation ∈ operations) (hon : operation.available ≠ some false)
    (hmem : ∀ fact ∈ inputs, fact ∈ facts)
    (hunified : unifyAll operation.requires (inputs.map SolverFact.predicate) [] = some bindings)
    {gathers : List (String × List (SolverFact V))}
    (hall : List.Forall₂ (GatheredIn {fact | fact ∈ facts} operation bindings inputs)
      (operation.gathers.getD []) gathers) :
    ReadyAt platform runId facts operation ⟨platform.solverIdentity (invocationSeed runId operation inputs gathers),
      operation.id, bindings, inputs, gathers⟩ := by
  obtain ⟨answer, hanswer⟩ := frontier_gathers h hop hon hmem hunified
  have hsome := gathers_answered hdistinct hanswer hall
  subst hsome
  exact ⟨rfl, hmem, hunified, (gatherAll_ok hdistinct).mp hanswer, rfl⟩

omit [DecidableEq V] in
theorem ReadyAt.gatheredIn {invocation : SolverInvocation V}
    (h : ReadyAt platform runId facts operation invocation) {larger : Set (SolverFact V)}
    (hgrow : ∀ fact ∈ facts, fact ∈ larger) :
    List.Forall₂ (GatheredIn larger operation invocation.bindings invocation.inputs) (operation.gathers.getD [])
      invocation.gathers := by
  refine h.gathered.imp fun gather entry hone => ?_
  obtain ⟨hname, members, hseal, hanswered⟩ := hone
  refine ⟨hname, members, hseal, hanswered.imp fun member fact hfact => ?_⟩
  have hmem := mem_hits.1 (hfact ▸ List.mem_cons_self)
  exact ⟨hgrow fact hmem.1, hmem.2⟩

end Frontier

/-! ## The end of a run -/

/-- The head of the loop of a run whose ready invocations are all completed. -/
structure RunSaturated (platform : SolverPlatform) (program : ObservedProgram V) (operations : List SolverOperation)
    (results : Results V) (s : Observed V) : Prop where
  running : Running platform program operations s
  follows : ∀ entry ∈ s.accepted, Follows results entry.1 entry.2
  completed : AllCompleted platform program operations s
  frontier : ∃ frontier, frontierAt platform program operations s = .ok frontier

section Saturation
variable {platform : SolverPlatform} {program : ObservedProgram V} {operations : List SolverOperation}
  {results : Results V} {s : Observed V}

theorem RunSaturated.executed (h : RunSaturated platform program operations results s) (hops : OperationsOf program operations)
    (hinjective : Function.Injective platform.solverIdentity) {operation : SolverOperation}
    (hop : operation ∈ operations) (hon : operation.available ≠ some false) {inputs : List (SolverFact V)}
    {bindings : Bindings} {gathers : List (String × List (SolverFact V))} (hmem : ∀ fact ∈ inputs, fact ∈ s.facts)
    (hunified : unifyAll operation.requires (inputs.map SolverFact.predicate) [] = some bindings)
    (hall : List.Forall₂ (GatheredIn {fact | fact ∈ s.facts} operation bindings inputs)
      (operation.gathers.getD []) gathers) :
    ∃ receipt, ((⟨platform.solverIdentity (invocationSeed program.runId operation inputs gathers), operation.id, bindings,
      inputs, gathers⟩ : SolverInvocation V), receipt) ∈ s.accepted := by
  obtain ⟨frontier, hfrontier⟩ := h.frontier
  have hready := ready_of_gatheredIn hfrontier h.running.distinct hop hon hmem hunified hall
  have hcompleted := h.completed operation hop hon _ hready
  obtain ⟨entry, hentry, hid⟩ := List.mem_map.mp ((h.running.mem_completed _).mp hcompleted)
  obtain ⟨earlier, -, hgrow, hcalled, -⟩ := h.running.executed_from entry hentry
  have heq := hcalled.readyIn.eq_of_id hinjective hops h.running.distinct hgrow ⟨operation, hop, hon, hready⟩ hid
  refine ⟨entry.2, ?_⟩
  rw [← heq]
  exact hentry

theorem RunSaturated.closed (h : RunSaturated platform program operations results s) (hops : OperationsOf program operations)
    (hinjective : Function.Injective platform.solverIdentity) : Closed program results {fact | fact ∈ s.facts} := by
  refine ⟨fun fact hfact => (h.running.mem_facts fact).mpr (.inl hfact), ?_⟩
  intro operation hmem hmode hon inputs bindings gathers hinputs hunified hall fact hfact
  have hop := (hops.mem operation).mpr ⟨hmem, hmode⟩
  obtain ⟨receipt, hentry⟩ := h.executed hops hinjective hop hon hinputs hunified hall
  have hfollows := h.follows _ hentry
  refine (h.running.mem_facts fact).mpr (.inr ⟨receipt, List.mem_map_of_mem hentry, ?_⟩)
  unfold Follows at hfollows
  rw [show receipt.facts = (results operation.id inputs gathers).2 from congrArg Prod.snd hfollows]
  exact hfact

theorem Running.facts_subset (h : Running platform program operations s) (hops : OperationsOf program operations)
    (hfollows : ∀ entry ∈ s.accepted, Follows results entry.1 entry.2) {larger : Set (SolverFact V)}
    (hclosed : Closed program results larger) : ∀ fact ∈ s.facts, fact ∈ larger := by
  refine h.induct (P := fun s => (∀ entry ∈ s.accepted, Follows results entry.1 entry.2) → ∀ fact ∈ s.facts, fact ∈ larger)
    ?_ ?_ hfollows
  · intro facts hadmitted _ fact hfact
    exact hclosed.ingredients fact (((hadmitted.mem fact).mp hfact).resolve_left List.not_mem_nil)
  · intro s invocation receipt s' _ hs hcalled haccepted hall fact hfact
    have hlast := hall (invocation, receipt) (haccepted.accepted ▸ List.mem_append_right _ List.mem_cons_self)
    have hsubset := hs fun entry hentry => hall entry (haccepted.accepted ▸ List.mem_append_left _ hentry)
    rcases (haccepted.facts.mem fact).mp hfact with hold | hnew
    · exact hsubset fact hold
    · obtain ⟨operation, hop, hon, hready⟩ := hcalled.ready
      obtain ⟨hmem, hmode⟩ := (hops.mem operation).mp hop
      refine hclosed.answers operation hmem hmode hon invocation.inputs invocation.bindings invocation.gathers
        (fun input hinput => hsubset input (hready.inputs_mem input hinput)) hready.unified
        (hready.gatheredIn hsubset) fact ?_
      unfold Follows at hlast
      rw [← hready.operation_eq, ← show receipt.facts = _ from congrArg Prod.snd hlast]
      exact hnew

theorem RunSaturated.isLeast (h : RunSaturated platform program operations results s) (hops : OperationsOf program operations)
    (hinjective : Function.Injective platform.solverIdentity) :
    IsLeast {facts | Closed program results facts} {fact | fact ∈ s.facts} :=
  ⟨h.closed hops hinjective, fun _ hclosed fact hfact => h.running.facts_subset hops h.follows hclosed fact hfact⟩

theorem runSaturated_of_run {Host : Type} {port : ObservationExecutionPort V Host}
    (hport : ∀ invocation host receipt host', port.call invocation host = (.ok receipt, host') →
      Follows results invocation receipt)
    (hcompletion : program.completion ≠ some .goalOnly) {budget : ℕ} {host host' : Host}
    {result : ObservationRunResult V}
    (hrun : executeObservedProgram platform program port budget host = some (.ok result, host'))
    (hlimit : result.state ≠ .limit) (hcancelled : result.state ≠ .cancelled) :
    ∃ operations s, OperationsOf program operations ∧ RunSaturated platform program operations results s ∧
      result = s.result program (exhausted program s) := by
  cases hops : admittedOperations platform.toLocale program with
  | error e =>
    unfold executeObservedProgram at hrun
    rw [hops] at hrun
    cases hrun
  | ok operations =>
    obtain ⟨last, aborted, hlast, hended, hall⟩ := executeObservedProgram_running hport hops hrun
    rcases turn_ended hended with ⟨rfl, -⟩ | ⟨-, hgoalOnly, -⟩ | rfl | ⟨rfl, hcompleted, hfrontier⟩
    · exact absurd rfl hcancelled
    · exact absurd hgoalOnly hcompletion
    · exact absurd rfl hlimit
    · exact ⟨operations, last, admittedOperations_ok hops, ⟨hlast, hall, hcompleted, hfrontier⟩, rfl⟩

end Saturation

/-! ## Two orders of one task -/

def Repriced (operation operation' : SolverOperation) : Prop := ∃ cost, operation' = { operation with cost := cost }

theorem Repriced.symm {a b : SolverOperation} (h : Repriced a b) : Repriced b a := by
  obtain ⟨cost, rfl⟩ := h
  exact ⟨a.cost, rfl⟩

/-- Two programs that differ in the order of their ingredients, in the costs of their operations and in their
limits. -/
structure SameTask (program program' : ObservedProgram V) : Prop where
  runId : program'.runId = program.runId
  ingredients : program'.ingredients.Perm program.ingredients
  operations : List.Forall₂ Repriced program.operations program'.operations
  goals : program'.goals = program.goals
  allowEffects : program'.allowEffects = program.allowEffects

section Orders
variable {platform : SolverPlatform} {program program' : ObservedProgram V}
  {operations operations' : List SolverOperation} {results : Results V} {s s' : Observed V}

omit [FactValue V] [DecidableEq V] in
theorem SameTask.symm (h : SameTask program program') : SameTask program' program where
  runId := h.runId.symm
  ingredients := h.ingredients.symm
  operations := (h.operations.imp fun _ _ => Repriced.symm).flip
  goals := h.goals.symm
  allowEffects := h.allowEffects.symm

omit [DecidableEq V] in
theorem SameTask.closed (h : SameTask program program') {facts : Set (SolverFact V)}
    (hclosed : Closed program results facts) : Closed program' results facts := by
  refine ⟨fun fact hfact => hclosed.ingredients fact (h.ingredients.mem_iff.mp hfact), ?_⟩
  intro operation' hmem' hmode hon inputs bindings gathers hinputs hunified hall
  obtain ⟨operation, hmem, cost, rfl⟩ := forall₂_right h.operations hmem'
  have hmode' : admittedMode program operation = true := by
    unfold admittedMode at hmode ⊢
    rw [h.allowEffects] at hmode
    exact hmode
  exact hclosed.answers operation hmem hmode' hon inputs bindings gathers hinputs hunified hall

omit [FactValue V] [DecidableEq V] in
theorem SameTask.mem_operations (h : SameTask program program') (hops : OperationsOf program operations)
    (hops' : OperationsOf program' operations') {operation : SolverOperation} (hop : operation ∈ operations) :
    ∃ operation' ∈ operations', Repriced operation operation' := by
  obtain ⟨hmem, hmode⟩ := (hops.mem operation).mp hop
  obtain ⟨operation', hmem', hrepriced⟩ := forall₂_right h.symm.operations hmem
  have hback := hrepriced.symm
  refine ⟨operation', (hops'.mem operation').mpr ⟨hmem', ?_⟩, hback⟩
  obtain ⟨cost, rfl⟩ := hback
  unfold admittedMode at hmode ⊢
  rw [h.allowEffects]
  exact hmode

theorem RunSaturated.executed_of_same (h : RunSaturated platform program operations results s)
    (h' : RunSaturated platform program' operations' results s') (htask : SameTask program program')
    (hops : OperationsOf program operations) (hops' : OperationsOf program' operations')
    (hinjective : Function.Injective platform.solverIdentity) (hsame : ∀ fact, fact ∈ s.facts → fact ∈ s'.facts) :
    ∀ entry ∈ s.accepted, ∃ receipt, (entry.1, receipt) ∈ s'.accepted ∧ receipt.state = entry.2.state := by
  intro entry hentry
  obtain ⟨earlier, -, hgrow, hcalled, -⟩ := h.running.executed_from entry hentry
  obtain ⟨operation, hop, hon, hready⟩ := hcalled.ready
  obtain ⟨operation', hop', cost, rfl⟩ := htask.mem_operations hops hops' hop
  have hlarger : ∀ fact ∈ earlier.facts, fact ∈ {fact | fact ∈ s'.facts} := fun fact hfact =>
    hsame fact (hgrow fact hfact)
  have hall := hready.gatheredIn hlarger
  obtain ⟨receipt, hexecuted⟩ := h'.executed hops' hinjective hop' hon
    (fun fact hfact => hsame fact (hgrow fact (hready.inputs_mem fact hfact))) hready.unified hall
  have hinvocation : entry.1 = ⟨platform.solverIdentity (invocationSeed program'.runId { operation with cost := cost }
      entry.1.inputs entry.1.gathers), operation.id, entry.1.bindings, entry.1.inputs, entry.1.gathers⟩ := by
    have hid := hready.id_eq
    have hname := hready.operation_eq
    obtain ⟨⟨id, name, bindings, inputs, gathers⟩, other⟩ := entry
    dsimp only at hid hname ⊢
    rw [hid, hname, htask.runId]
    rfl
  refine ⟨receipt, hinvocation ▸ hexecuted, ?_⟩
  have hfollows : receipt.state = (results operation.id entry.1.inputs entry.1.gathers).1 :=
    congrArg Prod.fst (h'.follows _ hexecuted)
  have hfollows' : entry.2.state = (results entry.1.operation entry.1.inputs entry.1.gathers).1 :=
    congrArg Prod.fst (h.follows _ hentry)
  rw [hfollows, hfollows', hready.operation_eq]

theorem Running.receipt_ids (h : Running platform program operations s) :
    s.receipts.map SolverReceipt.invocationId = s.executed := by
  unfold Observed.receipts Observed.executed
  rw [List.map_map]
  refine List.map_congr_left fun entry hentry => ?_
  obtain ⟨_, -, -, -, hbelongs, -⟩ := h.executed_from entry hentry
  exact hbelongs.1

theorem RunSaturated.ids_subset (h : RunSaturated platform program operations results s)
    (h' : RunSaturated platform program' operations' results s') (htask : SameTask program program')
    (hops : OperationsOf program operations) (hops' : OperationsOf program' operations')
    (hinjective : Function.Injective platform.solverIdentity) (hsame : ∀ fact, fact ∈ s.facts → fact ∈ s'.facts)
    (id : String) (hid : id ∈ s.receipts.map SolverReceipt.invocationId) :
    id ∈ s'.receipts.map SolverReceipt.invocationId := by
  rw [h.running.receipt_ids] at hid
  rw [h'.running.receipt_ids]
  obtain ⟨entry, hentry, rfl⟩ := List.mem_map.mp hid
  obtain ⟨receipt, hexecuted, -⟩ := h.executed_of_same h' htask hops hops' hinjective hsame entry hentry
  exact List.mem_map.mpr ⟨_, hexecuted, rfl⟩

omit [FactValue V] [DecidableEq V] in
theorem GoalsHold.of_same {facts facts' : List (SolverFact V)} (h : GoalsHold program facts)
    (htask : SameTask program program') (hsame : ∀ fact, fact ∈ facts → fact ∈ facts') :
    GoalsHold program' facts' := by
  obtain ⟨σ, inputs, hmem, hall⟩ := h
  refine ⟨σ, inputs, fun fact hfact => hsame fact (hmem fact hfact), ?_⟩
  rw [htask.goals]
  exact hall

theorem RunSaturated.failed_of_same (h : RunSaturated platform program operations results s)
    (h' : RunSaturated platform program' operations' results s') (htask : SameTask program program')
    (hops : OperationsOf program operations) (hops' : OperationsOf program' operations')
    (hinjective : Function.Injective platform.solverIdentity) (hsame : ∀ fact, fact ∈ s.facts → fact ∈ s'.facts)
    (hfailed : (s.receipts.any fun receipt => receipt.state = .failed) = true) :
    (s'.receipts.any fun receipt => receipt.state = .failed) = true := by
  rw [List.any_eq_true] at hfailed ⊢
  obtain ⟨receipt, hreceipt, hstate⟩ := hfailed
  obtain ⟨entry, hentry, rfl⟩ := List.mem_map.mp hreceipt
  obtain ⟨receipt', hexecuted, hsameState⟩ := h.executed_of_same h' htask hops hops' hinjective hsame entry hentry
  refine ⟨receipt', List.mem_map_of_mem hexecuted, ?_⟩
  rw [hsameState]
  exact hstate

theorem RunSaturated.exhausted_eq (h : RunSaturated platform program operations results s)
    (h' : RunSaturated platform program' operations' results s') (htask : SameTask program program')
    (hops : OperationsOf program operations) (hops' : OperationsOf program' operations')
    (hinjective : Function.Injective platform.solverIdentity) (hsame : ∀ fact, fact ∈ s.facts ↔ fact ∈ s'.facts) :
    exhausted program s = exhausted program' s' := by
  have hgoals : goalsSatisfied program s.facts = goalsSatisfied program' s'.facts := by
    rw [Bool.eq_iff_iff, goalsSatisfied_iff, goalsSatisfied_iff]
    exact ⟨fun hold => hold.of_same htask fun fact => (hsame fact).mp,
      fun hold => hold.of_same htask.symm fun fact => (hsame fact).mpr⟩
  have hfailed : (s.receipts.any fun receipt => receipt.state = .failed) =
      s'.receipts.any fun receipt => receipt.state = .failed := by
    rw [Bool.eq_iff_iff]
    exact ⟨h.failed_of_same h' htask hops hops' hinjective fun fact => (hsame fact).mp,
      h'.failed_of_same h htask.symm hops' hops hinjective fun fact => (hsame fact).mpr⟩
  unfold exhausted
  rw [hgoals, hfailed]

/-- Two runs to the end of one task, under two orders of its ingredients and two cost assignments, end with the
same facts, the same executed ids and the same state, and the facts are the least closed set. -/
theorem saturation_confluent (platform : SolverPlatform) (hinjective : Function.Injective platform.solverIdentity)
    (results : Results V) (program program' : ObservedProgram V) (htask : SameTask program program')
    (hcompletion : program.completion ≠ some .goalOnly) (hcompletion' : program'.completion ≠ some .goalOnly)
    {Host Host' : Type} (port : ObservationExecutionPort V Host) (port' : ObservationExecutionPort V Host')
    (hport : ∀ invocation host receipt host₁, port.call invocation host = (.ok receipt, host₁) →
      Follows results invocation receipt)
    (hport' : ∀ invocation host receipt host₁, port'.call invocation host = (.ok receipt, host₁) →
      Follows results invocation receipt)
    {budget budget' : ℕ} {host host₁ : Host} {host' host₁' : Host'} {result result' : ObservationRunResult V}
    (hrun : executeObservedProgram platform program port budget host = some (.ok result, host₁))
    (hrun' : executeObservedProgram platform program' port' budget' host' = some (.ok result', host₁'))
    (huncut : result.state ≠ .limit ∧ result.state ≠ .cancelled)
    (huncut' : result'.state ≠ .limit ∧ result'.state ≠ .cancelled) :
    (∀ fact, fact ∈ result.facts ↔ fact ∈ result'.facts) ∧
      (∀ id, id ∈ result.receipts.map SolverReceipt.invocationId ↔ id ∈ result'.receipts.map SolverReceipt.invocationId) ∧
        result.state = result'.state ∧ IsLeast {facts | Closed program results facts} {fact | fact ∈ result.facts} := by
  obtain ⟨operations, s, hops, hs, rfl⟩ := runSaturated_of_run hport hcompletion hrun huncut.1 huncut.2
  obtain ⟨operations', s', hops', hs', rfl⟩ := runSaturated_of_run hport' hcompletion' hrun' huncut'.1 huncut'.2
  have hleast := hs.isLeast hops hinjective
  have hsame : ∀ fact, fact ∈ s.facts ↔ fact ∈ s'.facts := fun fact =>
    ⟨hs.running.facts_subset hops hs.follows (htask.symm.closed (hs'.closed hops' hinjective)) fact,
      hs'.running.facts_subset hops' hs'.follows (htask.closed (hs.closed hops hinjective)) fact⟩
  have hids := hs.ids_subset hs' htask hops hops' hinjective fun fact => (hsame fact).mp
  have hids' := hs'.ids_subset hs htask.symm hops' hops hinjective fun fact => (hsame fact).mpr
  exact ⟨hsame, fun id => ⟨hids id, hids' id⟩, hs.exhausted_eq hs' htask hops hops' hinjective hsame, hleast⟩

end Orders

/-! ## Two files read in two orders -/

namespace TwoFiles
open Json

def textsTree (texts : List String) : Tree := .array (texts.map .string)

theorem textsTree_ok (texts : List String) : (textsTree texts).Ok := by
  show Tree.OkEach (texts.map .string)
  induction texts with
  | nil => trivial
  | cons text texts ih => exact ⟨trivial, ih⟩

theorem textsTree_injective : Function.Injective textsTree := by
  intro texts texts' h
  have hmap := Tree.array.inj h
  exact (List.map_injective_iff.mpr fun _ _ hstring => Tree.string.inj hstring) hmap

def gatherTree (gather : String × List String) : Tree := .array [.string gather.1, textsTree gather.2]

theorem gatherTree_injective : Function.Injective gatherTree := by
  intro gather gather' h
  have hlist := Tree.array.inj h
  rw [List.cons.injEq, List.cons.injEq] at hlist
  exact Prod.ext (Tree.string.inj hlist.1) (textsTree_injective hlist.2.1)

def seedTree (seed : InvocationSeed) : Tree :=
  .array [.string seed.runId, .string seed.operation, textsTree seed.inputs, .array (seed.gathers.map gatherTree)]

theorem seedTree_ok (seed : InvocationSeed) : (seedTree seed).Ok := by
  refine ⟨trivial, trivial, textsTree_ok _, ?_, trivial⟩
  show Tree.OkEach (seed.gathers.map gatherTree)
  induction seed.gathers with
  | nil => trivial
  | cons gather gathers ih => exact ⟨⟨trivial, textsTree_ok _, trivial⟩, ih⟩

theorem seedTree_injective : Function.Injective seedTree := by
  intro seed seed' h
  have hlist := Tree.array.inj h
  simp only [List.cons.injEq, Tree.string.injEq, Tree.array.injEq, and_true] at hlist
  obtain ⟨hrun, hoperation, hinputs, hgathers⟩ := hlist
  obtain ⟨run, operation, inputs, gathers⟩ := seed
  obtain ⟨run', operation', inputs', gathers'⟩ := seed'
  dsimp only at hrun hoperation hinputs hgathers
  rw [hrun, hoperation, textsTree_injective hinputs, List.map_injective_iff.mpr gatherTree_injective hgathers]

theorem allEqual_consistent : Std.TransCmp fun _ _ : String => Ordering.eq :=
  { eq_swap := rfl, isLE_trans := fun _ _ => rfl }

def platform : SolverPlatform where
  localeCompare := fun _ _ => .eq
  consistent := allEqual_consistent
  solverIdentity := fun seed => String.ofList (seedTree seed).text

theorem platform_injective : Function.Injective platform.solverIdentity := by
  intro seed seed' h
  exact seedTree_injective (Tree.text_injective (seedTree_ok seed) (seedTree_ok seed') (String.ofList_injective h))

def file (name : String) : SolverFact ℕ := ⟨name, "file(" ++ name ++ ")", 0⟩

def program : ObservedProgram ℕ :=
  { OneReader.program with ingredients := [file "one", file "two"] }

def program' : ObservedProgram ℕ :=
  { OneReader.program with
    operations := [{ OneReader.readOperation with cost := some 7 }]
    ingredients := [file "two", file "one"] }

/-- Each file is read to its text; the second one cannot be read. -/
def results : Results ℕ := fun _ inputs _ =>
  match inputs.map SolverFact.id with
  | ["two"] => (.failed, [⟨"unreadable:two", "unreadable(two)", 0⟩])
  | names => (.succeeded, names.map fun name => ⟨"text:" ++ name, "text(" ++ name ++ ")", 0⟩)

def port : ObservationExecutionPort ℕ Unit where
  lookup := fun _ host => (.ok none, host)
  invoke := fun invocation host =>
    let answer := results invocation.operation invocation.inputs invocation.gathers
    (.ok ⟨invocation.id, invocation.operation, answer.1, answer.2, none⟩, host)
  aborted := fun _ => false

theorem port_follows : ∀ invocation host receipt host₁, port.call invocation host = (.ok receipt, host₁) →
    Follows results invocation receipt := by
  intro invocation host receipt host₁ h
  cases h
  rfl

def receipt (run : String) (name : String) : SolverReceipt ℕ :=
  let answer := results "read" [file name] []
  ⟨platform.solverIdentity ⟨run, "read", [name], []⟩, "read", answer.1, answer.2, none⟩

def result (first second : String) : ObservationRunResult ℕ where
  state := .partly
  facts := [file first, file second] ++ (receipt "run" first).facts ++ (receipt "run" second).facts
  receipts := [receipt "run" first, receipt "run" second]
  goalsSatisfied := true

end TwoFiles

theorem saturation_confluent_twoFiles :
    executeObservedProgram TwoFiles.platform TwoFiles.program TwoFiles.port 4 () =
        some (.ok (TwoFiles.result "one" "two"), ()) ∧
      executeObservedProgram TwoFiles.platform TwoFiles.program' TwoFiles.port 4 () =
        some (.ok (TwoFiles.result "two" "one"), ()) ∧
      (TwoFiles.result "one" "two").state = (TwoFiles.result "two" "one").state ∧
      IsLeast {facts | Closed TwoFiles.program TwoFiles.results facts}
        {fact | fact ∈ (TwoFiles.result "one" "two").facts} := by
  have hrun : executeObservedProgram TwoFiles.platform TwoFiles.program TwoFiles.port 4 () =
      some (.ok (TwoFiles.result "one" "two"), ()) := by decide +kernel
  have hrun' : executeObservedProgram TwoFiles.platform TwoFiles.program' TwoFiles.port 4 () =
      some (.ok (TwoFiles.result "two" "one"), ()) := by decide +kernel
  have htask : SameTask TwoFiles.program TwoFiles.program' :=
    ⟨rfl, List.Perm.swap _ _ _, .cons ⟨some 7, rfl⟩ .nil, rfl, rfl⟩
  have hconfluent := saturation_confluent TwoFiles.platform TwoFiles.platform_injective TwoFiles.results
    TwoFiles.program TwoFiles.program' htask (by decide) (by decide) TwoFiles.port TwoFiles.port
    TwoFiles.port_follows TwoFiles.port_follows hrun hrun' ⟨by decide, by decide⟩ ⟨by decide, by decide⟩
  exact ⟨hrun, hrun', hconfluent.2.2.1, hconfluent.2.2.2⟩

end AvenOS.Actors
