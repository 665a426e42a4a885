import AvenOS.Actors.ObservedRun

/-! # A run tells the truth

What an observed run hands to its port and what it answers, read in terms of substitutions and of the facts it
holds. -/
namespace AvenOS.Actors
open ExceptLoop StableSort

variable {V : Type} [FactValue V] [DecidableEq V]

/-! ## The operations of a run -/

variable {ids ids' : List String} {operation : SolverOperation} {operations : List SolverOperation}
  {invocation : SolverInvocation V} {facts : List (SolverFact V)} {gather : SolverGather}

theorem checkOperation_ok (h : checkOperation ids operation = .ok ids') :
    operation.id ∉ ids ∧ ids' = operation.id :: ids := by
  unfold checkOperation at h
  split at h
  · cases h
  · rename_i hnew
    split at h
    · cases h
    · split at h
      · cases h
      · obtain ⟨_, -, rfl⟩ := map_eq_ok h
        exact ⟨hnew, rfl⟩

theorem checkOperations_nodup (h : operations.foldlM checkOperation ids = .ok ids') :
    (operations.map (·.id)).Nodup ∧ ∀ operation ∈ operations, operation.id ∉ ids := by
  induction operations generalizing ids with
  | nil => exact ⟨List.nodup_nil, fun _ hmem => absurd hmem List.not_mem_nil⟩
  | cons operation operations ih =>
    obtain ⟨middle, hone, hrest⟩ := foldlM_cons_ok h
    obtain ⟨hnew, rfl⟩ := checkOperation_ok hone
    obtain ⟨hnodup, hfresh⟩ := ih hrest
    refine ⟨List.nodup_cons.mpr ⟨fun hmem => ?_, hnodup⟩, fun other hother => ?_⟩
    · obtain ⟨other, hother, heq⟩ := List.mem_map.mp hmem
      exact hfresh other hother (heq ▸ List.mem_cons_self)
    · rcases List.mem_cons.mp hother with rfl | hmem
      · exact hnew
      · exact fun hin => hfresh other hmem (List.mem_cons_of_mem _ hin)

structure OperationsOf (program : ObservedProgram V) (operations : List SolverOperation) : Prop where
  mem : ∀ operation, operation ∈ operations ↔ operation ∈ program.operations ∧ admittedMode program operation = true
  nodup : (operations.map (·.id)).Nodup

omit [FactValue V] [DecidableEq V] in
theorem admittedOperations_ok {locale : Locale} {program : ObservedProgram V}
    (h : admittedOperations locale program = .ok operations) : OperationsOf program operations := by
  obtain ⟨compiled, hcompiled, rfl⟩ := map_eq_ok h
  obtain ⟨ids, hids, rfl⟩ := map_eq_ok hcompiled
  refine ⟨fun operation => ?_, ?_⟩
  · rw [List.mem_filter, mem_sortBy]
  · have hperm : ((sortBy (byCost locale) program.operations).map (·.id)).Perm (program.operations.map (·.id)) :=
      (sortBy_perm _ _).map _
    exact (hperm.nodup_iff.mpr (checkOperations_nodup hids).1).sublist (List.filter_sublist.map _)

omit [FactValue V] [DecidableEq V] in
theorem OperationsOf.eq_of_id {program : ObservedProgram V} (h : OperationsOf program operations)
    {a b : SolverOperation} (ha : a ∈ operations) (hb : b ∈ operations) (hid : a.id = b.id) :
    a = b := List.inj_on_of_nodup_map h.nodup ha hb hid

/-! ## What was declared and what is satisfied -/

def SolverOperation.declares (operation : SolverOperation) (state : ReceiptState) : List Predicate :=
  if state = .failed then operation.failureProduces.getD [] else operation.produces

def InstanceOf (bindings : Bindings) (predicate : Predicate) (fact : SolverFact V) : Prop :=
  Ground fact.predicate ∧ ∃ σ : Substitution, σ.Unifies (substitute predicate bindings) fact.predicate

omit [FactValue V] [DecidableEq V] in
theorem isDeclared_declares {receipt : SolverReceipt V} {fact : SolverFact V}
    (h : isDeclared operations invocation receipt fact = true) :
    ∃ operation ∈ operations, operation.id = invocation.operation ∧ ∃ predicate ∈ operation.declares receipt.state,
        ∃ σ : Substitution, σ.Unifies (substitute predicate invocation.bindings) fact.predicate := by
  unfold isDeclared declared at h
  rw [List.any_eq_true] at h
  obtain ⟨predicate, hmem, hmatch⟩ := h
  split at hmem
  · exact absurd hmem List.not_mem_nil
  · rename_i operation hfind
    refine ⟨operation, List.mem_of_find?_eq_some hfind, by simpa using List.find?_some hfind, predicate, hmem, ?_⟩
    have hsingle := matchRequirements_single (substitute predicate invocation.bindings) [fact]
    rw [List.map_singleton] at hsingle
    rw [hsingle] at hmatch
    apply unifiable_iff.1
    cases hu : unifiable (substitute predicate invocation.bindings) fact.predicate with
    | true => rfl
    | false =>
      have hnone : hits [fact] (substitute predicate invocation.bindings) = [] := by
        unfold hits
        rw [List.filter_cons_of_neg (by rw [hu]; exact Bool.false_ne_true), List.filter_nil]
      rw [hnone] at hmatch
      cases hmatch

def GoalsHold (program : ObservedProgram V) (facts : List (SolverFact V)) : Prop :=
  ∃ (σ : Substitution) (inputs : List (SolverFact V)), (∀ fact ∈ inputs, fact ∈ facts) ∧
    σ.UnifiesAll (program.goals.getD []) (inputs.map SolverFact.predicate)

omit [FactValue V] [DecidableEq V] in
theorem goalsSatisfied_iff {program : ObservedProgram V} :
    goalsSatisfied program facts = true ↔ GoalsHold program facts := by
  obtain ⟨found, hfound, hnil⟩ := matchRequirementsWith_one (program.goals.getD []) (facts.map SolverFact.planValue)
  have hany : goalsSatisfied program facts = true ↔
      ∃ m, m ∈ matchRequirements (program.goals.getD []) (facts.map SolverFact.planValue) := by
    unfold goalsSatisfied
    rw [hfound]
    show (!found.isEmpty) = true ↔ _
    rw [Bool.not_eq_true', List.isEmpty_eq_false_iff, ne_eq, hnil]
    exact ⟨fun hne => List.exists_mem_of_ne_nil _ hne, fun ⟨m, hm⟩ => List.ne_nil_of_mem hm⟩
  rw [hany]
  constructor
  · intro ⟨m, hm⟩
    obtain ⟨inputs, hinputs, hmem, -⟩ := mem_matchFacts.1 hm
    have hunifies := match_unifies hm
    rw [hinputs, map_predicate_planValue] at hunifies
    exact ⟨Substitution.ofBindings m.bindings, inputs, hmem, hunifies⟩
  · intro ⟨σ, inputs, hmem, hall⟩
    rw [← map_predicate_planValue] at hall
    have hvalues : ∀ value ∈ inputs.map SolverFact.planValue, value ∈ facts.map SolverFact.planValue := by
      intro value hvalue
      obtain ⟨fact, hfact, rfl⟩ := List.mem_map.mp hvalue
      exact List.mem_map_of_mem (hmem fact hfact)
    obtain ⟨m, hm, -⟩ := match_complete hvalues hall
    exact ⟨m, hm⟩

/-! ## What the port is handed -/

/-- The facts a sealed collection names: one for each member, in the order of the collection, and no other fact
could be meant. -/
structure NamedFacts (facts : List (SolverFact V)) (invocation : SolverInvocation V) (gather : SolverGather)
    (entry : String × List (SolverFact V)) : Prop where
  name : entry.1 = gather.name
  members : ∃ (collection : SolverFact V) (members : List String),
    invocation.inputs[gather.collection]? = some collection ∧
      FactValue.members collection.value = some (members.map some) ∧ members.Nodup ∧
        List.Forall₂ (fun member fact => ∀ other, (other ∈ facts ∧
          unifiable (memberQuery gather invocation.bindings member) other.predicate = true) ↔ other = fact)
            members entry.2

omit [DecidableEq V] in
theorem sealedMembers_ok {inputs : List (SolverFact V)} {members : List String}
    (h : sealedMembers operation gather inputs = .ok members) :
    ∃ collection : SolverFact V, inputs[gather.collection]? = some collection ∧
      FactValue.members collection.value = some (members.map some) ∧ members.Nodup ∧
        ∀ member ∈ members, isVariable member = false := by
  unfold sealedMembers at h
  split at h
  · cases h
  · rename_i listed hlisted
    obtain ⟨collection, hcollection, hmembers⟩ := Option.bind_eq_some_iff.mp hlisted
    split at h
    · cases h
    · rename_i htext
      split at h
      · cases h
      · rename_i hnodup
        cases h
        rw [Bool.not_eq_true, List.any_eq_false] at htext
        have hall : ∀ l : List (Option String), (∀ member ∈ l, ¬ member.all isVariable = true) →
            l = l.reduceOption.map some ∧ ∀ member ∈ l.reduceOption, isVariable member = false := by
          intro l
          induction l with
          | nil => exact fun _ => ⟨rfl, fun _ hmem => absurd hmem List.not_mem_nil⟩
          | cons member l ih =>
            intro hl
            obtain ⟨heq, hconst⟩ := ih fun other hother => hl other (List.mem_cons_of_mem _ hother)
            have hone := hl member List.mem_cons_self
            cases member with
            | none => exact absurd rfl hone
            | some text =>
              rw [List.reduceOption_cons_of_some, List.map_cons, ← heq]
              refine ⟨rfl, fun other hother => ?_⟩
              rcases List.mem_cons.mp hother with rfl | hmem
              · simpa using hone
              · exact hconst other hmem
        obtain ⟨heq, hconst⟩ := hall listed htext
        exact ⟨collection, hcollection, by rw [hmembers, ← heq], not_not.mp hnodup, hconst⟩

omit [DecidableEq V] in
theorem Gathered.named {entry : String × List (SolverFact V)}
    (h : Gathered facts operation invocation.bindings invocation.inputs gather entry) :
    NamedFacts facts invocation gather entry := by
  obtain ⟨hname, members, hseal, hanswered⟩ := h
  obtain ⟨collection, hcollection, hmembers, hnodup, -⟩ := sealedMembers_ok hseal
  refine ⟨hname, collection, members, hcollection, hmembers, hnodup, ?_⟩
  refine hanswered.imp fun member fact hone other => ?_
  rw [← mem_hits, hone, List.mem_singleton]

/-- An invocation as the port sees it. -/
structure HandedOver (program : ObservedProgram V) (s : Observed V) (invocation : SolverInvocation V) : Prop where
  fresh : invocation.id ∉ s.executed
  operation : ∃ operation ∈ program.operations, operation.id = invocation.operation ∧
    (operation.mode = some .effect → program.allowEffects = some true) ∧ operation.mode ≠ some .stream ∧
      operation.mode ≠ some .view ∧
        List.Forall₂ (NamedFacts s.facts invocation) (operation.gathers.getD []) invocation.gathers

/-- The state at the head of the loop. -/
structure TrueState (program : ObservedProgram V) (s : Observed V) : Prop where
  facts : ∀ fact, fact ∈ s.facts ↔ fact ∈ program.ingredients ∨ ∃ receipt ∈ s.receipts, fact ∈ receipt.facts
  one_content : ∀ a ∈ s.facts, ∀ b ∈ s.facts, a.id = b.id → a = b
  executed_once : s.executed.Nodup
  declared : ∀ entry ∈ s.accepted, ∃ operation ∈ program.operations, operation.id = entry.1.operation ∧
    ∀ fact ∈ entry.2.facts, ∃ predicate ∈ operation.declares entry.2.state,
      InstanceOf entry.1.bindings predicate fact

/-- The answer of a run. `ready` are the invocations its operations are ready for. -/
structure TrueResult (platform : SolverPlatform) (program : ObservedProgram V) (ready : SolverInvocation V → Prop)
    (s : Observed V) (result : ObservationRunResult V) : Prop where
  facts : result.facts = s.facts
  receipts : result.receipts = s.receipts
  goals : result.goalsSatisfied = true ↔ GoalsHold program s.facts
  complete : result.state = .complete → GoalsHold program s.facts ∧
    (program.completion ≠ some .goalOnly → (∀ invocation, ready invocation → invocation.id ∈ s.executed) ∧
      ∀ receipt ∈ s.receipts, receipt.state ≠ .failed)
  noRoute : result.state = .noRoute →
    (∀ invocation, ready invocation → invocation.id ∈ s.executed) ∧ ¬ GoalsHold program s.facts
  partly : result.state = .partly →
    (∀ invocation, ready invocation → invocation.id ∈ s.executed) ∧ GoalsHold program s.facts ∧
      ∃ receipt ∈ s.receipts, receipt.state = .failed
  /-- With a digest that keeps seeds apart an executed id is the execution of that invocation. -/
  exact : Function.Injective platform.solverIdentity → ∀ invocation, ready invocation →
    invocation.id ∈ s.executed → invocation ∈ s.accepted.map Prod.fst

def ReadyIn (platform : SolverPlatform) (program : ObservedProgram V) (operations : List SolverOperation)
    (facts : List (SolverFact V)) (invocation : SolverInvocation V) : Prop :=
  ∃ operation ∈ operations, operation.available ≠ some false ∧
    ReadyAt platform program.runId facts operation invocation

section Run
variable {platform : SolverPlatform} {program : ObservedProgram V} {operations : List SolverOperation}
  {s : Observed V}

theorem eq_of_map_eq {α β : Type} {f : α → β} {l l' : List α}
    (hinjective : ∀ a ∈ l, ∀ b ∈ l', f a = f b → a = b) (h : l.map f = l'.map f) : l = l' := by
  induction l generalizing l' with
  | nil => exact (List.map_eq_nil_iff.mp h.symm).symm
  | cons a l ih =>
    cases l' with
    | nil => cases h
    | cons b l' =>
      rw [List.map_cons, List.map_cons, List.cons.injEq] at h
      have hhead := hinjective a List.mem_cons_self b List.mem_cons_self h.1
      have htail := ih (fun a ha b hb => hinjective a (List.mem_cons_of_mem _ ha) b (List.mem_cons_of_mem _ hb)) h.2
      rw [hhead, htail]

variable {facts : List (SolverFact V)} {invocation : SolverInvocation V} {result : ObservationRunResult V}
  {P : SolverInvocation V → SolverReceipt V → Prop} {budget : ℕ}

omit [DecidableEq V] in
theorem ReadyAt.gathers_mem {runId : String} {operation : SolverOperation}
    (h : ReadyAt platform runId facts operation invocation) :
    ∀ entry ∈ invocation.gathers, ∀ fact ∈ entry.2, fact ∈ facts := by
  intro entry hentry fact hfact
  obtain ⟨gather, -, -, members, -, hanswered⟩ := forall₂_right h.gathered hentry
  obtain ⟨member, -, hone⟩ := forall₂_right hanswered hfact
  exact (mem_hits.1 (hone ▸ List.mem_cons_self)).1

omit [DecidableEq V] in
theorem ReadyIn.eq_of_id (hinjective : Function.Injective platform.solverIdentity)
    (hops : OperationsOf program operations) {earlier : List (SolverFact V)} (hdistinct : Distinct facts)
    (hgrow : ∀ fact ∈ earlier, fact ∈ facts) {a b : SolverInvocation V}
    (ha : ReadyIn platform program operations earlier a) (hb : ReadyIn platform program operations facts b)
    (hid : a.id = b.id) : a = b := by
  obtain ⟨operation, hop, -, hready⟩ := ha
  obtain ⟨operation', hop', -, hready'⟩ := hb
  have hseed := hinjective (hready.id_eq.symm.trans (hid.trans hready'.id_eq))
  unfold invocationSeed at hseed
  simp only [InvocationSeed.mk.injEq, true_and] at hseed
  obtain ⟨hname, hinputIds, hgatherIds⟩ := hseed
  have hsame : operation = operation' := hops.eq_of_id hop hop' hname
  subst hsame
  have hinputs : a.inputs = b.inputs := eq_of_map_eq (fun x hx y hy hxy =>
    hdistinct.eq_of_id (hgrow x (hready.inputs_mem x hx)) (hready'.inputs_mem y hy) hxy) hinputIds
  have hgathers : a.gathers = b.gathers := by
    refine eq_of_map_eq (fun x hx y hy hxy => ?_) hgatherIds
    rw [Prod.mk.injEq] at hxy
    refine Prod.ext hxy.1 (eq_of_map_eq (fun u hu v hv huv => ?_) hxy.2)
    exact hdistinct.eq_of_id (hgrow u (hready.gathers_mem x hx u hu)) (hready'.gathers_mem y hy v hv) huv
  have hbindings : a.bindings = b.bindings := by
    have hunified := hready.unified
    rw [hinputs, hready'.unified] at hunified
    exact (Option.some.inj hunified).symm
  obtain ⟨idA, nameA, bindingsA, inputsA, gathersA⟩ := a
  obtain ⟨idB, nameB, bindingsB, inputsB, gathersB⟩ := b
  have hnameA := hready.operation_eq
  have hnameB := hready'.operation_eq
  dsimp only at hid hinputs hgathers hbindings hnameA hnameB
  rw [hid, hinputs, hgathers, hbindings, hnameA, hnameB]

omit [DecidableEq V] in
theorem Called.readyIn (h : Called platform program operations s invocation) :
    ReadyIn platform program operations s.facts invocation := h.ready

/-! ## Every running state -/

theorem Running.trueState (hops : OperationsOf program operations) (h : Running platform program operations s) :
    TrueState program s := by
  refine ⟨h.mem_facts, fun a ha b hb => h.distinct.eq_of_id ha hb, h.executed_nodup, fun entry hentry => ?_⟩
  obtain ⟨earlier, -, hgrow, hcalled, hbelongs, hdeclared⟩ := h.executed_from entry hentry
  obtain ⟨operation, hop, -, hready⟩ := hcalled.ready
  refine ⟨operation, ((hops.mem operation).mp hop).1, hready.operation_eq.symm, fun fact hfact => ?_⟩
  obtain ⟨operation', hop', hname', predicate, hpredicate, hunifies⟩ := isDeclared_declares (hdeclared fact hfact)
  have hsame : operation' = operation := hops.eq_of_id hop' hop (hname'.trans hready.operation_eq)
  subst hsame
  refine ⟨predicate, hpredicate, (h.admissible fact ?_).ground, hunifies⟩
  exact (h.mem_facts fact).mpr (.inr ⟨entry.2, List.mem_map_of_mem hentry, hfact⟩)

theorem Running.handedOver (hops : OperationsOf program operations) (h : Running platform program operations s)
    (hcalled : Called platform program operations s invocation) : HandedOver program s invocation := by
  obtain ⟨operation, hop, -, hready⟩ := hcalled.ready
  obtain ⟨hmem, hmode⟩ := (hops.mem operation).mp hop
  refine ⟨fun hexecuted => hcalled.fresh ((h.mem_completed _).mpr hexecuted), operation, hmem,
    hready.operation_eq.symm, ?_⟩
  have hgathered := hready.gathered.imp fun gather entry hone => Gathered.named hone
  unfold admittedMode at hmode
  split at hmode
  · rename_i heffect
    refine ⟨fun _ => by simpa using hmode, ?_, ?_, hgathered⟩
    · rw [heffect]
      simp
    · rw [heffect]
      simp
  · rename_i heffect
    rw [Bool.and_eq_true, bne_iff_ne, bne_iff_ne] at hmode
    exact ⟨fun h => absurd h heffect, hmode.1, hmode.2, hgathered⟩

theorem Running.trueResult (hops : OperationsOf program operations) (h : Running platform program operations s)
    {aborted : Bool} (hended : turn platform program operations aborted s = .ended result) :
    TrueResult platform program (ReadyIn platform program operations s.facts) s result := by
  have hexact : Function.Injective platform.solverIdentity → ∀ invocation,
      ReadyIn platform program operations s.facts invocation → invocation.id ∈ s.executed →
        invocation ∈ s.accepted.map Prod.fst := by
    intro hinjective invocation hready hid
    obtain ⟨entry, hentry, hsame⟩ := List.mem_map.mp hid
    obtain ⟨earlier, -, hgrow, hcalled, -⟩ := h.executed_from entry hentry
    have heq := hcalled.readyIn.eq_of_id hinjective hops h.distinct hgrow hready hsame
    exact heq ▸ List.mem_map_of_mem hentry
  have hall : AllCompleted platform program operations s → ∀ invocation,
      ReadyIn platform program operations s.facts invocation → invocation.id ∈ s.executed := by
    intro hcompleted invocation hready
    obtain ⟨operation, hop, hon, hat⟩ := hready
    exact (h.mem_completed _).mp (hcompleted operation hop hon invocation hat)
  rcases turn_ended hended with ⟨rfl, -⟩ | ⟨rfl, hgoalOnly, hgoals⟩ | rfl | ⟨rfl, hcompleted, -⟩
  · exact ⟨rfl, rfl, goalsSatisfied_iff, nofun, nofun, nofun, hexact⟩
  · exact ⟨rfl, rfl, goalsSatisfied_iff, fun _ => ⟨goalsSatisfied_iff.1 hgoals, fun hne => absurd hgoalOnly hne⟩,
      nofun, nofun, hexact⟩
  · exact ⟨rfl, rfl, goalsSatisfied_iff, nofun, nofun, nofun, hexact⟩
  · have hready := hall hcompleted
    have hstate : (s.result program (exhausted program s)).state = exhausted program s := rfl
    refine ⟨rfl, rfl, goalsSatisfied_iff, fun hcomplete => ?_, fun hnoRoute => ?_, fun hpartly => ?_, hexact⟩
    · rw [hstate] at hcomplete
      unfold exhausted at hcomplete
      split at hcomplete
      · cases hcomplete
      · rename_i hgoals
        split at hcomplete
        · cases hcomplete
        · rename_i hfailed
          refine ⟨goalsSatisfied_iff.1 (not_not.mp hgoals), fun _ => ⟨hready, fun receipt hreceipt heq => hfailed ?_⟩⟩
          exact List.any_eq_true.mpr ⟨receipt, hreceipt, by simpa using heq⟩
    · rw [hstate] at hnoRoute
      unfold exhausted at hnoRoute
      split at hnoRoute
      · rename_i hgoals
        exact ⟨hready, fun hhold => hgoals (goalsSatisfied_iff.2 hhold)⟩
      · split at hnoRoute <;> cases hnoRoute
    · rw [hstate] at hpartly
      unfold exhausted at hpartly
      split at hpartly
      · cases hpartly
      · rename_i hgoals
        split at hpartly
        · rename_i hfailed
          obtain ⟨receipt, hreceipt, heq⟩ := List.any_eq_true.mp hfailed
          exact ⟨hready, goalsSatisfied_iff.1 (not_not.mp hgoals), receipt, hreceipt, by simpa using heq⟩
        · cases hpartly

/-! ## The loop goes through running states -/

variable {Host : Type} {port : ObservationExecutionPort V Host}

theorem observe_running
    (hport : ∀ invocation host receipt host', port.call invocation host = (.ok receipt, host') → P invocation receipt)
    {host host' : Host} (hs : Running platform program operations s) (hall : ∀ entry ∈ s.accepted, P entry.1 entry.2)
    (h : observe platform program operations port budget s host = some (.ok result, host')) :
    ∃ (last : Observed V) (aborted : Bool), Running platform program operations last ∧
      turn platform program operations aborted last = .ended result ∧ ∀ entry ∈ last.accepted, P entry.1 entry.2 := by
  induction budget generalizing s host with
  | zero => cases h
  | succ budget ih =>
    unfold observe at h
    split at h
    · rename_i hturn
      cases h
      exact ⟨s, _, hs, hturn, hall⟩
    · cases h
    · rename_i invocation hturn
      split at h
      · cases h
      · rename_i receipt host₁ hcall
        split at h
        · cases h
        · rename_i s' haccept
          refine ih (.next hs hturn haccept) (fun entry hentry => ?_) h
          rw [(accept_ok haccept).accepted, List.mem_append, List.mem_singleton] at hentry
          rcases hentry with hold | rfl
          · exact hall entry hold
          · exact hport _ _ _ _ hcall

theorem executeObservedProgram_running
    (hport : ∀ invocation host receipt host', port.call invocation host = (.ok receipt, host') → P invocation receipt)
    {host host' : Host} (hops : admittedOperations platform.toLocale program = .ok operations)
    (h : executeObservedProgram platform program port budget host = some (.ok result, host')) :
    ∃ (last : Observed V) (aborted : Bool), Running platform program operations last ∧
      turn platform program operations aborted last = .ended result ∧ ∀ entry ∈ last.accepted, P entry.1 entry.2 := by
  unfold executeObservedProgram at h
  rw [hops] at h
  dsimp only at h
  split at h
  · cases h
  · rename_i facts hfacts
    exact observe_running hport (.start hfacts) (fun _ hentry => absurd hentry List.not_mem_nil) h

end Run

/-! ## A program of one operation -/

namespace OneReader

/-- Values without members. -/
instance : FactValue ℕ := ⟨fun _ => .ok (), fun _ => none⟩

def platform : SolverPlatform where
  localeCompare := fun _ _ => .eq
  consistent := { eq_swap := rfl, isLE_trans := fun _ _ => rfl }
  solverIdentity := fun seed => seed.operation ++ ":" ++ ",".intercalate seed.inputs

def readOperation : SolverOperation where
  id := "read"
  actor := "reader"
  method := "read"
  requires := ["file(F)"]
  produces := ["text(F)"]
  cost := none
  available := none
  mode := none
  inputSlots := none
  outputSlots := none
  gathers := none
  failureProduces := some ["unreadable(F)"]

def program : ObservedProgram ℕ where
  runId := "run"
  operations := [readOperation]
  ingredients := [⟨"one", "file(one)", 1⟩]
  goals := some ["text(T)"]
  completion := none
  maxInvocations := none
  maxSearchAttempts := none
  allowEffects := none

def textOfOne : SolverFact ℕ := ⟨"text", "text(one)", 2⟩

/-- A port that reads every file. -/
def port : ObservationExecutionPort ℕ Unit where
  lookup := fun _ host => (.ok none, host)
  invoke := fun invocation host => (.ok ⟨invocation.id, invocation.operation, .succeeded, [textOfOne], none⟩, host)
  aborted := fun _ => false

def result : ObservationRunResult ℕ where
  state := .complete
  facts := program.ingredients ++ [textOfOne]
  receipts := [⟨"read:one", "read", .succeeded, [textOfOne], none⟩]
  goalsSatisfied := true

end OneReader

end AvenOS.Actors
