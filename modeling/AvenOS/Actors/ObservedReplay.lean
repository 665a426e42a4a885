import AvenOS.Actors.ObservedTruth

/-! # Runs that are cut and repeated

A port keeps the receipts it committed. However often a run over it is cut, by an exception of the port before or
after a receipt is stored, by the signal or by a limit, the next run looks the stored receipts up: every invocation
is executed once, and a run that is not cut answers what one uninterrupted run answers. -/
namespace AvenOS.Actors
open ExceptLoop

variable {V : Type} [FactValue V] [DecidableEq V]

/-! ## Durable ports -/

inductive Invoked (stored : String → Option (SolverReceipt V)) (executed : List String) (id : String)
    (receipt : SolverReceipt V) (stored' : String → Option (SolverReceipt V)) (executed' : List String) :
    Except String (SolverReceipt V) → Prop
  /-- It threw before anything was committed. -/
  | before (complaint : String) (hstored : stored' = stored) (hexecuted : executed' = executed) :
    Invoked stored executed id receipt stored' executed' (.error complaint)
  /-- The operation was executed and its receipt stored, if there was none; then it returned or threw. -/
  | committed (answer : Except String (SolverReceipt V))
    (hstored : stored' = fun other => if other = id then some ((stored id).getD receipt) else stored other)
    (hexecuted : executed' = executed ++ [id])
    (hanswer : answer = .ok ((stored id).getD receipt) ∨ ∃ complaint, answer = .error complaint) :
    Invoked stored executed id receipt stored' executed' answer

/-- A port over a store of receipts. `results` are the receipts of its operations; `executed` are the executions it
has committed, in their order. -/
structure DurablePort (V Host : Type) (results : SolverInvocation V → SolverReceipt V)
    extends ObservationExecutionPort V Host where
  stored : Host → String → Option (SolverReceipt V)
  executed : Host → List String
  lookup_answer : ∀ invocation host, (lookup invocation host).1 = .ok (stored host invocation.id) ∨
    ∃ complaint, (lookup invocation host).1 = .error complaint
  lookup_kept : ∀ invocation host, stored (lookup invocation host).2 = stored host ∧
    executed (lookup invocation host).2 = executed host
  invoked : ∀ invocation host, Invoked (stored host) (executed host) invocation.id (results invocation)
    (stored (invoke invocation host).2) (executed (invoke invocation host).2) (invoke invocation host).1

variable {Host : Type} {results : SolverInvocation V → SolverReceipt V}

def ObservedProgram.withLimit (program : ObservedProgram V) (maxInvocations : Option Limit) : ObservedProgram V :=
  { program with maxInvocations := maxInvocations }

/-- The hosts that attempts of one program may start from: a store without receipts, and whatever a cut run left of
it, in a host that has been started again. -/
inductive Attempted (platform : SolverPlatform) (program : ObservedProgram V) (port : DurablePort V Host results) :
    Host → Prop
  | fresh {host : Host} (hstored : port.stored host = fun _ => none) (hexecuted : port.executed host = []) :
    Attempted platform program port host
  | again {host left restarted : Host} {maxInvocations : Option Limit} {budget : ℕ} {outcome : Outcome V}
    (hhost : Attempted platform program port host)
    (hrun : executeObservedProgram platform (program.withLimit maxInvocations) port.toObservationExecutionPort budget
      host = some (outcome, left))
    (hstored : port.stored restarted = port.stored left) (hexecuted : port.executed restarted = port.executed left) :
    Attempted platform program port restarted

/-- A run to its end: the port threw nothing and the signal was not given. -/
def Uncut (outcome : Outcome V) : Prop :=
  (∀ complaint, outcome ≠ .error (.port complaint)) ∧ ∀ result, outcome = .ok result → result.state ≠ .cancelled

def uninterrupted (results : SolverInvocation V → SolverReceipt V) : ObservationExecutionPort V Unit where
  lookup := fun _ host => (.ok none, host)
  invoke := fun invocation host => (.ok (results invocation), host)
  aborted := fun _ => false

/-! ## One round over a port -/

section Rounds
variable {platform : SolverPlatform} {program : ObservedProgram V} {operations : List SolverOperation}
  {port : ObservationExecutionPort V Host} {budget : ℕ} {s s' : Observed V} {host host' : Host}

omit [DecidableEq V] in
theorem turn_aborted (platform : SolverPlatform) (program : ObservedProgram V) (operations : List SolverOperation)
    (s : Observed V) : turn platform program operations true s = .ended (s.result program .cancelled) := by
  unfold turn
  rw [if_pos rfl]

theorem observe_ended {result : ObservationRunResult V}
    (hturn : turn platform program operations (port.aborted host) s = .ended result) :
    observe platform program operations port (budget + 1) s host = some (.ok result, host) := by
  unfold observe
  rw [hturn]

theorem observe_threw {e : ObservationError}
    (hturn : turn platform program operations (port.aborted host) s = .threw e) :
    observe platform program operations port (budget + 1) s host = some (.error e, host) := by
  unfold observe
  rw [hturn]

section Called
variable {invocation : SolverInvocation V} {receipt : SolverReceipt V}
  (hturn : turn platform program operations (port.aborted host) s = .call invocation)
include hturn

theorem observe_lost {complaint : String} (hcall : port.call invocation host = (.error complaint, host')) :
    observe platform program operations port (budget + 1) s host = some (.error (.port complaint), host') := by
  unfold observe
  rw [hturn]
  dsimp only
  rw [hcall]

theorem observe_refused {e : ObservationError} (hcall : port.call invocation host = (.ok receipt, host'))
    (haccept : accept operations s invocation receipt = .error e) :
    observe platform program operations port (budget + 1) s host = some (.error e, host') := by
  unfold observe
  rw [hturn]
  dsimp only
  rw [hcall]
  dsimp only
  rw [haccept]

theorem observe_accepted (hcall : port.call invocation host = (.ok receipt, host'))
    (haccept : accept operations s invocation receipt = .ok s') :
    observe platform program operations port (budget + 1) s host =
      observe platform program operations port budget s' host' := by
  conv_lhs => unfold observe
  rw [hturn]
  dsimp only
  rw [hcall]
  dsimp only
  rw [haccept]

end Called

end Rounds

/-! ## The invocations an uninterrupted run makes -/

section Trace
variable {platform : SolverPlatform} {program : ObservedProgram V} {operations : List SolverOperation}
  {results : SolverInvocation V → SolverReceipt V} {facts : List (SolverFact V)}

/-- The state after the receipts of some invocations, each the next one where no limit cuts the run. -/
inductive Trace (platform : SolverPlatform) (program : ObservedProgram V) (operations : List SolverOperation)
    (results : SolverInvocation V → SolverReceipt V) (facts : List (SolverFact V)) :
    List (SolverInvocation V) → Observed V → Prop
  | nil : Trace platform program operations results facts [] ⟨facts, [], []⟩
  | concat {invocations : List (SolverInvocation V)} {s s' : Observed V} {invocation : SolverInvocation V}
    (htrace : Trace platform program operations results facts invocations s)
    (hturn : turn platform (program.withLimit (some ⊤)) operations false s = .call invocation)
    (haccept : accept operations s invocation (results invocation) = .ok s') :
    Trace platform program operations results facts (invocations ++ [invocation]) s'

/-- The invocations of a trace, and perhaps the next one. -/
def Issued (platform : SolverPlatform) (program : ObservedProgram V) (operations : List SolverOperation)
    (results : SolverInvocation V → SolverReceipt V) (facts : List (SolverFact V))
    (issued : List (SolverInvocation V)) : Prop :=
  issued = [] ∨ ∃ invocations invocation s, issued = invocations ++ [invocation] ∧
    Trace platform program operations results facts invocations s ∧
      turn platform (program.withLimit (some ⊤)) operations false s = .call invocation

variable {s : Observed V} {invocation : SolverInvocation V} {l front rest : List (SolverInvocation V)}

omit [DecidableEq V] in
theorem turn_withLimit {maxInvocations : Option Limit} {aborted : Bool}
    (h : turn platform (program.withLimit maxInvocations) operations aborted s = .call invocation) :
    turn platform (program.withLimit (some ⊤)) operations false s = .call invocation := by
  obtain ⟨-, hgoal, hfrontier, -⟩ := turn_call_iff.1 h
  exact turn_call_iff.2 ⟨rfl, hgoal, hfrontier, WithTop.coe_lt_top _⟩

theorem Trace.eq_of_length {l' : List (SolverInvocation V)} {s' : Observed V}
    (h : Trace platform program operations results facts l s)
    (h' : Trace platform program operations results facts l' s') (hlength : l.length = l'.length) :
    l = l' ∧ s = s' := by
  induction h generalizing l' s' with
  | nil =>
    cases h' with
    | nil => exact ⟨rfl, rfl⟩
    | concat => simp at hlength
  | concat htrace hturn haccept ih =>
    cases h' with
    | nil => simp at hlength
    | concat htrace' hturn' haccept' =>
      rw [List.length_append, List.length_append] at hlength
      obtain ⟨rfl, rfl⟩ := ih htrace' (Nat.add_right_cancel hlength)
      rw [hturn] at hturn'
      cases hturn'
      rw [haccept] at haccept'
      cases haccept'
      exact ⟨rfl, rfl⟩

theorem Trace.split (h : Trace platform program operations results facts l s) (hl : l = front ++ invocation :: rest) :
    ∃ middle, Trace platform program operations results facts front middle ∧
      turn platform (program.withLimit (some ⊤)) operations false middle = .call invocation := by
  induction h generalizing rest with
  | nil => simp at hl
  | @concat invocations before after last htrace hturn haccept ih =>
    rcases List.eq_nil_or_concat rest with rfl | ⟨rest', other, rfl⟩
    · obtain ⟨rfl, hlast⟩ := List.append_inj' hl rfl
      cases hlast
      exact ⟨before, htrace, hturn⟩
    · rw [List.concat_eq_append, ← List.cons_append, ← List.append_assoc] at hl
      exact ih (List.append_inj' hl rfl).1

theorem Issued.split (h : Issued platform program operations results facts (front ++ invocation :: rest)) :
    ∃ middle, Trace platform program operations results facts front middle ∧
      turn platform (program.withLimit (some ⊤)) operations false middle = .call invocation := by
  rcases h with hnil | ⟨invocations, last, s, heq, htrace, hturn⟩
  · simp at hnil
  · rcases List.eq_nil_or_concat rest with rfl | ⟨rest', other, rfl⟩
    · obtain ⟨rfl, hlast⟩ := List.append_inj' heq rfl
      cases hlast
      exact ⟨s, htrace, hturn⟩
    · rw [List.concat_eq_append, ← List.cons_append, ← List.append_assoc] at heq
      exact htrace.split (List.append_inj' heq rfl).1.symm

theorem Trace.completed (h : Trace platform program operations results facts l s) (id : String) :
    id ∈ s.completed ↔ id ∈ l.map SolverInvocation.id := by
  induction h with
  | nil => exact Iff.rfl
  | concat htrace hturn haccept ih =>
    rw [(accept_ok haccept).completed, List.mem_cons, ih, List.map_append, List.mem_append, List.map_singleton,
      List.mem_singleton]
    exact or_comm

theorem Trace.fresh (h : Trace platform program operations results facts l s)
    (hturn : turn platform (program.withLimit (some ⊤)) operations false s = .call invocation) :
    invocation.id ∉ l.map SolverInvocation.id := fun hmem =>
  (turn_call hturn).2.fresh ((h.completed _).mpr hmem)

theorem nodup_concat {α : Type} {l : List α} {a : α} (hl : l.Nodup) (ha : a ∉ l) : (l ++ [a]).Nodup := by
  rw [List.nodup_append]
  refine ⟨hl, List.nodup_singleton _, fun b hb c hc => ?_⟩
  rw [List.mem_singleton.mp hc]
  exact fun heq => ha (heq ▸ hb)

theorem Trace.ids_nodup (h : Trace platform program operations results facts l s) :
    (l.map SolverInvocation.id).Nodup := by
  induction h with
  | nil => exact List.nodup_nil
  | concat htrace hturn haccept ih =>
    rw [List.map_append]
    exact nodup_concat ih (htrace.fresh hturn)

theorem Issued.ids_nodup {issued : List (SolverInvocation V)}
    (h : Issued platform program operations results facts issued) : (issued.map SolverInvocation.id).Nodup := by
  rcases h with rfl | ⟨invocations, last, s, rfl, htrace, hturn⟩
  · exact List.nodup_nil
  · rw [List.map_append]
    exact nodup_concat htrace.ids_nodup (htrace.fresh hturn)

end Trace

/-! ## One call over a store -/

section Store
variable {platform : SolverPlatform} {program : ObservedProgram V} {operations : List SolverOperation}
  {facts : List (SolverFact V)} {port : DurablePort V Host results}

/-- The store holds the receipts of these invocations, each executed once and in this order. -/
structure StoreIs (port : DurablePort V Host results) (host : Host) (issued : List (SolverInvocation V)) : Prop where
  executed : port.executed host = issued.map SolverInvocation.id
  stored : ∀ id, port.stored host id = (issued.find? fun invocation => invocation.id == id).map results

variable {trace issued : List (SolverInvocation V)} {s : Observed V} {host left : Host} {maxInvocations : Option Limit}
  {budget : ℕ} {outcome : Outcome V}

theorem call_spec {invocation : SolverInvocation V} (htrace : Trace platform program operations results facts trace s)
    (hissued : Issued platform program operations results facts issued) (hbegins : trace <+: issued)
    (hstore : StoreIs port host issued)
    (hturn : turn platform (program.withLimit (some ⊤)) operations false s = .call invocation) :
    ∃ issued', Issued platform program operations results facts issued' ∧
      StoreIs port (port.call invocation host).2 issued' ∧
      (((port.call invocation host).1 = .ok (results invocation) ∧ trace ++ [invocation] <+: issued') ∨
        ∃ complaint, (port.call invocation host).1 = .error complaint) := by
  have hfresh := htrace.fresh hturn
  obtain ⟨hlookupStored, hlookupExecuted⟩ := port.lookup_kept invocation host
  have hkept : StoreIs port (port.lookup invocation host).2 issued :=
    ⟨hlookupExecuted.trans hstore.executed, fun id => by rw [hlookupStored]; exact hstore.stored id⟩
  unfold ObservationExecutionPort.call
  obtain ⟨rest, hrest⟩ := hbegins
  rcases port.lookup_answer invocation host with hanswer | ⟨complaint, hanswer⟩
  · cases rest with
    | nil =>
      -- the store knows nothing of the invocation
      rw [List.append_nil] at hrest
      subst hrest
      have hnone : port.stored host invocation.id = none := by
        rw [hstore.stored, Option.map_eq_none_iff, List.find?_eq_none]
        intro other hother heq
        exact hfresh (List.mem_map.mpr ⟨other, hother, by simpa using heq⟩)
      rw [hnone] at hanswer
      rw [show port.lookup invocation host = (.ok none, (port.lookup invocation host).2) from Prod.ext hanswer rfl]
      dsimp only
      generalize (port.lookup invocation host).2 = host₁ at hkept hlookupStored
      have hnext : Issued platform program operations results facts (trace ++ [invocation]) :=
        .inr ⟨trace, invocation, s, rfl, htrace, hturn⟩
      have hinvoked := port.invoked invocation host₁
      have hnone₁ : port.stored host₁ invocation.id = none := by rw [hlookupStored, hnone]
      generalize port.invoke invocation host₁ = answered at hinvoked ⊢
      obtain ⟨answer, host₂⟩ := answered
      dsimp only at hinvoked ⊢
      cases hinvoked with
      | before complaint hstored hexecuted =>
        exact ⟨trace, hissued, ⟨hexecuted.trans hkept.executed, fun id => by rw [hstored]; exact hkept.stored id⟩,
          .inr ⟨complaint, rfl⟩⟩
      | committed _ hstored hexecuted hanswer =>
        rw [hnone₁] at hstored hanswer
        refine ⟨trace ++ [invocation], hnext, ⟨?_, fun id => ?_⟩, ?_⟩
        · rw [hexecuted, hkept.executed, List.map_append, List.map_singleton]
        · rw [hstored, List.find?_append]
          dsimp only
          by_cases hid : id = invocation.id
          · have hmissing : (trace.find? fun other => other.id == id) = none := by
              rw [List.find?_eq_none]
              intro other hother heq
              have heq' : other.id = id := by simpa using heq
              exact hfresh (List.mem_map.mpr ⟨other, hother, heq'.trans hid⟩)
            rw [if_pos hid, hmissing, hid]
            simp
          · have hother : ([invocation].find? fun other => other.id == id) = none := by
              simp [Ne.symm hid]
            rw [if_neg hid, hother, Option.or_none]
            exact hkept.stored id
        · exact hanswer.imp (fun hok => ⟨hok, List.prefix_rfl⟩) id
    | cons next rest =>
      -- the invocation was issued before, so its receipt is stored
      subst hrest
      obtain ⟨middle, hmiddle, hmiddleTurn⟩ := hissued.split
      obtain ⟨-, rfl⟩ := htrace.eq_of_length hmiddle rfl
      rw [hturn] at hmiddleTurn
      cases hmiddleTurn
      have hsome : port.stored host invocation.id = some (results invocation) := by
        have hmissing : (trace.find? fun other => other.id == invocation.id) = none := by
          rw [List.find?_eq_none]
          intro other hother heq
          exact hfresh (List.mem_map.mpr ⟨other, hother, by simpa using heq⟩)
        rw [hstore.stored, List.find?_append, hmissing, Option.none_or, List.find?_cons_of_pos (by simp)]
        rfl
      rw [hsome] at hanswer
      rw [show port.lookup invocation host = (.ok (some (results invocation)), (port.lookup invocation host).2) from
        Prod.ext hanswer rfl]
      exact ⟨_, hissued, hkept, .inl ⟨rfl, ⟨rest, by simp⟩⟩⟩
  · rw [show port.lookup invocation host = (.error complaint, (port.lookup invocation host).2) from
      Prod.ext hanswer rfl]
    exact ⟨issued, hissued, hkept, .inr ⟨complaint, rfl⟩⟩

/-- A run over a store that holds what was issued: the store stays so, and a run that is not cut is the
uninterrupted one. -/
theorem observe_replays (htrace : Trace platform program operations results facts trace s)
    (hissued : Issued platform program operations results facts issued) (hbegins : trace <+: issued)
    (hstore : StoreIs port host issued)
    (h : observe platform (program.withLimit maxInvocations) operations port.toObservationExecutionPort budget s host =
      some (outcome, left)) :
    (∃ issued', Issued platform program operations results facts issued' ∧ StoreIs port left issued') ∧
      (Uncut outcome → observe platform (program.withLimit maxInvocations) operations (uninterrupted results) budget s
        () = some (outcome, ())) := by
  induction budget generalizing trace issued s host with
  | zero => cases h
  | succ budget ih =>
    cases haborted : port.aborted host with
    | true =>
      rw [observe_ended (by rw [haborted]; exact turn_aborted _ _ _ _)] at h
      cases h
      exact ⟨⟨issued, hissued, hstore⟩, fun huncut => absurd rfl (huncut.2 _ rfl)⟩
    | false =>
      cases hturn : turn platform (program.withLimit maxInvocations) operations false s with
      | ended result =>
        rw [observe_ended (by rw [haborted]; exact hturn)] at h
        cases h
        exact ⟨⟨issued, hissued, hstore⟩, fun _ => observe_ended hturn⟩
      | threw e =>
        rw [observe_threw (by rw [haborted]; exact hturn)] at h
        cases h
        exact ⟨⟨issued, hissued, hstore⟩, fun _ => observe_threw hturn⟩
      | call invocation =>
        have hunlimited := turn_withLimit hturn
        have hturn' : turn platform (program.withLimit maxInvocations) operations (port.aborted host) s =
            .call invocation := by rw [haborted]; exact hturn
        obtain ⟨issued', hissued', hstore', hanswer⟩ := call_spec htrace hissued hbegins hstore hunlimited
        cases hcall : port.call invocation host with
        | mk answer host₁ =>
          rw [hcall] at hstore' hanswer
          dsimp only at hstore' hanswer
          rcases hanswer with ⟨rfl, hbegins'⟩ | ⟨complaint, rfl⟩
          · cases haccept : accept operations s invocation (results invocation) with
            | error e =>
              rw [observe_refused hturn' hcall haccept] at h
              cases h
              exact ⟨⟨issued', hissued', hstore'⟩, fun _ => observe_refused hturn rfl haccept⟩
            | ok s' =>
              rw [observe_accepted hturn' hcall haccept] at h
              have hnext : observe platform (program.withLimit maxInvocations) operations (uninterrupted results)
                  (budget + 1) s () = observe platform (program.withLimit maxInvocations) operations
                    (uninterrupted results) budget s' () := observe_accepted hturn rfl haccept
              rw [hnext]
              exact ih (.concat htrace hunlimited haccept) hissued' hbegins' hstore' h
          · rw [observe_lost hturn' hcall] at h
            cases h
            exact ⟨⟨issued', hissued', hstore'⟩, fun huncut => absurd rfl (huncut.1 complaint)⟩

theorem execute_replays (hops : admittedOperations platform.toLocale program = .ok operations)
    (hfacts : program.ingredients.foldlM admitFact [] = .ok facts)
    (hissued : Issued platform program operations results facts issued) (hstore : StoreIs port host issued)
    (h : executeObservedProgram platform (program.withLimit maxInvocations) port.toObservationExecutionPort budget host =
      some (outcome, left)) :
    (∃ issued', Issued platform program operations results facts issued' ∧ StoreIs port left issued') ∧
      (Uncut outcome → executeObservedProgram platform (program.withLimit maxInvocations) (uninterrupted results) budget
        () = some (outcome, ())) := by
  have hops' : admittedOperations platform.toLocale (program.withLimit maxInvocations) = .ok operations := hops
  have hfacts' : (program.withLimit maxInvocations).ingredients.foldlM admitFact [] = .ok facts := hfacts
  unfold executeObservedProgram at h ⊢
  rw [hops'] at h ⊢
  dsimp only at h ⊢
  rw [hfacts'] at h ⊢
  exact observe_replays .nil hissued (List.nil_prefix) hstore h

theorem Attempted.stored (h : Attempted platform program port host)
    (hops : admittedOperations platform.toLocale program = .ok operations)
    (hfacts : program.ingredients.foldlM admitFact [] = .ok facts) :
    ∃ issued, Issued platform program operations results facts issued ∧ StoreIs port host issued := by
  induction h with
  | fresh hstored hexecuted =>
    exact ⟨[], .inl rfl, hexecuted, fun id => by rw [hstored]; rfl⟩
  | again hhost hrun hstored hexecuted ih =>
    obtain ⟨issued, hissued, hstore⟩ := ih
    obtain ⟨⟨issued', hissued', hstore'⟩, -⟩ := execute_replays hops hfacts hissued hstore hrun
    exact ⟨issued', hissued', hexecuted.trans hstore'.executed, fun id => by rw [hstored]; exact hstore'.stored id⟩

end Store

/-- A program whose operations or ingredients are refused calls its port never. -/
def Refused (platform : SolverPlatform) (program : ObservedProgram V) (e : ObservationError) : Prop :=
  admittedOperations platform.toLocale program = .error e ∨ ∃ operations,
    admittedOperations platform.toLocale program = .ok operations ∧
      program.ingredients.foldlM admitFact [] = .error e

variable {platform : SolverPlatform} {program : ObservedProgram V} {e : ObservationError}

theorem Refused.execute (h : Refused platform program e) (maxInvocations : Option Limit) {Other : Type}
    (port : ObservationExecutionPort V Other) (budget : ℕ) (host : Other) :
    executeObservedProgram platform (program.withLimit maxInvocations) port budget host = some (.error e, host) := by
  unfold executeObservedProgram
  rcases h with hops | ⟨operations, hops, hfacts⟩
  · have hops' : admittedOperations platform.toLocale (program.withLimit maxInvocations) = .error e := hops
    rw [hops']
  · have hops' : admittedOperations platform.toLocale (program.withLimit maxInvocations) = .ok operations := hops
    have hfacts' : (program.withLimit maxInvocations).ingredients.foldlM admitFact [] = .error e := hfacts
    rw [hops']
    dsimp only
    rw [hfacts']

theorem Refused.attempted (h : Refused platform program e) {port : DurablePort V Host results} {host : Host}
    (hattempted : Attempted platform program port host) : port.executed host = [] := by
  induction hattempted with
  | fresh hstored hexecuted => exact hexecuted
  | again hhost hrun hstored hexecuted ih =>
    rw [h.execute] at hrun
    cases hrun
    exact hexecuted.trans ih

theorem refused_or (platform : SolverPlatform) (program : ObservedProgram V) :
    (∃ e, Refused platform program e) ∨ ∃ operations facts,
      admittedOperations platform.toLocale program = .ok operations ∧
        program.ingredients.foldlM admitFact [] = .ok facts := by
  cases hops : admittedOperations platform.toLocale program with
  | error e => exact .inl ⟨e, .inl hops⟩
  | ok operations =>
    cases hfacts : program.ingredients.foldlM admitFact [] with
    | error e => exact .inl ⟨e, .inr ⟨operations, hops, hfacts⟩⟩
    | ok facts => exact .inr ⟨operations, facts, rfl, rfl⟩

/-- After any attempts, each invocation has been executed at most once, and a run that is not cut ends as one
uninterrupted run with the same results does. -/
theorem replayed_run (platform : SolverPlatform) (program : ObservedProgram V)
    (results : SolverInvocation V → SolverReceipt V) (port : DurablePort V Host results) {host left : Host}
    (hattempted : Attempted platform program port host) {budget : ℕ} {outcome : Outcome V}
    (hrun : executeObservedProgram platform program port.toObservationExecutionPort budget host = some (outcome, left)) :
    (port.executed left).Nodup ∧ (Uncut outcome →
      executeObservedProgram platform program (uninterrupted results) budget () = some (outcome, ())) := by
  change executeObservedProgram platform (program.withLimit program.maxInvocations) _ budget host = _ at hrun
  show _ ∧ (_ → executeObservedProgram platform (program.withLimit program.maxInvocations) _ budget () = _)
  rcases refused_or platform program with ⟨e, hrefused⟩ | ⟨operations, facts, hops, hfacts⟩
  · have hempty := hrefused.attempted hattempted
    rw [hrefused.execute] at hrun
    cases hrun
    rw [hempty, hrefused.execute]
    exact ⟨List.nodup_nil, fun _ => rfl⟩
  · obtain ⟨issued, hissued, hstore⟩ := hattempted.stored hops hfacts
    obtain ⟨⟨issued', hissued', hstore'⟩, hsame⟩ := execute_replays hops hfacts hissued hstore hrun
    rw [hstore'.executed]
    exact ⟨hissued'.ids_nodup, hsame⟩

/-! ## A reader that loses its first answer -/

namespace TornReader

structure Store where
  receipts : List (String × SolverReceipt ℕ)
  executed : List String
  /-- Answers are lost after the commit. -/
  torn : Bool
deriving DecidableEq

def readOne (invocation : SolverInvocation ℕ) : SolverReceipt ℕ :=
  ⟨invocation.id, invocation.operation, .succeeded, [OneReader.textOfOne], none⟩

def commit (invocation : SolverInvocation ℕ) (store : Store) : Store :=
  { store with
    receipts := if (store.receipts.lookup invocation.id).isSome then store.receipts
      else (invocation.id, readOne invocation) :: store.receipts
    executed := store.executed ++ [invocation.id] }

def answer (invocation : SolverInvocation ℕ) (store : Store) : Except String (SolverReceipt ℕ) :=
  if store.torn then .error "lost" else .ok ((store.receipts.lookup invocation.id).getD (readOne invocation))

theorem commit_stored (invocation : SolverInvocation ℕ) (store : Store) :
    (fun id => (commit invocation store).receipts.lookup id) = fun other => if other = invocation.id then
      some ((store.receipts.lookup invocation.id).getD (readOne invocation)) else store.receipts.lookup other := by
  funext other
  unfold commit
  dsimp only
  cases hfound : store.receipts.lookup invocation.id with
  | some receipt =>
    rw [Option.isSome_some, if_pos rfl]
    by_cases hid : other = invocation.id
    · rw [if_pos hid, hid, hfound]
      rfl
    · rw [if_neg hid]
  | none =>
    rw [if_neg (by simp), List.lookup_cons]
    by_cases hid : other = invocation.id
    · rw [if_pos hid, hid, beq_self_eq_true]
      rfl
    · rw [if_neg hid, beq_false_of_ne hid]

def port : DurablePort ℕ Store readOne where
  lookup := fun invocation store => (.ok (store.receipts.lookup invocation.id), store)
  invoke := fun invocation store => (answer invocation store, commit invocation store)
  aborted := fun _ => false
  stored := fun store id => store.receipts.lookup id
  executed := fun store => store.executed
  lookup_answer := fun _ _ => Or.inl rfl
  lookup_kept := fun _ _ => ⟨rfl, rfl⟩
  invoked := by
    intro invocation store
    refine .committed _ (commit_stored invocation store) rfl ?_
    show answer invocation store = _ ∨ _
    unfold answer
    cases store.torn with
    | true => exact Or.inr ⟨"lost", rfl⟩
    | false => exact Or.inl rfl

def committed : List (String × SolverReceipt ℕ) :=
  [("read:one", ⟨"read:one", "read", .succeeded, [OneReader.textOfOne], none⟩)]

end TornReader

theorem replayed_run_tornReader :
    executeObservedProgram OneReader.platform OneReader.program TornReader.port.toObservationExecutionPort 3
        ⟨[], [], true⟩ = some (.error (.port "lost"), ⟨TornReader.committed, ["read:one"], true⟩) ∧
      executeObservedProgram OneReader.platform OneReader.program TornReader.port.toObservationExecutionPort 3
        ⟨TornReader.committed, ["read:one"], false⟩ =
          some (.ok OneReader.result, ⟨TornReader.committed, ["read:one"], false⟩) ∧
      executeObservedProgram OneReader.platform OneReader.program (uninterrupted TornReader.readOne) 3 () =
        some (.ok OneReader.result, ()) := by
  have htorn : executeObservedProgram OneReader.platform OneReader.program
      TornReader.port.toObservationExecutionPort 3 ⟨[], [], true⟩ =
        some (.error (.port "lost"), ⟨TornReader.committed, ["read:one"], true⟩) := by decide +kernel
  have hrun : executeObservedProgram OneReader.platform OneReader.program
      TornReader.port.toObservationExecutionPort 3 ⟨TornReader.committed, ["read:one"], false⟩ =
        some (.ok OneReader.result, ⟨TornReader.committed, ["read:one"], false⟩) := by decide +kernel
  have hattempted : Attempted OneReader.platform OneReader.program TornReader.port
      ⟨TornReader.committed, ["read:one"], false⟩ :=
    .again (.fresh rfl rfl) htorn rfl rfl
  have hreplayed := replayed_run OneReader.platform OneReader.program TornReader.readOne TornReader.port hattempted hrun
  refine ⟨htorn, hrun, hreplayed.2 ⟨fun complaint h => ?_, fun result h => ?_⟩⟩
  · cases h
  · cases h
    decide

end AvenOS.Actors
