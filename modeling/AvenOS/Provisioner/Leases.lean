import AvenOS.Provisioner.ControlRows

/-! # Reports of attempts

An operation is reported by the worker that has claimed it last. A report of an older attempt goes by, as long as
it comes from another worker than the last claim; and a customer is ready only at what has succeeded last. -/
namespace AvenOS.Provisioner
open KeyedTable LabelledRun

structure ControlSound (w : ControlWorld) : Prop where
  leases : LeasesSound w.directory w.attempts
  observed : Observed w.directory w.successes

/-! ## Writers of operations -/

section Operations
variable {d d' : Directory} {attempts : List Attempt} {successes : List Success}

theorem Observed.tables (h : Observed d successes) (henvironments : d'.environments = d.environments)
    (hcomponents : d'.components = d.components) : Observed d' successes := by
  refine h.same hcomponents fun id environment henvironment => ⟨environment, ?_, rfl, fun hready => hready⟩
  rw [Directory.environment?, henvironments] at henvironment
  exact henvironment

theorem LeasesSound.tables (h : LeasesSound d attempts) (hoperations : d'.operations = d.operations) :
    LeasesSound d' attempts := by
  intro id row hrow hrunning
  rw [Directory.operation?, hoperations] at hrow
  exact h id row hrow hrunning

def Unreported (d d' : Directory) : Prop :=
  ∀ id row, d.operation? id = some row → ∃ next, d'.operation? id = some next ∧
    (next.status = row.status ∨ next.status = .queued ∨ next.status = .running)

theorem Unreported.tables (hoperations : d'.operations = d.operations) : Unreported d d' := by
  intro id row hrow
  refine ⟨row, ?_, .inl rfl⟩
  rw [Directory.operation?, hoperations]
  exact hrow

variable {d'' : Directory}

theorem Unreported.trans (h : Unreported d d') (h' : Unreported d' d'') : Unreported d d'' := by
  intro id row hrow
  obtain ⟨next, hnext, hstatus⟩ := h id row hrow
  obtain ⟨last, hlast, hstatus'⟩ := h' id next hnext
  refine ⟨last, hlast, ?_⟩
  rcases hstatus' with hsame | hmoved
  · rw [hsame]
    exact hstatus
  · exact .inr hmoved

theorem unreported_set {id : String} {f : OperationRow → OperationRow} (hf : ∀ row, (f row).id = row.id)
    (hstatus : ∀ row, (f row).status = .queued ∨ (f row).status = .running) :
    Unreported d (d.setOperation id f) := by
  intro other row hrow
  rw [Directory.operation?_set hf]
  by_cases hid : other = id
  · rw [hid] at hrow
    exact ⟨f row, (if_pos hid).trans (congrArg (Option.map f) hrow), .inr (hstatus row)⟩
  · exact ⟨row, (if_neg hid).trans hrow, .inl rfl⟩

theorem unreported_insert (row : OperationRow) : Unreported d { d with operations := d.operations ++ [row] } :=
  fun _ old hold => ⟨old, lookup_grown hold [row], .inl rfl⟩

/-- What a statement that queues operations does to the tables. -/
structure Queues (attempts : List Attempt) (d d' : Directory) : Prop where
  environments : d'.environments = d.environments
  components : d'.components = d.components
  unreported : Unreported d d'
  leases : LeasesSound d attempts → LeasesSound d' attempts

theorem Queues.refl : Queues attempts d d := ⟨rfl, rfl, Unreported.tables rfl, fun h => h⟩

theorem Queues.trans (h : Queues attempts d d') (h' : Queues attempts d' d'') : Queues attempts d d'' :=
  ⟨h'.environments.trans h.environments, h'.components.trans h.components, h.unreported.trans h'.unreported,
    fun hsound => h'.leases (h.leases hsound)⟩

theorem queues_operation {generation : ℕ} {component : Component} {id : String} {now : ℤ}
    (h : d.queueOperation generation component id now = .ok d') : Queues attempts d d' := by
  unfold Directory.queueOperation at h
  dsimp only at h
  split at h
  · split_ifs at h
    · cases h
      exact ⟨rfl, rfl, unreported_set (fun _ => rfl) fun _ => .inl rfl,
        fun hsound => hsound.stop (fun _ => rfl) fun _ hrunning => nomatch hrunning⟩
    · cases h
      exact Queues.refl
  · unfold Directory.insertOperation at h
    split_ifs at h
    cases h
    exact ⟨rfl, rfl, unreported_insert _, fun hsound => hsound.insert fun hrunning => nomatch hrunning⟩

theorem queues_reconciliation (attempts : List Attempt) {environmentId : String} {draw : String → String × ℤ}
    (h : d.queueCustomerReconciliation environmentId draw = .ok d') : Queues attempts d d' := by
  unfold Directory.queueCustomerReconciliation at h
  split at h
  · cases h
    exact Queues.refl
  · split_ifs at h
    · exact ExceptLoop.foldlM_invariant (P := Queues attempts d)
        (fun _ _ _ _ hqueues hqueued => hqueues.trans (queues_operation hqueued)) h Queues.refl
    · cases h
      exact Queues.refl

theorem queues_absent {row : OperationRow} (hqueued : row.status ≠ .running) :
    Queues attempts d (d.insertAbsent row) := by
  unfold Directory.insertAbsent
  split_ifs
  · exact Queues.refl
  · exact ⟨rfl, rfl, unreported_insert row, fun hsound => hsound.insert hqueued⟩

theorem queues_all (attempts : List Attempt) {components : List Component} {row : Component → OperationRow}
    (hqueued : ∀ component, (row component).status ≠ .running) :
    Queues attempts d (components.foldl (fun d component => d.insertAbsent (row component)) d) := by
  induction components generalizing d with
  | nil => exact Queues.refl
  | cons component components ih => exact (queues_absent (hqueued component)).trans ih

theorem putComponents_operations (environmentId : String) (generation : ℕ) (components : List VerifiedComponent) :
    (d.putComponents environmentId generation components).operations = d.operations := by
  induction components generalizing d with
  | nil => rfl
  | cons component components ih =>
    refine ih.trans ?_
    change (d.putComponent environmentId generation component).operations = d.operations
    unfold Directory.putComponent
    split_ifs <;> rfl

theorem supersede_tables (d : Directory) (retained : Option Movement) :
    (d.supersede retained).environments = d.environments ∧ (d.supersede retained).components = d.components ∧
      (d.supersede retained).operations = d.operations := by
  rcases supersede_cases d retained with hsame | ⟨id, hset⟩
  · rw [hsame]
    exact ⟨rfl, rfl, rfl⟩
  · rw [hset]
    exact ⟨rfl, rfl, rfl⟩

end Operations

/-! ## Steps -/

section Steps
variable {w w' : ControlWorld}

variable {d d' : Directory} {worker : Worker} {operation : Operation} {action : ControlAction}

theorem claim_some {now : ℤ} {locked : List String} (h : d.claim worker now locked = some (operation, d')) :
    d' = d.startOperation worker now operation := by
  obtain ⟨row, -, heq⟩ := Option.map_eq_some_iff.mp h
  cases heq
  rfl

theorem finish_ok (h : d.finish worker operation = .ok d') :
    d.placed worker operation = true ∧ d.leased worker operation = true ∧ d' = d.succeedOperation operation := by
  unfold Directory.finish at h
  split_ifs at h with hplaced hleased
  exact ⟨hplaced, hleased, (Except.ok.inj h).symm⟩

section
variable (h : ControlSound w)
include h

theorem ControlSound.claim (worker : Worker) (now : ℤ) (locked : List String) :
    ControlSound (w.claimStep worker now locked) := by
  unfold ControlWorld.claimStep
  cases hclaim : w.directory.claim worker now locked with
  | none => exact h
  | some claimed =>
    obtain ⟨operation, d'⟩ := claimed
    have hstarted := claim_some hclaim
    dsimp only
    rw [hstarted]
    constructor
    · refine LeasesSound.tables (h.leases.start ⟨worker, operation⟩ rfl ?_ ?_) rfl
      · exact fun _ => rfl
      · exact fun _ => rfl
    · exact Observed.halt (h.observed.tables rfl rfl) (fun _ => ⟨rfl, rfl, fun hready => nomatch hready⟩)
        fun _ => ⟨rfl, rfl, fun hready => nomatch hready⟩

theorem ControlSound.finish (attempt : Attempt) : ControlSound (w.finishStep attempt) := by
  unfold ControlWorld.finishStep
  cases hfinish : w.directory.finish attempt.worker attempt.operation with
  | error message => exact h
  | ok d' =>
    obtain ⟨hplaced, -, rfl⟩ := finish_ok hfinish
    have hstopped : LeasesSound (w.directory.setOperation attempt.operation.id fun row =>
        { row with status := .succeeded, leaseOwner := none, leaseExpiresAt := none, lastError := none })
        w.attempts := h.leases.stop (fun _ => rfl) fun _ hrunning => nomatch hrunning
    exact ⟨hstopped.tables rfl, h.observed.succeed hplaced⟩

theorem ControlSound.fail (attempt : Attempt) (message : String) :
    ControlSound { w with directory := w.directory.fail attempt.worker attempt.operation message } := by
  unfold Directory.fail
  by_cases hleased : w.directory.leased attempt.worker attempt.operation = true
  · rw [if_pos hleased]
    have hstopped : LeasesSound (w.directory.setOperation attempt.operation.id fun row =>
        { row with status := .failed, leaseOwner := none, leaseExpiresAt := none, lastError := some message })
        w.attempts := h.leases.stop (fun _ => rfl) fun _ hrunning => nomatch hrunning
    dsimp only
    by_cases hplaced : w.directory.placed attempt.worker attempt.operation = true
    · rw [if_pos hplaced]
      exact ⟨hstopped.tables rfl, Observed.halt (h.observed.tables rfl rfl)
        (fun _ => ⟨rfl, rfl, fun hready => nomatch hready⟩) fun _ => ⟨rfl, rfl, fun hready => nomatch hready⟩⟩
    · rw [if_neg hplaced]
      exact ⟨hstopped, h.observed.tables rfl rfl⟩
  · rw [if_neg hleased]
    exact h

theorem ControlSound.reopen (environmentId : String) :
    ControlSound { w with directory := w.directory.reopen environmentId } := by
  exact ⟨h.leases.tables rfl, h.observed.halt (fun _ => ⟨rfl, rfl, fun hready => nomatch hready⟩)
    fun _ => ⟨rfl, rfl, fun hready => nomatch hready⟩⟩

variable {d' : Directory}

theorem ControlSound.queues (hqueues : Queues w.attempts w.directory d') : ControlSound { w with directory := d' } :=
  ⟨hqueues.leases h.leases, h.observed.tables hqueues.environments hqueues.components⟩

theorem ControlSound.entitle {environmentId : String} {desired : DesiredState} {draw : String → String}
    (hentitled : w.directory.acceptEntitlement environmentId desired draw = .ok d') :
    ControlSound { w with directory := d' } := by
  unfold Directory.acceptEntitlement at hentitled
  cases hfound : w.directory.environment? environmentId with
  | none =>
    rw [hfound] at hentitled
    cases hentitled
  | some environment =>
    rw [hfound] at hentitled
    dsimp only at hentitled
    generalize (if environment.movementId = none then environment.routingGeneration + 1
      else environment.routingGeneration) = generation at hentitled
    by_cases hempty : (w.directory.customerComponents environmentId).isEmpty = true
    · rw [if_pos hempty] at hentitled
      cases hentitled
    · rw [if_neg hempty] at hentitled
      cases hentitled
      have hwanted : ControlSound ⟨w.directory.want environmentId desired generation, w.attempts, w.successes⟩ :=
        ⟨h.leases.tables rfl, h.observed.unsettle (fun _ => rfl) (fun _ hready => nomatch hready) (fun _ => rfl)
          (fun _ hready => nomatch hready) fun _ _ _ _ _ => rfl⟩
      refine hwanted.queues (queues_all w.attempts ?_)
      intro component hrunning
      cases hrunning

theorem ControlSound.place {input : BeginInput} {retained : Option Movement}
    (hplaced : w.directory.place input retained = .ok d') : ControlSound { w with directory := d' } := by
  obtain ⟨inserted, hinserted, rfl⟩ := place_ok hplaced
  obtain ⟨-, -, rfl⟩ := insertMovement_ok hinserted
  obtain ⟨henvironments, hcomponents, hoperations⟩ := supersede_tables w.directory retained
  refine ⟨h.leases.tables hoperations, h.observed.same hcomponents fun id environment henvironment => ?_⟩
  have hfound := (Directory.environment?_set (by intro; rfl)).symm.trans henvironment
  have hsame : ∀ id, Directory.environment? { w.directory.supersede retained with
      movements := (w.directory.supersede retained).movements ++ [Directory.newMovement input] } id =
      w.directory.environment? id := by
    intro id
    unfold Directory.environment?
    rw [henvironments]
  rw [hsame, hsame] at hfound
  split_ifs at hfound with hid
  · obtain ⟨old, hold, rfl⟩ := Option.map_eq_some_iff.mp hfound
    exact ⟨old, hid ▸ hold, rfl, fun hready => hready⟩
  · exact ⟨environment, hfound, rfl, fun hready => hready⟩

theorem ControlSound.publish (movement : Movement) (returnEvidence : Option Actors.Record) :
    ControlSound (w.publishStep movement returnEvidence) := by
  unfold ControlWorld.publishStep
  cases hcomponents : verifiedComponents movement.evidence (w.directory.requiredComponents movement.environmentId) with
  | error message => exact h
  | ok components =>
    exact ⟨h.leases.tables (putComponents_operations (d := w.directory.setEnvironment _ _) _ _ components),
      h.observed.publish hcomponents⟩

theorem ControlSound.step {action : ControlAction} (hstep : controlStep w action = some w') : ControlSound w' := by
  cases action with
  | claim worker now locked =>
    cases hstep
    exact h.claim worker now locked
  | finish attempt =>
    obtain ⟨found, -, rfl⟩ := Option.map_eq_some_iff.mp hstep
    exact h.finish found
  | fail attempt message =>
    obtain ⟨found, -, rfl⟩ := Option.map_eq_some_iff.mp hstep
    exact h.fail found message
  | queue environmentId draw =>
    cases hstep
    unfold ControlWorld.commit
    cases hqueue : w.directory.queueCustomerReconciliation environmentId draw with
    | error message => exact h
    | ok d' => exact h.queues (queues_reconciliation w.attempts hqueue)
  | reopen environmentId =>
    cases hstep
    exact h.reopen environmentId
  | entitle environmentId desired draw =>
    cases hstep
    unfold ControlWorld.commit
    cases hentitle : w.directory.acceptEntitlement environmentId desired draw with
    | error message => exact h
    | ok d' => exact h.entitle hentitle
  | place input retained =>
    cases hstep
    unfold ControlWorld.commit
    cases hplace : w.directory.place input retained with
    | error message => exact h
    | ok d' => exact h.place hplace
  | publish movement returnEvidence =>
    cases hstep
    exact h.publish movement returnEvidence

end

/-! ## Reports -/

theorem unreported_claim (w : ControlWorld) (worker : Worker) (now : ℤ) (locked : List String) :
    Unreported w.directory (w.claimStep worker now locked).directory := by
  unfold ControlWorld.claimStep
  cases hclaim : w.directory.claim worker now locked with
  | none => exact Unreported.tables rfl
  | some claimed =>
    obtain ⟨operation, d'⟩ := claimed
    rw [claim_some hclaim]
    have hstarted : Unreported w.directory (w.directory.setOperation operation.id fun row =>
        { row with
          status := .running
          attempt := row.attempt + 1
          leaseOwner := some worker.instanceId
          leaseExpiresAt := some (now + worker.leaseSeconds) }) :=
      unreported_set (fun _ => rfl) fun _ => .inr rfl
    exact hstarted.trans (Unreported.tables rfl)

theorem unreported_entitle {environmentId : String} {desired : DesiredState} {draw : String → String}
    (h : d.acceptEntitlement environmentId desired draw = .ok d') : Unreported d d' := by
  unfold Directory.acceptEntitlement at h
  cases hfound : d.environment? environmentId with
  | none =>
    rw [hfound] at h
    cases h
  | some environment =>
    rw [hfound] at h
    dsimp only at h
    generalize (if environment.movementId = none then environment.routingGeneration + 1
      else environment.routingGeneration) = generation at h
    by_cases hempty : (d.customerComponents environmentId).isEmpty = true
    · rw [if_pos hempty] at h
      cases h
    · rw [if_neg hempty] at h
      cases h
      have hwanted : Unreported d (d.want environmentId desired generation) := Unreported.tables rfl
      refine hwanted.trans (queues_all [] ?_).unreported
      intro component hrunning
      cases hrunning

theorem unreported_place {input : BeginInput} {retained : Option Movement} (h : d.place input retained = .ok d') :
    Unreported d d' := by
  obtain ⟨inserted, hinserted, rfl⟩ := place_ok h
  obtain ⟨-, -, rfl⟩ := insertMovement_ok hinserted
  exact Unreported.tables (supersede_tables d retained).2.2

theorem unreported_commit {result : Except String Directory} (h : ∀ d', result = .ok d' → Unreported w.directory d') :
    Unreported w.directory (w.commit result).directory := by
  cases result with
  | error message => exact Unreported.tables rfl
  | ok d' => exact h d' rfl

theorem unreported_step (hreports : action.reports = none) (hstep : controlStep w action = some w') :
    Unreported w.directory w'.directory := by
  cases action with
  | finish attempt => cases hreports
  | fail attempt message => cases hreports
  | claim worker now locked =>
    cases hstep
    exact unreported_claim w worker now locked
  | queue environmentId draw =>
    cases hstep
    exact unreported_commit fun d' hqueue => (queues_reconciliation [] hqueue).unreported
  | reopen environmentId =>
    cases hstep
    exact Unreported.tables rfl
  | entitle environmentId desired draw =>
    cases hstep
    exact unreported_commit fun d' => unreported_entitle
  | place input retained =>
    cases hstep
    exact unreported_commit fun d' => unreported_place
  | publish movement returnEvidence =>
    cases hstep
    unfold ControlWorld.publishStep
    cases verifiedComponents movement.evidence (w.directory.requiredComponents movement.environmentId) with
    | error message => exact Unreported.tables rfl
    | ok components =>
      exact Unreported.tables (putComponents_operations (d := w.directory.setEnvironment _ _) _ _ components)

/-- What a report does, where it does anything. -/
structure Writes (w : ControlWorld) (attempt : Attempt) (d' : Directory) : Prop where
  leased : w.directory.leased attempt.worker attempt.operation = true
  others : ∀ id, id ≠ attempt.operation.id → d'.operation? id = w.directory.operation? id
  placed : w.directory.placed attempt.worker attempt.operation = false →
    d'.components = w.directory.components ∧ d'.environments = w.directory.environments

theorem report_cases {k : ℕ} (hreports : action.reports = some k) (hstep : controlStep w action = some w') :
    ∃ attempt, w.attempts[k]? = some attempt ∧ (w'.directory = w.directory ∨ Writes w attempt w'.directory) := by
  cases action with
  | finish attempt =>
    cases hreports
    obtain ⟨found, hfound, rfl⟩ := Option.map_eq_some_iff.mp hstep
    refine ⟨found, hfound, ?_⟩
    unfold ControlWorld.finishStep
    cases hfinish : w.directory.finish found.worker found.operation with
    | error message => exact .inl rfl
    | ok d' =>
      obtain ⟨hplaced, hleased, rfl⟩ := finish_ok hfinish
      refine .inr ⟨hleased, fun id hid => ?_, fun hnot => ?_⟩
      · exact lookup_modify_other (fun _ => rfl) hid
      · rw [hplaced] at hnot
        cases hnot
  | fail attempt message =>
    cases hreports
    obtain ⟨found, hfound, rfl⟩ := Option.map_eq_some_iff.mp hstep
    refine ⟨found, hfound, ?_⟩
    unfold Directory.fail
    by_cases hleased : w.directory.leased found.worker found.operation = true
    · rw [if_pos hleased]
      refine .inr ⟨hleased, fun id hid => ?_, fun hnot => ?_⟩
      · dsimp only
        split_ifs <;> exact lookup_modify_other (fun _ => rfl) hid
      · dsimp only
        rw [hnot]
        exact ⟨rfl, rfl⟩
    · rw [if_neg hleased]
      exact .inl rfl
  | claim worker now locked => cases hreports
  | queue environmentId draw => cases hreports
  | reopen environmentId => cases hreports
  | entitle environmentId desired draw => cases hreports
  | place input retained => cases hreports
  | publish movement returnEvidence => cases hreports

theorem LeasesSound.latest {attempts : List Attempt} (h : LeasesSound d attempts) {attempt : Attempt}
    (hleased : d.leased attempt.worker attempt.operation = true) :
    ∃ latest, latestOf attempts attempt.operation.id = some latest ∧
      latest.worker.instanceId = attempt.worker.instanceId := by
  obtain ⟨row, hrow, hrunning⟩ := Option.any_eq_true _ _ |>.mp hleased
  obtain ⟨hstatus, howner⟩ := of_decide_eq_true hrunning
  obtain ⟨latest, hlatest, hown⟩ := h _ row hrow hstatus
  exact ⟨latest, hlatest, Option.some.inj (hown.symm.trans howner)⟩

end Steps

/-! ## Runs -/

/-- What is promised of one step. -/
structure ReportsSound (w : ControlWorld) (action : ControlAction) (w' : ControlWorld) : Prop where
  /-- Whatever becomes succeeded or failed is reported by the worker of its latest claim. -/
  byLatest : ∀ id row row', w.directory.operation? id = some row → w'.directory.operation? id = some row' →
    row'.status ≠ row.status → row'.status = .succeeded ∨ row'.status = .failed →
    ∃ k attempt latest, action.reports = some k ∧ w.attempts[k]? = some attempt ∧ attempt.operation.id = id ∧
      latestOf w.attempts id = some latest ∧ latest.worker.instanceId = attempt.worker.instanceId
  /-- A report of an older attempt, or of a customer that is elsewhere by now, changes neither customers nor
  components. -/
  stale : ∀ k attempt, action.reports = some k → w.attempts[k]? = some attempt →
    w.older k = true ∨ w.directory.placed attempt.worker attempt.operation = false →
    w'.directory.components = w.directory.components ∧ w'.directory.environments = w.directory.environments

def ReadyAtLast (w : ControlWorld) : Prop :=
  ∀ id environment, w.directory.environment? id = some environment → environment.desiredState = .ready →
    environment.observedState = .ready → ∀ component ∈ w.directory.components, component.environmentId = id →
    component.observedState = .ready ∧ ∃ success,
      lastOf w.successes id component.componentRef environment.routingGeneration = some success ∧
      Shown success component

/-- Nothing has been claimed, and nothing is ready. -/
structure ControlWorld.Fresh (w : ControlWorld) : Prop where
  attempts : w.attempts = []
  successes : w.successes = []
  operations : ∀ row ∈ w.directory.operations, row.status ≠ .running
  components : ∀ component ∈ w.directory.components, component.observedState ≠ .ready
  environments : ∀ environment ∈ w.directory.environments, environment.observedState ≠ .ready
  aligned : ∀ component ∈ w.directory.components, ∀ environment,
    w.directory.environment? component.environmentId = some environment →
      component.routingGeneration = environment.routingGeneration

section Runs
variable {start w w' : ControlWorld}

theorem ControlWorld.Fresh.sound (h : start.Fresh) : ControlSound start := by
  refine ⟨fun id row hrow hrunning => ?_, h.aligned, fun component hcomponent hready => ?_,
    fun id environment henvironment hready => ?_⟩
  · exact absurd hrunning (h.operations row (lookup_some hrow).1)
  · exact absurd hready (h.components component hcomponent)
  · exact absurd hready (h.environments environment (lookup_some henvironment).1)

theorem ControlSound.readyAtLast (h : ControlSound w) : ReadyAtLast w := by
  intro id environment henvironment _ hready component hcomponent hplace
  have hcomplete := h.observed.complete id environment henvironment hready component hcomponent hplace
  obtain ⟨success, hlast, hshown⟩ := h.observed.proven component hcomponent hcomplete
  rw [h.observed.aligned component hcomponent environment (hplace ▸ henvironment), hplace] at hlast
  exact ⟨hcomplete, success, hlast, hshown⟩

theorem ControlSound.reports (h : ControlSound w) {action : ControlAction} (hsteady : w.steady action = true)
    (hstep : controlStep w action = some w') : ReportsSound w action w' := by
  constructor
  · intro id row row' hrow hrow' hchanged hreported
    cases hreports : action.reports with
    | none =>
      obtain ⟨next, hnext, hstatus⟩ := unreported_step hreports hstep id row hrow
      rw [hrow'] at hnext
      cases hnext
      rcases hstatus with hsame | hqueued | hrunning
      · exact absurd hsame hchanged
      · rw [hqueued] at hreported
        rcases hreported with hreported | hreported <;> cases hreported
      · rw [hrunning] at hreported
        rcases hreported with hreported | hreported <;> cases hreported
    | some k =>
      obtain ⟨attempt, hattempt, hsame | hwrites⟩ := report_cases hreports hstep
      · rw [hsame, hrow] at hrow'
        cases hrow'
        exact absurd rfl hchanged
      · have hid : id = attempt.operation.id := by
          by_contra hother
          rw [hwrites.others id hother, hrow] at hrow'
          cases hrow'
          exact hchanged rfl
        obtain ⟨latest, hlatest, hown⟩ := h.leases.latest hwrites.leased
        exact ⟨k, attempt, latest, rfl, hattempt, hid.symm, hid ▸ hlatest, hown⟩
  · intro k attempt hreports hattempt hstale
    obtain ⟨found, hfound, hsame | hwrites⟩ := report_cases hreports hstep
    · rw [hsame]
      exact ⟨rfl, rfl⟩
    · rw [hattempt] at hfound
      cases hfound
      rcases hstale with holder | helsewhere
      · obtain ⟨latest, hlatest, hown⟩ := h.leases.latest hwrites.leased
        unfold ControlWorld.steady at hsteady
        rw [hreports, Option.all_some, holder, hattempt, Option.all_some, hlatest, Option.all_some] at hsteady
        exact absurd hown (of_decide_eq_true hsteady)
      · exact hwrites.placed helsewhere

theorem steadyRun_split {before after : List ControlAction} (h : steadyRun start (before ++ after) = true)
    (hrun : run controlStep start before = some w) : steadyRun w after = true := by
  induction before generalizing start with
  | nil =>
    cases hrun
    exact h
  | cons action before ih =>
    obtain ⟨next, hnext, hrest⟩ := run_cons hrun
    have hall := (Bool.and_eq_true _ _ ▸ h).2
    rw [hnext] at hall
    exact ih hall hrest

/-- In a run in which no older attempt is reported by the instance that has claimed the operation last, every
report is by the worker of the latest claim, stale ones change nothing that is observed, and what is ready is at
what has succeeded last. -/
theorem provisioning_leases {actions : List ControlAction} (hstart : start.Fresh)
    (hsteady : steadyRun start actions = true) {before after : List ControlAction}
    (hsplit : actions = before ++ after) (hrun : run controlStep start before = some w) :
    ReadyAtLast w ∧ ∀ action rest w', after = action :: rest → controlStep w action = some w' →
      ReportsSound w action w' := by
  have hsound : ControlSound w := run_invariant (I := ControlSound) (P := fun _ => True)
    (fun _ _ _ _ hsound hstep => hsound.step hstep) (fun _ _ => trivial) hstart.sound hrun
  refine ⟨hsound.readyAtLast, fun action rest w' hnext hstep => ?_⟩
  rw [hsplit] at hsteady
  have hrest := steadyRun_split hsteady hrun
  rw [hnext] at hrest
  exact hsound.reports (Bool.and_eq_true _ _ ▸ hrest).1 hstep

end Runs

/-! ## Two attempts of one instance -/

/-- One customer whose only component is to be provisioned. -/
def oneOperation : ControlWorld where
  directory :=
    { runtimes := [⟨"primary", none, false⟩]
      environments := [⟨"customer", "primary", 1, none, .ready, .pending⟩]
      movements := []
      components := [⟨"customer", "core", .ready, .pending, 1, none, "digest", none, 1, none, none⟩]
      operations := [⟨"operation", "customer", "core", .reconcile, .queued, 1, "digest", 1, 0, none, none, none⟩] }
  attempts := []
  successes := []

theorem oneOperation_fresh : oneOperation.Fresh where
  attempts := rfl
  successes := rfl
  operations := by decide
  components := by decide
  environments := by decide
  aligned component hcomponent environment henvironment := by
    rw [List.mem_singleton.mp hcomponent] at henvironment ⊢
    cases henvironment
    rfl

/-- The lease runs out before the worker is done, and the operation is claimed again. -/
def expiredClaim (other : String) : List ControlAction :=
  [.claim ⟨"p", 60, "primary"⟩ 0 [], .claim ⟨other, 60, "primary"⟩ 61 []]

theorem provisioning_leases_expired :
    steadyRun oneOperation (expiredClaim "q" ++ [.finish 0, .finish 1]) = true ∧
      ∃ w w', run controlStep oneOperation (expiredClaim "q" ++ [.finish 0]) = some w ∧
        controlStep w (.finish 1) = some w' ∧ ReadyAtLast w ∧ ReportsSound w (.finish 1) w' := by
  have hsteady : steadyRun oneOperation (expiredClaim "q" ++ [.finish 0, .finish 1]) = true := by decide +kernel
  have hruns : ((run controlStep oneOperation (expiredClaim "q" ++ [.finish 0])).bind fun w =>
      controlStep w (.finish 1)).isSome = true := by decide +kernel
  obtain ⟨w', hw'⟩ := Option.isSome_iff_exists.mp hruns
  obtain ⟨w, hw, hstep⟩ := Option.bind_eq_some_iff.mp hw'
  obtain ⟨hready, hreports⟩ := provisioning_leases oneOperation_fresh hsteady
    (show _ = (expiredClaim "q" ++ [.finish 0]) ++ [.finish 1] from rfl) hw
  exact ⟨hsteady, w, w', hw, hstep, hready, hreports _ [] w' rfl hstep⟩

/-- An instance claims its own operation again, and its first attempt makes the customer ready. -/
theorem reclaimed_finish :
    ∃ w w', oneOperation.Fresh ∧ run controlStep oneOperation (expiredClaim "p") = some w ∧
      controlStep w (.finish 0) = some w' ∧ ¬ReportsSound w (.finish 0) w' := by
  have hruns : ((run controlStep oneOperation (expiredClaim "p")).bind fun w =>
      (controlStep w (.finish 0)).map fun w' =>
        (w.older 0, w.attempts.length, w.directory.environments, w'.directory.environments)) =
      some (true, 2, [⟨"customer", "primary", 1, none, .ready, .reconciling⟩],
        [⟨"customer", "primary", 1, none, .ready, .ready⟩]) := by decide +kernel
  obtain ⟨w, hw, hmap⟩ := Option.bind_eq_some_iff.mp hruns
  obtain ⟨w', hw', hvalues⟩ := Option.map_eq_some_iff.mp hmap
  simp only [Prod.mk.injEq] at hvalues
  obtain ⟨holder, hlength, hbefore, hafter⟩ := hvalues
  refine ⟨w, w', oneOperation_fresh, hw, hw', fun hreports => ?_⟩
  obtain ⟨attempt, hattempt⟩ : ∃ attempt, w.attempts[0]? = some attempt :=
    ⟨_, List.getElem?_eq_getElem (by omega)⟩
  have hsame := (hreports.stale 0 attempt rfl hattempt (Or.inl holder)).2
  rw [hbefore, hafter] at hsame
  exact absurd hsame (by decide)

end AvenOS.Provisioner
