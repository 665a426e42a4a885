import AvenOS.Provisioner.ControlRun
import AvenOS.Provisioner.MovementDirectory

/-! # What the rows of components and operations say

An operation that runs is leased to the worker that has claimed it last. A component that is ready is so by its
last success, and a customer is ready only with all of its components. -/
namespace AvenOS.Provisioner
open KeyedTable LabelledRun

/-! ## Leases -/

def LeasesSound (d : Directory) (attempts : List Attempt) : Prop :=
  ∀ id row, d.operation? id = some row → row.status = .running →
    ∃ attempt, latestOf attempts id = some attempt ∧ row.leaseOwner = some attempt.worker.instanceId

section Leases
variable {d : Directory} {attempts : List Attempt} {id : String} {f : OperationRow → OperationRow}

theorem Directory.operation?_set {other : String} (hf : ∀ row, (f row).id = row.id) :
    (d.setOperation id f).operation? other = if other = id then (d.operation? id).map f else d.operation? other := by
  by_cases hid : other = id
  · rw [if_pos hid, hid]
    exact lookup_modify hf
  · rw [if_neg hid]
    exact lookup_modify_other hf hid

theorem LeasesSound.stop (h : LeasesSound d attempts) (hf : ∀ row, (f row).id = row.id)
    (hstopped : ∀ row, (f row).status ≠ .running) : LeasesSound (d.setOperation id f) attempts := by
  intro other row hrow hrunning
  rw [Directory.operation?_set hf] at hrow
  split_ifs at hrow with hid
  · obtain ⟨old, -, rfl⟩ := Option.map_eq_some_iff.mp hrow
    exact absurd hrunning (hstopped old)
  · exact h other row hrow hrunning

theorem latestOf_concat (attempt : Attempt) (other : String) : latestOf (attempts ++ [attempt]) other =
      if attempt.operation.id = other then some attempt else latestOf attempts other := by
  unfold latestOf
  rw [lastWhere_concat]
  exact if_congr decide_eq_true_iff rfl rfl

theorem LeasesSound.start (h : LeasesSound d attempts) (attempt : Attempt) (hid : attempt.operation.id = id)
    (hf : ∀ row, (f row).id = row.id) (howner : ∀ row, (f row).leaseOwner = some attempt.worker.instanceId) :
    LeasesSound (d.setOperation id f) (attempts ++ [attempt]) := by
  intro other row hrow hrunning
  rw [Directory.operation?_set hf] at hrow
  rw [latestOf_concat, hid]
  by_cases hother : other = id
  · rw [if_pos hother] at hrow
    obtain ⟨old, -, rfl⟩ := Option.map_eq_some_iff.mp hrow
    exact ⟨attempt, if_pos hother.symm, howner old⟩
  · rw [if_neg hother] at hrow
    obtain ⟨latest, hlatest, howned⟩ := h other row hrow hrunning
    exact ⟨latest, (if_neg (Ne.symm hother)).trans hlatest, howned⟩

theorem LeasesSound.insert (h : LeasesSound d attempts) {row : OperationRow} (hqueued : row.status ≠ .running) :
    LeasesSound { d with operations := d.operations ++ [row] } attempts := by
  intro other found hfound hrunning
  have hlookup : (d.operation? other).or (lookup OperationRow.id other [row]) = some found := by
    rw [← hfound]
    exact List.find?_append.symm
  cases hold : d.operation? other with
  | some old =>
    rw [hold, Option.some_or] at hlookup
    cases hlookup
    exact h other found hold hrunning
  | none =>
    rw [hold, Option.none_or] at hlookup
    rw [List.mem_singleton.mp (lookup_some hlookup).1] at hrunning
    exact absurd hrunning hqueued

end Leases

/-! ## Observations -/

structure Shown (success : Success) (component : Component) : Prop where
  action : success.action = .reconcile
  version : component.observedSchemaVersion = some success.schemaVersion
  digest : component.observedMigrationSetDigest = some success.migrationSetDigest

def Proven (components : List Component) (successes : List Success) : Prop :=
  ∀ component ∈ components, component.observedState = .ready →
    ∃ success, lastOf successes component.environmentId component.componentRef component.routingGeneration =
      some success ∧ Shown success component

structure Observed (d : Directory) (successes : List Success) : Prop where
  aligned : ∀ component ∈ d.components, ∀ environment,
    d.environment? component.environmentId = some environment →
      component.routingGeneration = environment.routingGeneration
  proven : Proven d.components successes
  complete : ∀ id environment, d.environment? id = some environment → environment.observedState = .ready →
    ∀ component ∈ d.components, component.environmentId = id → component.observedState = .ready

section Observations
variable {d d' : Directory} {successes : List Success} {environmentId : String} {which : Component → Bool}
  {f : Component → Component} {g : Environment → Environment}

theorem lastOf_concat (success : Success) (componentRef : String) (generation : ℕ) :
    lastOf (successes ++ [success]) environmentId componentRef generation =
      if success.environmentId = environmentId ∧ success.componentRef = componentRef ∧
        success.routingGeneration = generation then some success
      else lastOf successes environmentId componentRef generation := by
  unfold lastOf
  rw [lastWhere_concat]
  exact if_congr decide_eq_true_iff rfl rfl

theorem mem_setComponents {row : Component} (h : row ∈ (d.setComponents environmentId which f).components) :
    ∃ old ∈ d.components, (old.environmentId = environmentId ∧ which old = true) ∧ row = f old ∨
      ¬(old.environmentId = environmentId ∧ which old = true) ∧ row = old := by
  obtain ⟨old, hold, heq⟩ := List.mem_map.mp h
  refine ⟨old, hold, ?_⟩
  by_cases hhere : old.environmentId = environmentId ∧ which old = true
  · rw [if_pos hhere] at heq
    exact .inl ⟨hhere, heq.symm⟩
  · rw [if_neg hhere] at heq
    exact .inr ⟨hhere, heq.symm⟩

theorem Observed.same (h : Observed d successes) (hcomponents : d'.components = d.components)
    (henvironments : ∀ id environment, d'.environment? id = some environment →
      ∃ old, d.environment? id = some old ∧ environment.routingGeneration = old.routingGeneration ∧
        (environment.observedState = .ready → old.observedState = .ready)) : Observed d' successes := by
  constructor
  · intro component hcomponent environment henvironment
    rw [hcomponents] at hcomponent
    obtain ⟨old, hold, hgeneration, -⟩ := henvironments _ environment henvironment
    exact (h.aligned component hcomponent old hold).trans hgeneration.symm
  · rw [hcomponents]
    exact h.proven
  · intro id environment henvironment hready component hcomponent
    rw [hcomponents] at hcomponent
    obtain ⟨old, hold, -, hwas⟩ := henvironments id environment henvironment
    exact h.complete id old hold (hwas hready) component hcomponent

theorem Observed.unsettle (h : Observed d successes) (hf : ∀ row, (f row).environmentId = row.environmentId)
    (hoff : ∀ row, (f row).observedState ≠ .ready) (hg : ∀ row, (g row).id = row.id)
    (hgoff : ∀ row, (g row).observedState ≠ .ready)
    (haligned : ∀ component ∈ d.components, component.environmentId = environmentId → ∀ environment,
      d.environment? environmentId = some environment →
      (if which component then f component else component).routingGeneration = (g environment).routingGeneration) :
    Observed ((d.setComponents environmentId which f).setEnvironment environmentId g) successes := by
  have hfind : ∀ id, ((d.setComponents environmentId which f).setEnvironment environmentId g).environment? id =
      if id = environmentId then (d.environment? environmentId).map g else d.environment? id :=
    fun id => Directory.environment?_set hg
  constructor
  · intro component hcomponent environment henvironment
    rw [hfind] at henvironment
    obtain ⟨old, hold, ⟨⟨hplace, hwhich⟩, rfl⟩ | ⟨hnot, rfl⟩⟩ := mem_setComponents hcomponent
    · rw [hf, if_pos hplace] at henvironment
      obtain ⟨was, hwas, rfl⟩ := Option.map_eq_some_iff.mp henvironment
      have hgeneration := haligned old hold hplace was hwas
      rw [if_pos hwhich] at hgeneration
      exact hgeneration
    · split_ifs at henvironment with hplace
      · obtain ⟨was, hwas, rfl⟩ := Option.map_eq_some_iff.mp henvironment
        have hgeneration := haligned component hold hplace was hwas
        rw [if_neg fun hwhich => hnot ⟨hplace, hwhich⟩] at hgeneration
        exact hgeneration
      · exact h.aligned component hold environment henvironment
  · intro component hcomponent hready
    obtain ⟨old, hold, ⟨-, rfl⟩ | ⟨-, rfl⟩⟩ := mem_setComponents hcomponent
    · exact absurd hready (hoff old)
    · exact h.proven component hold hready
  · intro id environment henvironment hready component hcomponent hplace
    rw [hfind] at henvironment
    split_ifs at henvironment with hid
    · obtain ⟨was, -, rfl⟩ := Option.map_eq_some_iff.mp henvironment
      exact absurd hready (hgoff was)
    · obtain ⟨old, hold, ⟨⟨hhere, -⟩, rfl⟩ | ⟨-, rfl⟩⟩ := mem_setComponents hcomponent
      · exact absurd (hplace.symm.trans ((hf old).trans hhere)) hid
      · exact h.complete id environment henvironment hready component hold hplace

theorem Observed.halt (h : Observed d successes)
    (hf : ∀ row, (f row).environmentId = row.environmentId ∧ (f row).routingGeneration = row.routingGeneration ∧
      (f row).observedState ≠ .ready)
    (hg : ∀ row, (g row).id = row.id ∧ (g row).routingGeneration = row.routingGeneration ∧
      (g row).observedState ≠ .ready) :
    Observed ((d.setComponents environmentId which f).setEnvironment environmentId g) successes := by
  refine h.unsettle (fun row => (hf row).1) (fun row => (hf row).2.2) (fun row => (hg row).1)
    (fun row => (hg row).2.2) fun component hcomponent hplace environment henvironment => ?_
  have hsame : (if which component then f component else component).routingGeneration =
      component.routingGeneration := by
    split_ifs
    · exact (hf component).2.1
    · rfl
  calc (if which component then f component else component).routingGeneration = component.routingGeneration := hsame
    _ = environment.routingGeneration := h.aligned component hcomponent environment (hplace ▸ henvironment)
    _ = (g environment).routingGeneration := ((hg environment).2.1).symm

end Observations

/-! ## Successes -/

section Successes
variable {d : Directory} {successes : List Success}

theorem Proven.concat {components next : List Component} (h : Proven components successes) {success : Success}
    (hnext : ∀ row ∈ next, (row.environmentId = success.environmentId ∧ row.componentRef = success.componentRef ∧
        row.routingGeneration = success.routingGeneration ∧ (row.observedState = .ready → Shown success row)) ∨
      row ∈ components ∧ ¬(row.environmentId = success.environmentId ∧ row.componentRef = success.componentRef ∧
        row.routingGeneration = success.routingGeneration)) : Proven next (successes ++ [success]) := by
  intro row hrow hready
  rw [lastOf_concat]
  rcases hnext row hrow with ⟨hplace, href, hgeneration, hshown⟩ | ⟨hold, hnot⟩
  · exact ⟨success, if_pos ⟨hplace.symm, href.symm, hgeneration.symm⟩, hshown hready⟩
  · rw [if_neg fun hkey => hnot ⟨hkey.1.symm, hkey.2.1.symm, hkey.2.2.symm⟩]
    exact h row hold hready

theorem observe_ready {environment : Environment} (h : d.observe environment = .ready) :
    ∀ row ∈ d.components, row.environmentId = environment.id → row.observedState = .ready := by
  unfold Directory.observe at h
  split_ifs at h with hsuspended hready
  intro row hrow hplace
  have hall := List.all_eq_true.mp hready.2 row (List.mem_filter.mpr ⟨hrow, decide_eq_true hplace⟩)
  exact of_decide_eq_true hall

theorem Observed.succeed (h : Observed d successes) {worker : Worker} {operation : Operation}
    (hplaced : d.placed worker operation = true) :
    Observed (d.succeedOperation operation) (successes ++ [operation.success]) := by
  obtain ⟨environment, henvironment, hwhere⟩ := Option.any_eq_true _ _ |>.mp hplaced
  have hgeneration : environment.routingGeneration = operation.routingGeneration := (of_decide_eq_true hwhere).2.1
  have hhere := Directory.environment?_id henvironment
  unfold Directory.succeedOperation
  dsimp only
  generalize hrecorded : ((d.setOperation operation.id _).setComponents operation.environmentId _ _) = recorded
  have hfind : ∀ id, (recorded.setEnvironment operation.environmentId fun row =>
      { row with observedState := recorded.observe row }).environment? id =
      if id = operation.environmentId then
        some { environment with observedState := recorded.observe environment } else d.environment? id := by
    intro id
    have hsame : ∀ id, recorded.environment? id = d.environment? id := by
      intro id
      rw [← hrecorded]
      rfl
    rw [Directory.environment?_set (by intro; rfl), hsame, hsame, henvironment]
    rfl
  have hrows : ∀ row ∈ recorded.components, (∃ old ∈ d.components, (old.environmentId = operation.environmentId ∧
        Directory.currentComponent operation old = true) ∧ row =
          { old with
            observedState := if operation.action = .suspend then .suspended else .ready
            observedSchemaVersion := some operation.targetSchemaVersion
            observedMigrationSetDigest := some operation.migrationSetDigest
            lastError := none }) ∨
      row ∈ d.components ∧ ¬(row.environmentId = operation.environmentId ∧
        Directory.currentComponent operation row = true) := by
    intro row hrow
    rw [← hrecorded] at hrow
    obtain ⟨old, hold, ⟨hold', rfl⟩ | ⟨hnot, rfl⟩⟩ := mem_setComponents hrow
    · exact .inl ⟨old, hold, hold', rfl⟩
    · exact .inr ⟨hold, hnot⟩
  constructor
  · intro row hrow found hfound
    rw [hfind] at hfound
    have haligned : ∀ old ∈ d.components, old.environmentId = operation.environmentId →
        old.routingGeneration = environment.routingGeneration := fun old hold hplace =>
      h.aligned old hold environment (hplace ▸ henvironment)
    rcases hrows row hrow with ⟨old, hold, ⟨hplace, -⟩, rfl⟩ | ⟨hold, -⟩
    · rw [if_pos hplace] at hfound
      cases hfound
      exact haligned old hold hplace
    · split_ifs at hfound with hplace
      · cases hfound
        exact haligned row hold hplace
      · exact h.aligned row hold found hfound
  · refine h.proven.concat fun row hrow => ?_
    rcases hrows row hrow with ⟨old, hold, ⟨hplace, hcurrent⟩, rfl⟩ | ⟨hold, hnot⟩
    · have hcurrent' := of_decide_eq_true hcurrent
      refine .inl ⟨hplace, hcurrent'.1, hcurrent'.2, fun hready => ⟨?_, rfl, rfl⟩⟩
      dsimp only at hready
      split_ifs at hready with haction
      change operation.action = _
      cases hkind : operation.action with
      | reconcile => rfl
      | suspend => exact absurd hkind haction
    · exact .inr ⟨hold, fun hkey => hnot ⟨hkey.1, decide_eq_true ⟨hkey.2.1, hkey.2.2⟩⟩⟩
  · intro id found hfound hready row hrow hplace
    rw [hfind] at hfound
    split_ifs at hfound with hid
    · cases hfound
      exact observe_ready hready row hrow (hplace.trans (hid.trans hhere.symm))
    · rcases hrows row hrow with ⟨old, hold, ⟨hthere, -⟩, rfl⟩ | ⟨hold, -⟩
      · exact absurd (hplace.symm.trans hthere) hid
      · exact h.complete id found hfound hready row hold hplace

end Successes

/-! ## Publications -/

section Publications
variable {d : Directory} {successes : List Success} {environmentId : String} {generation : ℕ}

variable {component : VerifiedComponent} {row : Component} {components : List VerifiedComponent}

theorem mem_putComponent (h : row ∈ (d.putComponent environmentId generation component).components) :
    row ∈ d.components ∧ ¬(row.environmentId = environmentId ∧ row.componentRef = component.componentRef) ∨
      row.environmentId = environmentId ∧ row.componentRef = component.componentRef ∧
        row.routingGeneration = generation ∧ row.observedState = .ready ∧
        Shown (component.success environmentId generation) row := by
  unfold Directory.putComponent at h
  split_ifs at h with hany
  · obtain ⟨old, hold, heq⟩ := List.mem_map.mp h
    split_ifs at heq with hhere
    · rw [← heq]
      exact .inr ⟨hhere.1, hhere.2, rfl, rfl, rfl, rfl, rfl⟩
    · rw [← heq]
      exact .inl ⟨hold, hhere⟩
  · rcases List.mem_append.mp h with hold | hnew
    · refine .inl ⟨hold, fun hhere => hany (List.any_eq_true.mpr ⟨row, hold, decide_eq_true hhere⟩)⟩
    · rw [List.mem_singleton.mp hnew]
      exact .inr ⟨rfl, rfl, rfl, rfl, rfl, rfl, rfl⟩

theorem Proven.put (h : Proven d.components successes) (environmentId : String) (generation : ℕ)
    (component : VerifiedComponent) : Proven (d.putComponent environmentId generation component).components
      (successes ++ [component.success environmentId generation]) :=
  h.concat fun row hrow => by
    rcases mem_putComponent hrow with ⟨hold, hnot⟩ | ⟨hplace, href, hgeneration, -, hshown⟩
    · exact .inr ⟨hold, fun hkey => hnot ⟨hkey.1, hkey.2.1⟩⟩
    · exact .inl ⟨hplace, href, hgeneration, fun _ => hshown⟩

def Directory.putComponents (d : Directory) (environmentId : String) (generation : ℕ)
    (components : List VerifiedComponent) : Directory :=
  components.foldl (fun d component => d.putComponent environmentId generation component) d

theorem Proven.puts (h : Proven d.components successes) (components : List VerifiedComponent) :
    Proven (d.putComponents environmentId generation components).components
      (successes ++ components.map (VerifiedComponent.success environmentId generation)) := by
  induction components generalizing d successes with
  | nil =>
    rw [List.map_nil, List.append_nil]
    exact h
  | cons component components ih =>
    have hrest := ih (h.put environmentId generation component)
    rw [List.append_assoc] at hrest
    exact hrest

theorem mem_putComponents (h : row ∈ (d.putComponents environmentId generation components).components) :
    row ∈ d.components ∧ ¬(row.environmentId = environmentId ∧
        row.componentRef ∈ components.map VerifiedComponent.componentRef) ∨
      row.environmentId = environmentId ∧ row.routingGeneration = generation ∧ row.observedState = .ready := by
  induction components generalizing d with
  | nil => exact .inl ⟨h, fun hhere => absurd hhere.2 List.not_mem_nil⟩
  | cons component components ih =>
    rcases ih h with ⟨hput, hnot⟩ | hready
    · rcases mem_putComponent hput with ⟨hold, hother⟩ | ⟨hplace, -, hgeneration, hready, -⟩
      · refine .inl ⟨hold, fun hhere => ?_⟩
        rcases List.mem_cons.mp hhere.2 with href | hrest
        · exact hother ⟨hhere.1, href⟩
        · exact hnot ⟨hhere.1, hrest⟩
      · exact .inr ⟨hplace, hgeneration, hready⟩
    · exact .inr hready

theorem verifiedComponent_ref {value : Actors.JsValue} (h : verifiedComponent value = .ok component) :
    property "component_ref" value = .ok (some (.str component.componentRef)) := by
  obtain ⟨ref, href, h⟩ := ExceptLoop.bind_eq_ok h
  obtain ⟨version, hversion, h⟩ := ExceptLoop.bind_eq_ok h
  obtain ⟨digest, hdigest, h⟩ := ExceptLoop.bind_eq_ok h
  rw [href]
  split at h
  · split_ifs at h
    cases h
    rfl
  · cases h

theorem verifiedComponents_cover {evidence : Actors.Record} {required : List String}
    (h : verifiedComponents evidence required = .ok components) :
    ∀ ref ∈ required, ref ∈ components.map VerifiedComponent.componentRef := by
  unfold verifiedComponents at h
  split at h
  · rename_i first rest hevidence
    obtain ⟨refs, hrefs, h⟩ := ExceptLoop.bind_eq_ok h
    split_ifs at h with hcover
    intro ref href
    obtain ⟨found, hfound, hsame⟩ := List.any_eq_true.mp (List.all_eq_true.mp hcover.2 ref href)
    obtain ⟨value, hvalue, hproperty⟩ := ExceptLoop.mem_mapM_ok hrefs hfound
    obtain ⟨component, hcomponent, hverified⟩ := ExceptLoop.mapM_ok_mem h hvalue
    have hread := (verifiedComponent_ref hverified).symm.trans hproperty
    cases hread
    have heq : component.componentRef = ref := beq_iff_eq.mp hsame
    exact List.mem_map.mpr ⟨component, hcomponent, heq⟩
  · cases h

theorem Observed.publish (h : Observed d successes) {movement : Movement} {returnEvidence : Option Actors.Record}
    (hcomponents : verifiedComponents movement.evidence (d.requiredComponents movement.environmentId) =
      .ok components) : Observed (d.publish movement returnEvidence components) (successes ++
      components.map (VerifiedComponent.success movement.environmentId movement.destinationGeneration)) := by
  have hcover := verifiedComponents_cover hcomponents
  have hrows : ∀ row ∈ (d.publish movement returnEvidence components).components,
      row ∈ d.components ∧ row.environmentId ≠ movement.environmentId ∨ row.environmentId = movement.environmentId ∧
          row.routingGeneration = movement.destinationGeneration ∧ row.observedState = .ready := by
    intro row hrow
    rcases mem_putComponents (d := d.setEnvironment movement.environmentId _) hrow with ⟨hold, hnot⟩ | hput
    · refine .inl ⟨hold, fun hplace => hnot ⟨hplace, hcover _ ?_⟩⟩
      exact List.mem_map_of_mem (List.mem_filter.mpr ⟨hold, decide_eq_true hplace⟩)
    · exact .inr hput
  constructor
  · intro row hrow environment henvironment
    rw [publish_environment?] at henvironment
    rcases hrows row hrow with ⟨hold, hother⟩ | ⟨hplace, hgeneration, -⟩
    · rw [if_neg hother] at henvironment
      exact h.aligned row hold environment henvironment
    · rw [if_pos hplace] at henvironment
      obtain ⟨was, -, rfl⟩ := Option.map_eq_some_iff.mp henvironment
      exact hgeneration
  · exact Proven.puts (d := d.setEnvironment movement.environmentId _) h.proven components
  · intro id environment henvironment hready row hrow hplace
    rcases hrows row hrow with ⟨hold, hother⟩ | ⟨-, -, hreadyRow⟩
    · rw [publish_environment?, if_neg (hplace ▸ hother)] at henvironment
      exact h.complete id environment henvironment hready row hold hplace
    · exact hreadyRow

end Publications

end AvenOS.Provisioner
