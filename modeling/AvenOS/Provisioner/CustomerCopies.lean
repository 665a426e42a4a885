import AvenOS.Provisioner.MovementDriver

/-! # What a driver does to the copies

A statement of the driver changes copies of its own customer only. Only one of them lets a copy execute, and
only one gives a copy another generation. -/
namespace AvenOS.Provisioner

/-! ## Copies -/

def Paused (databases : Databases) (runtimeId environmentId : String) : Prop :=
  ∃ copy, databases.copies runtimeId environmentId = some copy ∧ copy.executionEnabled = false

def NotEnabled (databases : Databases) (runtimeId environmentId : String) : Prop :=
  ∀ copy, databases.copies runtimeId environmentId = some copy → copy.executionEnabled = false

variable {databases databases' : Databases} {movement : Movement}

theorem Paused.notEnabled {runtimeId environmentId : String} (h : Paused databases runtimeId environmentId) :
    NotEnabled databases runtimeId environmentId := by
  intro copy hcopy
  obtain ⟨other, hother, hpaused⟩ := h
  rw [hcopy] at hother
  cases hother
  exact hpaused

section Put
variable {databases : Databases} {movement : Movement} {destination : Bool} {copy : Copy}

theorem putCopy_self : (databases.putCopy movement destination copy).copies (movement.runtimeId destination)
    movement.environmentId = some copy := by
  unfold Databases.putCopy Databases.setCopy
  dsimp only
  rw [Function.update_self, Function.update_self]

variable {runtimeId environmentId : String}

theorem putCopy_other (h : ¬(runtimeId = movement.runtimeId destination ∧ environmentId = movement.environmentId)) :
    (databases.putCopy movement destination copy).copies runtimeId environmentId =
      databases.copies runtimeId environmentId := by
  unfold Databases.putCopy Databases.setCopy
  dsimp only
  by_cases hruntime : runtimeId = movement.runtimeId destination
  · have henvironment : environmentId ≠ movement.environmentId := fun henvironment => h ⟨hruntime, henvironment⟩
    rw [hruntime, Function.update_self, Function.update_of_ne henvironment]
  · rw [Function.update_of_ne hruntime]

theorem putCopy_cases {other : Copy}
    (h : (databases.putCopy movement destination copy).copies runtimeId environmentId = some other) :
    (runtimeId = movement.runtimeId destination ∧ environmentId = movement.environmentId ∧ other = copy) ∨
      databases.copies runtimeId environmentId = some other := by
  by_cases hhere : runtimeId = movement.runtimeId destination ∧ environmentId = movement.environmentId
  · obtain ⟨rfl, rfl⟩ := hhere
    rw [putCopy_self] at h
    exact .inl ⟨rfl, rfl, (Option.some.inj h).symm⟩
  · rw [putCopy_other hhere] at h
    exact .inr h

end Put

theorem checkCopy_some {destination : Bool} {check : Copy → Bool}
    (h : checkCopy databases movement destination check = some databases') : databases' = databases := by
  unfold checkCopy at h
  split at h <;> split_ifs at h <;> exact (Option.some.inj h).symm

/-! ## Statements -/

inductive Executed (movement : Movement) (databases : Databases) : DriverOp → Databases → Prop
  | checked {op : DriverOp} (hop : op ≠ .enable) : Executed movement databases op databases
  | paused {destination : Bool} {copy : Copy} (hcopy : databases.copy? movement destination = some copy) :
      Executed movement databases (.pause destination)
        (databases.putCopy movement destination { copy with executionEnabled := false })
  | dumped {copy : Copy} (hcopy : databases.copy? movement false = some copy) :
      Executed movement databases .dump
        { databases with archives := Function.update databases.archives movement.id (some copy) }
  | restored {archive : Copy} (hcopy : databases.copy? movement true = none)
      (harchive : databases.archives movement.id = some archive) :
      Executed movement databases .restore
        (databases.putCopy movement true { archive with marker := some movement.id })
  | made {destination : Bool} {generation : ℕ} (hcopy : databases.copy? movement destination = none) :
      Executed movement databases (.prepare destination generation)
        (databases.putCopy movement destination ⟨true, generation, none⟩)
  | prepared {destination : Bool} {generation : ℕ} {copy : Copy}
      (hcopy : databases.copy? movement destination = some copy) :
      Executed movement databases (.prepare destination generation)
        (databases.putCopy movement destination { copy with routingGeneration := generation })
  | enabled {copy : Copy} (hcopy : databases.copy? movement true = some copy)
      (hgeneration : copy.routingGeneration = movement.destinationGeneration) :
      Executed movement databases .enable
        (databases.putCopy movement true { copy with executionEnabled := movement.mode ≠ .rollback })

theorem executed {op : DriverOp} (h : op.exec movement databases = some databases') :
    Executed movement databases op databases' := by
  cases op with
  | identify destination =>
    rw [checkCopy_some h]
    exact .checked (fun h => nomatch h)
  | pause destination =>
    unfold DriverOp.exec at h
    dsimp only at h
    cases hcopy : databases.copy? movement destination with
    | none =>
      rw [hcopy] at h
      dsimp only at h
      split_ifs at h
      cases h
      exact .checked (fun h => nomatch h)
    | some copy =>
      rw [hcopy] at h
      cases h
      exact .paused hcopy
  | assertFenced destination =>
    rw [checkCopy_some h]
    exact .checked (fun h => nomatch h)
  | dump =>
    unfold DriverOp.exec at h
    dsimp only at h
    cases harchive : databases.archives movement.id with
    | some archive =>
      rw [harchive] at h
      cases h
      exact .checked (fun h => nomatch h)
    | none =>
      rw [harchive] at h
      cases hcopy : databases.copy? movement false with
      | none =>
        rw [hcopy] at h
        cases h
      | some copy =>
        rw [hcopy] at h
        cases h
        exact .dumped hcopy
  | restore =>
    unfold DriverOp.exec at h
    dsimp only at h
    cases hcopy : databases.copy? movement true with
    | some copy =>
      rw [hcopy] at h
      dsimp only at h
      split_ifs at h
      cases h
      exact .checked (fun h => nomatch h)
    | none =>
      rw [hcopy] at h
      cases harchive : databases.archives movement.id with
      | none =>
        rw [harchive] at h
        cases h
      | some archive =>
        rw [harchive] at h
        cases h
        exact .restored hcopy harchive
  | prepare destination generation =>
    unfold DriverOp.exec at h
    dsimp only at h
    cases hcopy : databases.copy? movement destination with
    | none =>
      rw [hcopy] at h
      cases h
      exact .made hcopy
    | some copy =>
      rw [hcopy] at h
      cases h
      exact .prepared hcopy
  | expectGeneration destination generation =>
    rw [checkCopy_some h]
    exact .checked (fun h => nomatch h)
  | enable =>
    unfold DriverOp.exec at h
    dsimp only at h
    cases hcopy : databases.copy? movement true with
    | none =>
      rw [hcopy] at h
      cases h
    | some copy =>
      rw [hcopy] at h
      dsimp only at h
      split_ifs at h with hgeneration
      cases h
      exact .enabled hcopy hgeneration

section Executed
variable {movement : Movement} {databases databases' : Databases} {op : DriverOp}
  {runtimeId environmentId : String}

theorem Executed.other (h : Executed movement databases op databases')
    (hother : environmentId ≠ movement.environmentId) :
    databases'.copies runtimeId environmentId = databases.copies runtimeId environmentId := by
  cases h with
  | checked => rfl
  | paused => exact putCopy_other fun hhere => hother hhere.2
  | dumped => rfl
  | restored => exact putCopy_other fun hhere => hother hhere.2
  | made => exact putCopy_other fun hhere => hother hhere.2
  | prepared => exact putCopy_other fun hhere => hother hhere.2
  | enabled => exact putCopy_other fun hhere => hother hhere.2

theorem Executed.keepsPaused (h : Executed movement databases op databases') (hop : op ≠ .enable)
    (hpaused : Paused databases runtimeId environmentId) : Paused databases' runtimeId environmentId := by
  obtain ⟨copy, hcopy, hdisabled⟩ := hpaused
  have hput : ∀ destination next, (databases.copy? movement destination = some copy → next.executionEnabled = false) →
      databases.copy? movement destination = databases.copies (movement.runtimeId destination) movement.environmentId →
      Paused (databases.putCopy movement destination next) runtimeId environmentId := by
    intro destination next hnext hwhere
    by_cases hhere : runtimeId = movement.runtimeId destination ∧ environmentId = movement.environmentId
    · obtain ⟨rfl, rfl⟩ := hhere
      exact ⟨next, putCopy_self, hnext (hwhere.trans hcopy)⟩
    · exact ⟨copy, (putCopy_other hhere).trans hcopy, hdisabled⟩
  cases h with
  | checked => exact ⟨copy, hcopy, hdisabled⟩
  | paused hold => exact hput _ _ (fun _ => rfl) rfl
  | dumped hold => exact ⟨copy, hcopy, hdisabled⟩
  | restored hold harchive =>
    refine hput _ _ (fun hsome => ?_) rfl
    rw [hold] at hsome
    cases hsome
  | made hold =>
    refine hput _ _ (fun hsome => ?_) rfl
    rw [hold] at hsome
    cases hsome
  | prepared hold =>
    refine hput _ _ (fun hsome => ?_) rfl
    rw [hold] at hsome
    cases hsome
    exact hdisabled
  | enabled => exact absurd rfl hop

theorem Executed.keepsCopies (h : Executed movement databases op databases')
    (hsome : (databases.copies runtimeId environmentId).isSome = true) :
    (databases'.copies runtimeId environmentId).isSome = true := by
  have hput : ∀ destination next,
      ((databases.putCopy movement destination next).copies runtimeId environmentId).isSome = true := by
    intro destination next
    by_cases hhere : runtimeId = movement.runtimeId destination ∧ environmentId = movement.environmentId
    · obtain ⟨rfl, rfl⟩ := hhere
      rw [putCopy_self]
      rfl
    · rw [putCopy_other hhere]
      exact hsome
  cases h with
  | checked => exact hsome
  | paused => exact hput _ _
  | dumped => exact hsome
  | restored => exact hput _ _
  | made => exact hput _ _
  | prepared => exact hput _ _
  | enabled => exact hput _ _

/-- What is needed before a statement, so that it lets no other copy execute. -/
structure Careful (movement : Movement) (databases : Databases) (op : DriverOp) : Prop where
  archives : ∀ id archive, databases.archives id = some archive → archive.executionEnabled = false
  dump : op = .dump → Paused databases movement.sourceRuntimeId movement.environmentId
  prepare : ∀ destination generation, op = .prepare destination generation →
    Paused databases (movement.runtimeId destination) movement.environmentId

theorem Executed.enabled_cases (h : Executed movement databases op databases')
    (hcareful : Careful movement databases op) {copy : Copy}
    (hcopy : databases'.copies runtimeId environmentId = some copy) (hon : copy.executionEnabled = true) :
    databases.copies runtimeId environmentId = some copy ∨
      op = .enable ∧ runtimeId = movement.destinationRuntimeId ∧ environmentId = movement.environmentId ∧
        copy.routingGeneration = movement.destinationGeneration := by
  cases h with
  | checked => exact .inl hcopy
  | paused =>
    rcases putCopy_cases hcopy with ⟨-, -, rfl⟩ | hold
    · cases hon
    · exact .inl hold
  | dumped => exact .inl hcopy
  | restored _ harchive =>
    rcases putCopy_cases hcopy with ⟨-, -, rfl⟩ | hold
    · rw [hcareful.archives _ _ harchive] at hon
      cases hon
    · exact .inl hold
  | made hnone =>
    obtain ⟨other, hother, -⟩ := hcareful.prepare _ _ rfl
    exact nomatch hnone.symm.trans hother
  | prepared hsome =>
    rcases putCopy_cases hcopy with ⟨-, -, rfl⟩ | hold
    · rw [(hcareful.prepare _ _ rfl).notEnabled _ hsome] at hon
      cases hon
    · exact .inl hold
  | enabled _ hgeneration =>
    rcases putCopy_cases hcopy with ⟨hruntime, henvironment, rfl⟩ | hold
    · exact .inr ⟨rfl, hruntime, henvironment, hgeneration⟩
    · exact .inl hold

theorem Executed.keepsArchives (h : Executed movement databases op databases')
    (hcareful : Careful movement databases op) :
    ∀ id archive, databases'.archives id = some archive → archive.executionEnabled = false := by
  intro id archive harchive
  cases h with
  | dumped hcopy =>
    by_cases hid : id = movement.id
    · rw [hid] at harchive
      dsimp only at harchive
      rw [Function.update_self] at harchive
      cases harchive
      exact (hcareful.dump rfl).notEnabled _ hcopy
    · dsimp only at harchive
      rw [Function.update_of_ne hid] at harchive
      exact hcareful.archives id archive harchive
  | checked => exact hcareful.archives id archive harchive
  | paused => exact hcareful.archives id archive harchive
  | restored => exact hcareful.archives id archive harchive
  | made => exact hcareful.archives id archive harchive
  | prepared => exact hcareful.archives id archive harchive
  | enabled => exact hcareful.archives id archive harchive

end Executed

end AvenOS.Provisioner
