import AvenOS.Provisioner.FencedCopies

/-! # One live copy

Execution is enabled in the copy that the directory shows, if in any; and a copy that may not execute stays
so as long as a movement of its customer is pending. -/
namespace AvenOS.Provisioner
open LabelledRun

section Drivers
variable {start : Directory} {w : CustomerWorld} {world : World} {session : ℕ}

/-! ## The drivers -/

theorem drive_cases {outcome : Except String Actors.Record} (hstep : w.world.drive session outcome = some world) :
    ∃ controller movement, w.world.calls session = some (.controller controller) ∧
      controller.stage = .driving movement ∧
      ((∃ message, outcome = .error message ∧ world = w.world.answer session (.error message)) ∨
        ∃ evidence, outcome = .ok evidence ∧ world = w.world.goOn session controller (.driven movement evidence)) := by
  unfold World.drive at hstep
  split at hstep
  · rename_i controller hcall
    split at hstep
    · rename_i movement hstage
      refine ⟨controller, movement, hcall, hstage, ?_⟩
      split at hstep <;> cases hstep
      · exact .inl ⟨_, rfl, rfl⟩
      · exact .inr ⟨_, rfl, rfl⟩
    · cases hstep
  · cases hstep

theorem CustomerSound.failed (h : CustomerSound start w) {message : String}
    (hstep : w.world.drive session (.error message) = some world) : CustomerSound start (w.follow world) := by
  have hturn : step w.world (.drive session (.error message)) = some world := hstep
  have hsound := (step_turn h.sound hturn).sound
  have howned := step_owned h.owned rfl hturn
  obtain ⟨controller, movement, -, -, ⟨text, -, rfl⟩ | ⟨evidence, houtcome, -⟩⟩ := drive_cases hstep
  · exact h.answer hsound howned
  · cases houtcome

variable {databases : Databases} {movement : Movement}

theorem DriverSound.finished (h : DriverSound databases movement [])
    (hphase : movement.phase = .paused ∨ movement.phase = .returning) : SourcePaused databases movement := by
  obtain ⟨n, hdone, hpaused, -, hreturning⟩ := h
  have hlength : (driverProgram movement).length ≤ n := List.drop_eq_nil_iff.mp hdone.symm
  unfold driverProgram at hlength
  rcases hphase with hphase | hphase
  · rw [hphase] at hlength
    exact hpaused hphase (Nat.le_of_succ_le hlength)
  · rw [hphase] at hlength
    exact hreturning hphase (Nat.le_trans (by decide : 5 ≤ 9) hlength)

theorem CustomerSound.finished (h : CustomerSound start w) {evidence : Actors.Record}
    (hdone : w.work session = []) (hstep : w.world.drive session (.ok evidence) = some world) :
    CustomerSound start (w.follow world) := by
  have hturn : step w.world (.drive session (.ok evidence)) = some world := hstep
  have hsound := (step_turn h.sound hturn).sound
  have howned := step_owned h.owned rfl hturn
  obtain ⟨controller, movement, hcall, hstage, ⟨text, houtcome, -⟩ | ⟨other, -, rfl⟩⟩ := drive_cases hstep
  · cases houtcome
  · have hdriven := h.call session controller hcall
    rw [hstage, hdone] at hdriven
    exact h.goOn w.world rfl rfl (fun _ => DriverSound.finished hdriven) hsound howned

/-! ## One statement of a driver -/

variable {destination : Bool} {generation : ℕ} {databases' : Databases}

theorem program_prepare (h : .prepare destination generation ∈ driverProgram movement) :
    movement.phase = .copied ∧ destination = true ∨ movement.phase = .returning ∧ destination = false := by
  unfold driverProgram copy at h
  cases hphase : movement.phase <;> rw [hphase] at h
  case copied =>
    simp only [verify, List.mem_cons, List.not_mem_nil, reduceCtorEq, false_or, or_false, DriverOp.prepare.injEq] at h
    exact .inl ⟨rfl, h.1⟩
  case returning =>
    simp only [returnToSource, List.mem_cons, List.not_mem_nil, reduceCtorEq, false_or, or_false,
      DriverOp.prepare.injEq] at h
    exact .inr ⟨rfl, h.1⟩
  case fenced =>
    dsimp only at h
    cases hmode : movement.mode <;> rw [hmode] at h <;> exact absurd h (by simp)
  all_goals exact absurd h (by simp [fence, beforeActivate, afterActivate])

theorem prepare_late {n : ℕ} {rest : List DriverOp}
    (h : (driverProgram movement).drop n = .prepare destination generation :: rest) :
    (movement.phase = .copied → 2 ≤ n) ∧ (movement.phase = .returning → 5 ≤ n) := by
  have hat : (driverProgram movement)[n]? = some (.prepare destination generation) := by
    rw [← List.head?_drop, h]
    rfl
  unfold driverProgram at hat
  constructor
  · intro hphase
    rw [hphase] at hat
    by_contra hearly
    have hn : n = 0 ∨ n = 1 := by omega
    rcases hn with rfl | rfl <;> cases hat
  · intro hphase
    rw [hphase] at hat
    by_contra hearly
    have hn : n = 0 ∨ n = 1 ∨ n = 2 ∨ n = 3 ∨ n = 4 := by omega
    rcases hn with rfl | rfl | rfl | rfl | rfl <;> cases hat

theorem program_dump (h : .dump ∈ driverProgram movement) : movement.phase = .fenced := by
  unfold driverProgram at h
  cases hphase : movement.phase <;> rw [hphase] at h
  all_goals exact absurd h (by simp [fence, verify, beforeActivate, afterActivate, returnToSource])

theorem program_enable (h : .enable ∈ driverProgram movement) : movement.phase = .activated := by
  unfold driverProgram copy at h
  cases hphase : movement.phase <;> rw [hphase] at h
  case fenced =>
    dsimp only at h
    cases hmode : movement.mode <;> rw [hmode] at h <;> exact absurd h (by simp)
  all_goals exact absurd h (by simp [fence, verify, beforeActivate, returnToSource])

theorem exec_pause (h : (DriverOp.pause false).exec movement databases = some databases') :
    SourcePaused databases' movement := by
  unfold DriverOp.exec at h
  dsimp only at h
  cases hcopy : databases.copy? movement false with
  | none =>
    rw [hcopy] at h
    have hnot : passedOver movement false = false := Bool.and_false _
    dsimp only at h
    rw [hnot] at h
    cases h
  | some copy =>
    rw [hcopy] at h
    cases h
    exact ⟨_, putCopy_self, rfl⟩

theorem exec_identify (hphase : movement.phase = .copied)
    (h : (DriverOp.identify true).exec movement databases = some databases') :
    (databases'.copy? movement true).isSome = true := by
  rw [checkCopy_some h]
  unfold DriverOp.exec checkCopy at h
  dsimp only at h
  cases hcopy : databases.copy? movement true with
  | none =>
    have hnot : passedOver movement true = false := by
      unfold passedOver
      rw [hphase]
      rfl
    rw [hcopy] at h
    dsimp only at h
    rw [hnot] at h
    cases h
  | some copy => rfl

section Work
variable {controller : Controller} {movement : Movement} {op : DriverOp} {rest : List DriverOp}
  {databases : Databases}

theorem CustomerSound.careful (h : CustomerSound start w)
    (hmovement : w.world.directory.movement? controller.movementId = some movement)
    (hdriven : DriverSound w.databases movement (op :: rest)) : Careful movement w.databases op := by
  obtain ⟨n, hops, -, hcopied, hreturning⟩ := hdriven
  have hmem : op ∈ driverProgram movement := List.mem_of_mem_drop (hops ▸ List.mem_cons_self)
  refine ⟨h.archives, fun hdump => ?_, fun destination generation hprepare => ?_⟩
  · rw [hdump] at hmem
    refine h.fenced _ movement hmovement ?_
    rw [program_dump hmem]
    rfl
  · rw [hprepare] at hmem hops
    have hlate := prepare_late hops.symm
    rcases program_prepare hmem with ⟨hphase, rfl⟩ | ⟨hphase, rfl⟩
    · obtain ⟨copy, hcopy⟩ := Option.isSome_iff_exists.mp (hcopied hphase (hlate.1 hphase))
      refine ⟨copy, hcopy, ?_⟩
      by_contra hon
      have hpaused := h.fenced _ movement hmovement (by rw [hphase]; rfl)
      obtain ⟨environment, henvironment, hruntime, -⟩ := h.live _ _ copy hcopy (Bool.not_eq_false _ |>.mp hon)
      have hsource := h.sound.directory.source _ movement environment hmovement henvironment (by rw [hphase]; rfl)
      refine hon (hpaused.notEnabled copy ?_)
      rw [← hsource.1, hruntime]
      exact hcopy
    · exact hreturning hphase (hlate.2 hphase)

theorem DriverSound.worked (h : DriverSound w.databases movement (op :: rest))
    (hexec : op.exec movement w.databases = some databases) : DriverSound databases movement rest := by
  obtain ⟨n, hops, hpaused, hcopied, hreturning⟩ := h
  have hmem : op ∈ driverProgram movement := List.mem_of_mem_drop (hops ▸ List.mem_cons_self)
  have hdone := executed hexec
  have hnot : movement.phase ≠ .activated → op ≠ .enable := fun hphase henable =>
    hphase (program_enable (henable ▸ hmem))
  refine ⟨n + 1, ?_, fun hphase hn => ?_, fun hphase hn => ?_, fun hphase hn => ?_⟩
  · rw [← List.tail_drop, ← hops]
    rfl
  · rcases Nat.lt_or_ge n 2 with hearly | hlate
    · have hat : n = 1 := by omega
      unfold driverProgram at hops
      rw [hphase, hat] at hops
      cases hops
      exact exec_pause hexec
    · exact hdone.keepsPaused (hnot (by rw [hphase]; decide)) (hpaused hphase hlate)
  · rcases Nat.lt_or_ge n 2 with hearly | hlate
    · have hat : n = 1 := by omega
      unfold driverProgram at hops
      rw [hphase, hat] at hops
      cases hops
      exact exec_identify hphase hexec
    · exact hdone.keepsCopies (hcopied hphase hlate)
  · rcases Nat.lt_or_ge n 5 with hearly | hlate
    · have hat : n = 4 := by omega
      unfold driverProgram at hops
      rw [hphase, hat] at hops
      cases hops
      exact exec_pause hexec
    · exact hdone.keepsPaused (hnot (by rw [hphase]; decide)) (hreturning hphase hlate)

theorem SourcePaused.other {row : Movement} (h : SourcePaused w.databases row)
    (hdone : Executed movement w.databases op databases) (hother : row.environmentId ≠ movement.environmentId) :
    SourcePaused databases row := by
  obtain ⟨copy, hcopy, hpaused⟩ := h
  exact ⟨copy, (hdone.other hother).trans hcopy, hpaused⟩

theorem CopySome.other {row : Movement} (h : (w.databases.copy? row true).isSome = true)
    (hdone : Executed movement w.databases op databases) (hother : row.environmentId ≠ movement.environmentId) :
    (databases.copy? row true).isSome = true := by
  rw [Databases.copy?, hdone.other hother]
  exact h

end Work

section Elsewhere
variable {controller : Controller} {movement : Movement} {op : DriverOp} {databases : Databases} {other : ℕ}

theorem CustomerSound.elsewhere (h : CustomerSound start w)
    (hlock : w.world.advisory controller.movementId = some session)
    (hreads : Reads w.world controller.movementId movement) (hother : other ≠ session) {id : String}
    (hlocked : w.world.advisory id = some other) {row : Movement} (hrow : w.world.directory.movement? id = some row)
    (hactive : row.phase.active = true) : row.environmentId ≠ movement.environmentId := by
  intro hsame
  have hid := h.sound.directory.active _ _ row movement hrow hreads.1 hsame hactive hreads.2
  rw [hid, hlock] at hlocked
  exact hother (Option.some.inj hlocked).symm

theorem StageDriven.worked (h : CustomerSound start w) {held : Controller}
    (hlock : w.world.advisory controller.movementId = some session)
    (hreads : Reads w.world controller.movementId movement) (hother : other ≠ session)
    (hcall : w.world.calls other = some (.controller held))
    (hdone : Executed movement w.databases op databases) :
    StageDriven w.world.directory databases (w.work other) held.movementId held.stage := by
  have hown : StageOwns w.world other held.movementId held.stage := h.owned other _ hcall
  have hdriven := h.call other held hcall
  have hshown : ∀ {phase : MovementPhase}, w.world.advisory held.movementId = some other →
      Shows w.world held.movementId phase → phase.active = true →
      MovementPaused w.world.directory w.databases held.movementId →
      MovementPaused w.world.directory databases held.movementId := by
    intro phase hlocked hshows hactive hpaused
    obtain ⟨row, hrow, hrowPaused⟩ := hpaused
    obtain ⟨shown, hshown, hphase⟩ := hshows
    rw [hrow] at hshown
    cases hshown
    exact ⟨row, hrow, hrowPaused.other hdone (h.elsewhere hlock hreads hother hlocked hrow (hphase ▸ hactive))⟩
  have hback : ∀ {returnEvidence : Option Actors.Record}, (guardedPhase returnEvidence).active = true := by
    intro returnEvidence
    cases returnEvidence <;> rfl
  generalize held.stage = stage at hown hdriven
  cases stage with
  | claiming => trivial
  | asking => trivial
  | reading => trivial
  | driving row =>
    have haway := h.elsewhere hlock hreads hother hown.1 hown.2.1 hown.2.2
    obtain ⟨n, hops, hpaused, hcopied, hreturning⟩ := hdriven
    exact ⟨n, hops, fun hphase hn => (hpaused hphase hn).other hdone haway,
      fun hphase hn => CopySome.other (hcopied hphase hn) hdone haway,
      fun hphase hn => (hreturning hphase hn).other hdone haway⟩
  | driven row evidence =>
    have haway := h.elsewhere hlock hreads hother hown.1 hown.2.1 hown.2.2
    exact fun hphase => (hdriven hphase).other hdone haway
  | advancing source target evidence =>
    exact fun hpaused => hshown hown.1 hown.2 (by rw [hpaused]; rfl) (hdriven hpaused)
  | activating returnEvidence => exact fun hreturned => hshown hown.1 hown.2 hback (hdriven hreturned)
  | guarding row returnEvidence => exact fun hreturned => hshown hown.1 hown.2.1 hback (hdriven hreturned)
  | placing row returnEvidence guarded => exact fun hreturned => hshown hown.1 hown.2.1 hback (hdriven hreturned)
  | publishing row returnEvidence => exact fun hreturned => hshown hown.1 hown.2.1 hback (hdriven hreturned)

end Elsewhere

structure AtWork (w : CustomerWorld) (session : ℕ) (controller : Controller) (movement : Movement) (op : DriverOp)
    (rest : List DriverOp) : Prop where
  call : w.world.calls session = some (.controller controller)
  stage : controller.stage = .driving movement
  work : w.work session = op :: rest

section AtWork
variable {controller : Controller} {movement : Movement} {op : DriverOp} {rest : List DriverOp}
  {databases : Databases}

section
variable (hat : AtWork w session controller movement op rest)
include hat

theorem AtWork.owns (h : CustomerSound start w) :
    w.world.advisory controller.movementId = some session ∧ Reads w.world controller.movementId movement := by
  have hown : StageOwns w.world session controller.movementId controller.stage := h.owned session _ hat.call
  rw [hat.stage] at hown
  exact hown

theorem AtWork.driver (h : CustomerSound start w) : DriverSound w.databases movement (op :: rest) := by
  have hdriven := h.call session controller hat.call
  rw [hat.stage, hat.work] at hdriven
  exact hdriven

theorem AtWork.activated (h : CustomerSound start w) (hop : op = .enable) : movement.phase = .activated := by
  obtain ⟨n, hops, -⟩ := hat.driver h
  refine program_enable ?_
  rw [← hop]
  exact List.mem_of_mem_drop (hops ▸ List.mem_cons_self)

theorem AtWork.executed (h : CustomerSound start w) (hexec : op.exec movement w.databases = some databases) :
    Executed movement w.databases op databases ∧ Careful movement w.databases op :=
  ⟨AvenOS.Provisioner.executed hexec, h.careful (hat.owns h).2.1 (hat.driver h)⟩

end

theorem CustomerSound.worked (h : CustomerSound start w) (hat : AtWork w session controller movement op rest)
    (hexec : op.exec movement w.databases = some databases) : CustomerSound start
      { w with databases := databases, work := Function.update w.work session rest } := by
  obtain ⟨hlock, hreads⟩ := hat.owns h
  obtain ⟨hdone, hcareful⟩ := hat.executed h hexec
  refine ⟨h.sound, h.owned, ?_, hdone.keepsArchives hcareful, ?_, ?_⟩
  · intro runtimeId environmentId copy hcopy hon
    rcases hdone.enabled_cases hcareful hcopy hon with hold | ⟨hop, rfl, rfl, hgeneration⟩
    · exact h.live runtimeId environmentId copy hold hon
    · obtain ⟨environment, henvironment⟩ := h.sound.directory.environment _ movement hreads.1
      obtain ⟨hruntime, hrouting⟩ := h.sound.directory.destination _ movement environment hreads.1 henvironment
        (hat.activated h hop)
      exact ⟨environment, henvironment, hruntime, hrouting.trans hgeneration.symm⟩
  · intro id row hrow hfencing
    have hpaused := h.fenced id row hrow hfencing
    by_cases hop : op = .enable
    · refine hpaused.other hdone fun hsame => ?_
      have hid := h.sound.directory.active _ _ row movement hrow hreads.1 hsame
        (MovementPhase.fencing_active hfencing) hreads.2
      rw [hid, hreads.1] at hrow
      cases hrow
      rw [hat.activated h hop] at hfencing
      cases hfencing
    · exact hdone.keepsPaused hop hpaused
  · intro other held hcall
    by_cases hother : other = session
    · rw [hother] at hcall ⊢
      have hsame := hat.call.symm.trans hcall
      cases hsame
      dsimp only
      rw [Function.update_self, hat.stage]
      exact (hat.driver h).worked hexec
    · dsimp only
      rw [Function.update_of_ne hother]
      exact StageDriven.worked h hlock hreads hother hcall hdone

end AtWork

/-! ## Steps -/

/-- What one step does to the tables and to the copies. -/
inductive CustomerTurn (w : CustomerWorld) : CustomerWorld → Prop
  | directory {w' : CustomerWorld} {action : Action} (hstep : step w.world action = some w'.world)
      (hdatabases : w'.databases = w.databases) : CustomerTurn w w'
  | work {session : ℕ} {controller : Controller} {movement : Movement} {op : DriverOp} {rest : List DriverOp}
      {databases : Databases} (hat : AtWork w session controller movement op rest)
      (hexec : op.exec movement w.databases = some databases) :
      CustomerTurn w { w with databases := databases, work := Function.update w.work session rest }

theorem CustomerSound.step (h : CustomerSound start w) {action : CustomerAction} {w' : CustomerWorld}
    (hstep : customerStep w action = some w') : CustomerSound start w' ∧ CustomerTurn w w' := by
  cases action with
  | directory action =>
    unfold customerStep at hstep
    dsimp only at hstep
    split_ifs at hstep with hundriven
    obtain ⟨world, hworld, rfl⟩ := Option.map_eq_some_iff.mp hstep
    exact ⟨h.directory hundriven hworld, .directory hworld rfl⟩
  | work session =>
    unfold customerStep CustomerWorld.workStep at hstep
    dsimp only at hstep
    split at hstep
    · rename_i movement op rest hdriving hwork
      obtain ⟨controller, hcall, hstage⟩ := driving?_some hdriving
      cases hexec : op.exec movement w.databases with
      | none =>
        rw [hexec] at hstep
        obtain ⟨world, hworld, rfl⟩ := Option.map_eq_some_iff.mp hstep
        have hturn : AvenOS.Provisioner.step w.world (.drive session (.error "the driver has failed")) = some world :=
          hworld
        exact ⟨h.failed hworld, .directory hturn rfl⟩
      | some databases =>
        rw [hexec] at hstep
        cases hstep
        have hat : AtWork w session controller movement op rest := ⟨hcall, hstage, hwork⟩
        exact ⟨h.worked hat hexec, .work hat hexec⟩
    · cases hstep
  | fail session message =>
    unfold customerStep at hstep
    obtain ⟨world, hworld, rfl⟩ := Option.map_eq_some_iff.mp hstep
    have hturn : AvenOS.Provisioner.step w.world (.drive session (.error message)) = some world := hworld
    exact ⟨h.failed hworld, .directory hturn rfl⟩
  | finish session evidence =>
    unfold customerStep at hstep
    dsimp only at hstep
    split_ifs at hstep with hdone
    obtain ⟨world, hworld, rfl⟩ := Option.map_eq_some_iff.mp hstep
    have hturn : AvenOS.Provisioner.step w.world (.drive session (.ok evidence)) = some world := hworld
    exact ⟨h.finished hdone hworld, .directory hturn rfl⟩

end Drivers

/-! ## Runs -/

/-- Movements go on and the log grows. -/
def Later (w w' : World) : Prop := GoesOn w.directory w'.directory ∧ ∃ more, w'.events = w.events ++ more

theorem Later.refl (w : World) : Later w w := ⟨goesOn_self, [], (List.append_nil _).symm⟩

theorem Later.trans {w w' w'' : World} (h : Later w w') (h' : Later w' w'') : Later w w'' := by
  obtain ⟨hgoes, more, hmore⟩ := h
  obtain ⟨hgoes', rest, hrest⟩ := h'
  refine ⟨fun id movement hmovement => ?_, more ++ rest, by rw [hrest, hmore, List.append_assoc]⟩
  obtain ⟨next, hnext, hroute⟩ := hgoes id movement hmovement
  obtain ⟨last, hlast, hroute'⟩ := hgoes' id next hnext
  exact ⟨last, hlast, hroute'.trans hroute⟩

theorem Later.pending {start : Directory} {w w' : World} (h : Later w w') (hsound : WorldSound start w)
    (hsound' : WorldSound start w') {id : String} {movement next : Movement}
    (hmovement : w.directory.movement? id = some movement) (hnext : w'.directory.movement? id = some next)
    (hpending : next.phase.pending = true) : movement.phase.pending = true := by
  obtain ⟨more, hmore⟩ := h.2
  by_contra hover
  obtain ⟨publication, hpublication, hid⟩ :=
    hsound.directory.ended id movement hmovement (Bool.not_eq_true _ |>.mp hover)
  have hlater : publication ∈ publications w'.events := by
    rw [hmore, publications_append]
    exact List.mem_append_left _ hpublication
  obtain ⟨row, hrow, houtcome⟩ := hsound'.directory.outcome publication hlater
  rw [hid, hnext] at hrow
  cases hrow
  rw [houtcome.not_pending] at hpending
  cases hpending

section Runs
variable {start : Directory} {w w' : CustomerWorld}

theorem CustomerTurn.later (hturn : CustomerTurn w w') (h : CustomerSound start w) : Later w.world w'.world := by
  cases hturn with
  | directory hstep =>
    have hturn := step_turn h.sound hstep
    exact ⟨hturn.goesOn, hturn.grows⟩
  | work => exact Later.refl w.world

variable {movement : Movement} {runtimeId : String}

theorem CustomerTurn.keepsOff (hturn : CustomerTurn w w') (h : CustomerSound start w) {id : String}
    (hmovement : w.world.directory.movement? id = some movement) (hpending : movement.phase.pending = true)
    (hoff : NotEnabled w.databases runtimeId movement.environmentId) :
    NotEnabled w'.databases runtimeId movement.environmentId := by
  cases hturn with
  | directory hstep hdatabases =>
    rw [hdatabases]
    exact hoff
  | @work session controller driven op rest databases hat hexec =>
    intro copy hcopy
    by_contra hon
    have hon' : copy.executionEnabled = true := Bool.not_eq_false _ |>.mp hon
    obtain ⟨hdone, hcareful⟩ := hat.executed h hexec
    rcases hdone.enabled_cases hcareful hcopy hon' with hold | ⟨hop, -, hplace, -⟩
    · exact hon (hoff copy hold)
    · have hactivated := hat.activated h hop
      have hreads := (hat.owns h).2
      have hid := h.sound.directory.active _ _ movement driven hmovement hreads.1 hplace
        (MovementPhase.active_of_pending hpending) hreads.2
      rw [hid, hreads.1] at hmovement
      cases hmovement
      rw [hactivated] at hpending
      cases hpending

variable {actions : List CustomerAction}

theorem customerRun_sound (h : CustomerSound start w)
    (hrun : run customerStep w actions = some w') : CustomerSound start w' :=
  run_invariant (I := CustomerSound start) (P := fun _ => True) (fun _ _ _ _ hsound hstep => (hsound.step hstep).1)
    (fun _ _ => trivial) h hrun

theorem customerRun_later (h : CustomerSound start w)
    (hrun : run customerStep w actions = some w') : Later w.world w'.world :=
  run_relates (I := CustomerSound start) (P := fun _ => True) (R := fun w w' => Later w.world w'.world)
    (fun _ _ _ _ hsound hstep => (hsound.step hstep).1) (fun _ => Later.refl _) (fun _ _ _ => Later.trans)
    (fun _ _ _ _ hsound hstep => (hsound.step hstep).2.later hsound) (fun _ _ => trivial) h hrun

theorem customerRun_keepsOff (h : CustomerSound start w) (hrun : run customerStep w actions = some w') {id : String}
    {next : Movement} (hmovement : w.world.directory.movement? id = some movement)
    (hnext : w'.world.directory.movement? id = some next) (hpending : next.phase.pending = true)
    (hoff : NotEnabled w.databases runtimeId movement.environmentId) :
    NotEnabled w'.databases runtimeId movement.environmentId := by
  induction actions generalizing w movement with
  | nil =>
    cases hrun
    exact hoff
  | cons action actions ih =>
    obtain ⟨mid, hmid, hrest⟩ := run_cons hrun
    obtain ⟨hsound, hturn⟩ := h.step hmid
    have hlater := (hturn.later h).trans (customerRun_later hsound hrest)
    have hbefore := hlater.pending h.sound (customerRun_sound hsound hrest).sound hmovement hnext hpending
    obtain ⟨row, hrow, hroute⟩ := (hturn.later h).1 id movement hmovement
    have hplace : row.environmentId = movement.environmentId := congrArg Route.environmentId hroute
    have hkept := hturn.keepsOff h hmovement hbefore hoff
    rw [← hplace] at hkept ⊢
    exact ih hsound hrest hrow hkept

/-! ## One copy -/

/-- Customers that have never been moved, each with at most the copy that the directory shows. -/
structure CustomerWorld.Fresh (w : CustomerWorld) : Prop where
  world : w.world.Fresh
  live : Live w.world.directory w.databases
  archives : ∀ id, w.databases.archives id = none

theorem CustomerWorld.Fresh.sound {start : CustomerWorld} (h : start.Fresh) :
    CustomerSound start.world.directory start := by
  have hnone : ∀ id, start.world.directory.movement? id = none := by
    intro id
    rw [Directory.movement?, h.world.movements]
    rfl
  refine ⟨h.world.sound, fun session call hcall => ?_, h.live, fun id archive harchive => ?_,
    fun id row hrow => ?_, fun session controller hcall => ?_⟩
  · rw [h.world.calls session] at hcall
    cases hcall
  · rw [h.archives id] at harchive
    cases harchive
  · rw [hnone id] at hrow
    cases hrow
  · rw [h.world.calls session] at hcall
    cases hcall

structure OneLiveCopy (w : CustomerWorld) : Prop where
  single : ∀ environmentId one other copy copy', w.databases.copies one environmentId = some copy →
    w.databases.copies other environmentId = some copy' → copy.executionEnabled = true →
    copy'.executionEnabled = true → one = other
  published : Live w.world.directory w.databases
  fenced : ∀ id movement, w.world.directory.movement? id = some movement → movement.phase.fencing = true →
    ∀ runtimeId, NotEnabled w.databases runtimeId movement.environmentId

def StaysOff (w w' : CustomerWorld) : Prop :=
  ∀ id movement next, w.world.directory.movement? id = some movement →
    w'.world.directory.movement? id = some next → next.phase.pending = true →
    ∀ runtimeId, NotEnabled w.databases runtimeId movement.environmentId →
      NotEnabled w'.databases runtimeId movement.environmentId

theorem MovementPhase.fencing_pending {phase : MovementPhase} (h : phase.fencing = true) : phase.pending = true := by
  cases phase <;> cases h <;> rfl

theorem CustomerSound.oneLiveCopy (h : CustomerSound start w) : OneLiveCopy w where
  single environmentId one other copy copy' hone hother hon hon' := by
    obtain ⟨environment, henvironment, hruntime, -⟩ := h.live one environmentId copy hone hon
    obtain ⟨environment', henvironment', hruntime', -⟩ := h.live other environmentId copy' hother hon'
    rw [henvironment] at henvironment'
    cases henvironment'
    exact hruntime.symm.trans hruntime'
  published := h.live
  fenced id movement hmovement hfencing runtimeId copy hcopy := by
    by_contra hon
    obtain ⟨environment, henvironment, hruntime, -⟩ :=
      h.live runtimeId movement.environmentId copy hcopy (Bool.not_eq_false _ |>.mp hon)
    have hsource := h.sound.directory.source id movement environment hmovement henvironment
      (MovementPhase.fencing_pending hfencing)
    refine hon ((h.fenced id movement hmovement hfencing).notEnabled copy ?_)
    rw [← hsource.1, hruntime]
    exact hcopy

end Runs

/-! ## A move with its copies -/

def oneCustomerCopies : CustomerWorld where
  world := oneCustomer
  databases :=
    { copies := fun runtimeId environmentId =>
        if runtimeId = "a" ∧ environmentId = "customer" then some ⟨true, 1, none⟩ else none
      archives := fun _ => none }
  work := fun _ => []

theorem oneCustomerCopies_fresh : oneCustomerCopies.Fresh where
  world := oneCustomer_fresh
  live runtimeId environmentId copy hcopy _ := by
    have hfound : (if runtimeId = "a" ∧ environmentId = "customer" then some (⟨true, 1, none⟩ : Copy) else none) =
        some copy := hcopy
    split_ifs at hfound with hhere
    cases hfound
    rw [hhere.1, hhere.2]
    exact ⟨_, rfl, rfl, rfl⟩
  archives _ := rfl

/-- The driver does its part, and the controller goes on. -/
def driverRound (session statements : ℕ) (evidence : Actors.Record) : List CustomerAction :=
  .directory (.proceed session) :: List.replicate statements (.work session) ++
    [.finish session evidence, .directory (.proceed session), .directory (.proceed session)]

/-- A move up to the statement that lets the copy at the destination execute. -/
def moveCustomer : List CustomerAction :=
  .directory (.begin 0 ⟨"move", "customer", "a", "b", 1, none, false⟩) ::
    List.replicate 4 (.directory (.proceed 0)) ++
    [.directory (.resume 1 "move" true false), .directory (.proceed 1)] ++ driverRound 1 3 [] ++
    driverRound 1 4 [] ++ driverRound 1 5 verifiedCore ++ driverRound 1 3 [] ++
    List.replicate 4 (.directory (.proceed 1)) ++ [.work 1, .work 1]

end AvenOS.Provisioner
