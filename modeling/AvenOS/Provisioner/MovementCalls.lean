import AvenOS.Provisioner.MovementTables

/-! # What the calls know

A call that holds the row of an environment knows that row; what it has read of a movement stays true up to
its phase. Neither is broken by what the other calls do. -/
namespace AvenOS.Provisioner
open KeyedTable

/-! ## Facts -/

/-- The call holds the row of an environment, and the row is as `P` says. -/
def Held (w : World) (session : ℕ) (environmentId : String) (P : Environment → Prop) : Prop :=
  w.locked environmentId = some session ∧
    ∃ environment, w.directory.environment? environmentId = some environment ∧ P environment

def Holds (w : World) (movement : Movement) (returning : Bool) : Prop :=
  ∃ row, w.directory.movement? movement.id = some row ∧ Bound row movement returning

def Guarded (w : World) (movementId : String) : Prop :=
  ∃ row, w.directory.movement? movementId = some row ∧
    (row.phase = .verified ∨ row.phase.pending = false ∨ .returned movementId ∈ w.events)

def BeginSound (w : World) (session : ℕ) (input : BeginInput) : BeginStage → Prop
  | .locking => True
  | .looking none => True
  | .looking (some environment) => Held w session input.environmentId fun row => row = environment
  | .checking => Held w session input.environmentId fun row => placeable input row = true
  | .retaining => Held w session input.environmentId fun row => placeable input row = true
  | .claiming _ => Held w session input.environmentId fun row => placeable input row = true
  | .recording _ => Held w session input.environmentId fun row => placeable input row = true

def StageSound (w : World) (session : ℕ) : ControllerStage → Prop
  | .advancing source target _ => successor source = some target
  | .guarding movement returnEvidence => Holds w movement returnEvidence.isSome
  | .placing movement returnEvidence guarded =>
    Holds w movement returnEvidence.isSome ∧ (guarded = true → returnEvidence = none → Guarded w movement.id)
  | .publishing movement returnEvidence =>
    Holds w movement returnEvidence.isSome ∧
      Held w session movement.environmentId (fun row => activatable movement row = true) ∧
      (returnEvidence = none → Guarded w movement.id)
  | _ => True

def CallSound (w : World) (session : ℕ) : Call → Prop
  | .begin input stage => BeginSound w session input stage
  | .controller controller => StageSound w session controller.stage

structure WorldSound (start : Directory) (w : World) : Prop where
  directory : DirectorySound start w.directory (publications w.events)
  call : ∀ session call, w.calls session = some call → CallSound w session call

/-! ## What others leave alone -/

/-- What a step of one call does not do to the others. -/
structure Spares (session : ℕ) (w w' : World) : Prop where
  goesOn : GoesOn w.directory w'.directory
  guarded : ∀ id, Guarded w id → Guarded w' id
  locked : ∀ other, other ≠ session → ∀ id, w.locked id = some other → w'.locked id = some other
  rows : ∀ other, other ≠ session → ∀ id, w.locked id = some other →
    w'.directory.environment? id = w.directory.environment? id

section Spared
variable {w w' : World} {session other : ℕ} {start : Directory}

theorem Held.spared {environmentId : String} {P : Environment → Prop} (h : Held w other environmentId P)
    (hspares : Spares session w w') (hother : other ≠ session) : Held w' other environmentId P := by
  obtain ⟨hlocked, environment, hrow, hP⟩ := h
  refine ⟨hspares.locked other hother _ hlocked, environment, ?_, hP⟩
  rw [hspares.rows other hother _ hlocked]
  exact hrow

theorem Holds.goesOn {movement : Movement} {returning : Bool} (h : Holds w movement returning)
    (hgoes : GoesOn w.directory w'.directory) : Holds w' movement returning := by
  obtain ⟨row, hrow, hbound⟩ := h
  obtain ⟨next, hnext, hroute⟩ := hgoes _ row hrow
  exact ⟨next, hnext, hbound.goesOn hroute⟩

theorem BeginSound.spared {input : BeginInput} {stage : BeginStage} (h : BeginSound w other input stage)
    (hspares : Spares session w w') (hother : other ≠ session) : BeginSound w' other input stage := by
  cases stage with
  | locking => trivial
  | looking environment =>
    cases environment with
    | none => trivial
    | some environment => exact Held.spared h hspares hother
  | checking => exact Held.spared h hspares hother
  | retaining => exact Held.spared h hspares hother
  | claiming retained => exact Held.spared h hspares hother
  | recording retained => exact Held.spared h hspares hother

theorem StageSound.spared {stage : ControllerStage} (h : StageSound w other stage)
    (hspares : Spares session w w') (hother : other ≠ session) : StageSound w' other stage := by
  cases stage with
  | advancing source target evidence => exact h
  | guarding movement returnEvidence => exact Holds.goesOn h hspares.goesOn
  | placing movement returnEvidence guarded =>
    exact ⟨h.1.goesOn hspares.goesOn, fun hguarded hnone => hspares.guarded _ (h.2 hguarded hnone)⟩
  | publishing movement returnEvidence =>
    exact ⟨h.1.goesOn hspares.goesOn, h.2.1.spared hspares hother, fun hnone => hspares.guarded _ (h.2.2 hnone)⟩
  | claiming => trivial
  | asking => trivial
  | reading => trivial
  | driving movement => trivial
  | driven movement evidence => trivial
  | activating returnEvidence => trivial

variable {call : Call} {locks : String → Option ℕ}

theorem CallSound.spared (h : CallSound w other call) (hspares : Spares session w w') (hother : other ≠ session) :
    CallSound w' other call := by
  cases call with
  | begin input stage => exact BeginSound.spared h hspares hother
  | controller controller => exact StageSound.spared h hspares hother

theorem WorldSound.next (h : WorldSound start w) (session : ℕ) (hspares : Spares session w w')
    (hcalls : ∀ other, other ≠ session → w'.calls other = w.calls other)
    (hdirectory : DirectorySound start w'.directory (publications w'.events))
    (hown : ∀ call, w'.calls session = some call → CallSound w' session call) : WorldSound start w' := by
  refine ⟨hdirectory, fun other call hcall => ?_⟩
  by_cases hother : other = session
  · rw [hother] at hcall ⊢
    exact hown call hcall
  · rw [hcalls other hother] at hcall
    exact (h.call other call hcall).spared hspares hother

/-! ## Steps that leave the tables alone -/

structure Quietly (session : ℕ) (w w' : World) : Prop where
  directory : w'.directory = w.directory
  events : ∃ more, w'.events = w.events ++ more ∧ publications more = []
  locked : ∀ other, other ≠ session → ∀ id, w.locked id = some other → w'.locked id = some other
  calls : ∀ other, other ≠ session → w'.calls other = w.calls other

theorem Guarded.later {movementId : String} (h : Guarded w movementId) (hdirectory : w'.directory = w.directory)
    (hevents : ∃ more, w'.events = w.events ++ more) : Guarded w' movementId := by
  obtain ⟨row, hrow, hphase⟩ := h
  obtain ⟨more, hmore⟩ := hevents
  rw [Guarded, hdirectory, hmore]
  exact ⟨row, hrow, hphase.imp_right (Or.imp_right fun hmem => List.mem_append_left _ hmem)⟩

theorem Quietly.spares (h : Quietly session w w') : Spares session w w' where
  goesOn := by
    rw [h.directory]
    exact goesOn_self
  guarded id hguarded := hguarded.later h.directory (h.events.imp fun _ hmore => hmore.1)
  locked := h.locked
  rows other _ id _ := by rw [h.directory]

theorem WorldSound.quietly (h : WorldSound start w) (hquiet : Quietly session w w')
    (hown : ∀ call, w'.calls session = some call → CallSound w' session call) : WorldSound start w' := by
  refine h.next session hquiet.spares hquiet.calls ?_ hown
  obtain ⟨more, hmore, hnone⟩ := hquiet.events
  rw [hquiet.directory, hmore, publications_append, hnone, List.append_nil]
  exact h.directory

theorem update_other {sessions : ℕ → Option Call} {put : Option Call} (hother : other ≠ session) :
    Function.update sessions session put other = sessions other := Function.update_of_ne hother _ _

theorem release_other {id : String} (hother : other ≠ session) (h : locks id = some other) :
    World.release session locks id = some other := by
  unfold World.release
  rw [if_neg (fun hown => hother (Option.some.inj (h.symm.trans hown)))]
  exact h

theorem quietly_answer (outcome : Except String String) : Quietly session w (w.answer session outcome) where
  directory := rfl
  events := ⟨_, rfl, rfl⟩
  locked _ hother _ h := release_other hother h
  calls _ hother := update_other hother

theorem quietly_setCall (call : Call) : Quietly session w (w.setCall session call) where
  directory := rfl
  events := ⟨[], (List.append_nil _).symm, rfl⟩
  locked _ _ _ h := h
  calls _ hother := update_other hother

theorem answer_calls (outcome : Except String String) : (w.answer session outcome).calls session = none :=
  Function.update_self session _ _

theorem WorldSound.answer (h : WorldSound start w) (outcome : Except String String) :
    WorldSound start (w.answer session outcome) :=
  h.quietly (quietly_answer outcome) fun call hcall => by
    rw [answer_calls] at hcall
    cases hcall

theorem setCall_calls (call : Call) : (w.setCall session call).calls session = some call :=
  Function.update_self session _ _

theorem CallSound.setCall {call' : Call} (h : CallSound w session call) :
    CallSound (w.setCall other call') session call := h

theorem WorldSound.setCall (h : WorldSound start w) (hcall : CallSound w session call) :
    WorldSound start (w.setCall session call) :=
  h.quietly (quietly_setCall call) fun call' hcall' => by
    rw [setCall_calls] at hcall'
    cases hcall'
    exact hcall.setCall

theorem locked_other {id key : String} (hfree : World.free session locks key) (hother : other ≠ session)
    (h : locks id = some other) : Function.update locks key (some session) id = some other := by
  by_cases hid : id = key
  · rw [hid] at h
    rcases hfree with hnone | hown
    · rw [hnone] at h
      cases h
    · rw [hown] at h
      exact absurd (Option.some.inj h).symm hother
  · rw [Function.update_of_ne hid]
    exact h

theorem WorldSound.lockRow (h : WorldSound start w) {id : String} (hfree : World.free session w.locked id)
    (hcall : CallSound (w.lockRow session id) session call) :
    WorldSound start ((w.lockRow session id).setCall session call) := by
  refine h.quietly ⟨rfl, ⟨[], (List.append_nil _).symm, rfl⟩, fun _ hother _ => locked_other hfree hother,
    fun _ hother => update_other hother⟩ fun call' hcall' => ?_
  rw [setCall_calls] at hcall'
  cases hcall'
  exact hcall.setCall

theorem WorldSound.advisory (h : WorldSound start w) (advisory : String → Option ℕ) :
    WorldSound start { w with advisory := advisory } := ⟨h.directory, h.call⟩

end Spared

end AvenOS.Provisioner
