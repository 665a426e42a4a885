import AvenOS.ActorRunner.ExecutionBarrier
import AvenOS.ActorRunner.IdempotentStart
import Mathlib.Data.Rat.Encodable

/-! # One execution for each turn of a run

A run is taken up once because it was accepted, and once for each revision at which it waited and was
resumed. What takes it up holds its lock, and leaves a row that cannot be taken up for that turn again. -/
namespace AvenOS.ActorRunner
open Actors LabelledRun Json

def Attempt.turn : Attempt → Option ℕ
  | .accepted => none
  | .resumed _ _ expectedRevision => some expectedRevision

/-- The turn is over. -/
def Spent (row : Row) : Option ℕ → Prop
  | none => row.state ≠ .accepted
  | some revision => revision < row.revision ∨ row.state = .cancelled

def Event.takesUp (runId : String) (turn : Option ℕ) : Event → Bool
  | .entered _ own attempt => own == runId && attempt.turn == turn
  | _ => false

/-- The call is inside its executor, or has left it and is about to save. -/
def Call.inside (runId : String) (turn : Option ℕ) : Call → Prop
  | .executing record attempt => record.runId = runId ∧ attempt.turn = turn
  | .saving record attempt => record.runId = runId ∧ attempt.turn = turn
  | _ => False

def Taken (w : World) (session : ℕ) (runId : String) (turn : Option ℕ) : Prop :=
  (∃ row, w.runs runId = some row ∧ Spent row turn) ∨
    ∃ call, w.calls session = some call ∧ call.inside runId turn

structure TurnsOk (w : World) : Prop where
  taken : ∀ session runId attempt, .entered session runId attempt ∈ w.log →
    Taken w session runId attempt.turn
  marking : ∀ session record attempt, w.calls session = some (.marking record attempt) →
    w.log.filter (Event.takesUp record.runId attempt.turn) = []
  once : ∀ runId turn, (w.log.filter (Event.takesUp runId turn)).length ≤ 1

section Turns
variable {runner : Runner} {w w' : World} {session : ℕ} {events : List Event}

variable {row : Row} {attempt : Attempt} {runId : String} {turn : Option ℕ} {record : PlanRunRecord}

theorem Spent.not_savable (h : Spent row attempt.turn) : savable row attempt = false := by
  cases attempt with
  | accepted =>
    have hstate : row.state ≠ .accepted := h
    simp [savable, hstate]
  | resumed index kind expectedRevision =>
    rcases (h : expectedRevision < row.revision ∨ row.state = .cancelled) with hrevision | hstate
    · simp [savable, show row.revision ≠ expectedRevision by omega]
    · simp [savable, hstate]

theorem Spent.moves (h : Spent row turn) (hok : RowOk runId row) (hrow : w.runs runId = some row)
    (hmoves : RowMoves runner w w' session runId) : ∃ later, w'.runs runId = some later ∧ Spent later turn := by
  cases hmoves with
  | same hsame => exact ⟨row, hsame.trans hrow, h⟩
  | inserted request now habsent hnew hprior =>
    rw [habsent] at hrow
    cases hrow
  | changed old record hold hnew hchange hguard =>
    rw [hrow] at hold
    cases hold
    refine ⟨_, hnew, ?_⟩
    cases turn with
    | none => exact hchange.not_accepted (hok.state ▸ h)
    | some revision =>
      rcases (h : revision < row.revision ∨ row.state = .cancelled) with hrevision | hstate
      · left
        change revision < record.revision
        rw [hchange.revision, ← hok.revision]
        omega
      · exact absurd (hok.state.symm.trans hstate) hchange.not_final.1

theorem savingStep_spent (hw : WorldOk runner w) (hcall : w.calls session = some (.saving record attempt)) :
    ∃ row, (savingStep w session record attempt).runs record.runId = some row ∧ Spent row attempt.turn := by
  obtain ⟨base, outcome, moment, hanswers, hcurrent, hrecord⟩ := (hw.calls session _ hcall).based
  have hchange : Change base record := hrecord ▸ .concluded base attempt outcome moment hanswers
  have hid := hchange.runId
  unfold savingStep
  cases hfound : (w.runs record.runId).filter fun row => savable row attempt with
  | none =>
    rw [hid] at hfound
    obtain ⟨row, hrow, hcancelled⟩ := hcurrent.cancelled hfound
    refine ⟨row, hid ▸ hrow, ?_⟩
    cases attempt with
    | accepted => simp [Attempt.turn, Spent, hcancelled]
    | resumed index kind expectedRevision => exact .inr hcancelled
  | some row =>
    obtain ⟨hrow, hsavable⟩ := Option.filter_eq_some_iff.mp hfound
    have hbase : row.record = base := hcurrent.stored (hid ▸ hrow) hsavable
    refine ⟨row.write record, Function.update_self _ _ _, ?_⟩
    cases attempt with
    | accepted =>
      have hconcluded := conclude_cases base .accepted outcome moment
      rw [← hrecord] at hconcluded
      change record.state ≠ .accepted
      cases hconcluded with
      | applied result applied now happlied => cases happlied <;> simp [touch]
      | failed left message now hleft => simp [touch, failRecord]
    | resumed index kind expectedRevision =>
      left
      have hrevision : row.revision = expectedRevision := by
        simp only [savable, Bool.and_eq_true, decide_eq_true_eq] at hsavable
        exact hsavable.2
      have hcolumn := (hw.table.rows _ row hrow).revision
      change expectedRevision < record.revision
      rw [hchange.revision, ← hbase, ← hcolumn, hrevision]
      exact Nat.lt_succ_self _

theorem step_saving {action : Action} (hkept : action.kept) (hw : WorldOk runner w)
    (hcall : w.calls (action.actor w) = some (.saving record attempt)) (h : step runner w action = some w') :
    w' = savingStep w (action.actor w) record attempt := by
  have hidle := hw.idle w.sessions (le_refl _)
  cases action with
  | advance session tick =>
    change w.calls session = some _ at hcall
    rw [step, hcall] at h
    exact (Option.some.inj h).symm
  | report session tick progress =>
    change w.calls session = some _ at hcall
    rw [step, hcall] at h
    cases h
  | finish session tick outcome =>
    change w.calls session = some _ at hcall
    rw [step, hcall] at h
    cases h
  | crash session => exact hkept.elim
  | _ =>
    change w.calls w.sessions = some _ at hcall
    rw [hidle] at hcall
    cases hcall

theorem takesUp_iff {event : Event} : event.takesUp runId turn = true ↔
      ∃ session attempt, event = .entered session runId attempt ∧ attempt.turn = turn := by
  cases event with
  | entered session own attempt =>
    simp only [Event.takesUp, Bool.and_eq_true, beq_iff_eq, Event.entered.injEq]
    constructor
    · rintro ⟨rfl, hturn⟩
      exact ⟨session, attempt, ⟨rfl, rfl, rfl⟩, hturn⟩
    · rintro ⟨_, _, ⟨-, rfl, rfl⟩, hturn⟩
      exact ⟨rfl, hturn⟩
  | answered request answer => simp [Event.takesUp]
  | returned session own answer => simp [Event.takesUp]

theorem Call.inside_attempts {call : Call} (h : call.inside runId turn) : call.attempts = some runId := by
  cases call with
  | executing record attempt => exact congrArg some h.1
  | saving record attempt => exact congrArg some h.1
  | _ => exact h.elim

section Kept
variable (hturns : TurnsOk w) (hw : WorldOk runner w) (hlog : LogOk w)
  (hmoves : Moves runner w w' session) (hpasses : Passes runner w w' session events)
  (hsaving : ∀ (record : PlanRunRecord) (attempt : Attempt),
    w.calls session = some (.saving record attempt) → w' = savingStep w session record attempt)
include hturns hw hlog hmoves hpasses

variable {own : ℕ} {runId : String}

omit hturns hlog in
include hsaving in
theorem Taken.kept {turn : Option ℕ} (h : Taken w own runId turn) : Taken w' own runId turn := by
  rcases h with ⟨row, hrow, hspent⟩ | ⟨call, hcall, hinside⟩
  · exact .inl (hspent.moves (hw.table.rows runId row hrow) hrow (hmoves.rows runId))
  · by_cases hown : own = session
    · subst hown
      cases call with
      | executing record attempt =>
        have hpassage := hpasses.passage
        rw [hcall] at hpassage
        right
        generalize w'.calls own = after at hpassage ⊢
        cases hpassage with
        | outside call next hout => exact hout.elim
        | answered call request answer hout => exact hout.elim
        | given call own answer hout => exact hout.elim
        | refused call own answer hout =>
          rcases hout with hout | ⟨record, attempt, hmarking⟩
          · exact hout.elim
          · cases hmarking
        | reported record next attempt hid => exact ⟨_, rfl, hid.trans hinside.1, hinside.2⟩
        | finished record next attempt hid => exact ⟨_, rfl, hid.trans hinside.1, hinside.2⟩
      | saving record attempt =>
        obtain ⟨row, hrow, hspent⟩ := savingStep_spent hw hcall
        rw [← hsaving record attempt hcall] at hrow
        exact .inl ⟨row, hinside.1 ▸ hrow, hinside.2 ▸ hspent⟩
      | _ => exact hinside.elim
    · refine .inr ⟨call, ?_, hinside⟩
      rcases hmoves.others own hown with hsame | ⟨hidle, -⟩
      · rw [hsame, hcall]
      · rw [hw.idle own hidle] at hcall
        cases hcall

omit hlog in
include hsaving in
theorem TurnsOk.taken_kept {attempt : Attempt} (hevent : .entered own runId attempt ∈ w'.log) :
    Taken w' own runId attempt.turn := by
  rcases hpasses.mem_log.mp hevent with hold | hnew
  · exact (hturns.taken own runId attempt hold).kept hw hmoves hpasses hsaving
  · obtain ⟨rfl, record, hid, -, hafter⟩ := hpasses.passage.entered_event hnew
    exact .inr ⟨_, hafter, hid, rfl⟩

theorem TurnsOk.prepared {purpose : Purpose} {record : PlanRunRecord} {attempt : Attempt} {row : Row}
    (hcall : w.calls session = some (.loading runId purpose)) (hid : record.runId = runId)
    (hrow : w.runs record.runId = some row) (hsavable : savable row attempt = true) :
    w.log.filter (Event.takesUp record.runId attempt.turn) = [] := by
  refine List.filter_eq_nil_iff.mpr fun event hevent htakes => ?_
  obtain ⟨other, own, rfl, hturn⟩ := takesUp_iff.1 htakes
  rcases hturns.taken other _ own hevent with ⟨row', hrow', hspent⟩ | ⟨call, hother, hinside⟩
  · rw [hrow] at hrow'
    cases hrow'
    rw [hturn] at hspent
    rw [hspent.not_savable] at hsavable
    cases hsavable
  · have hlocked := (hw.calls session _ hcall).locked runId rfl
    have hheld := (hw.calls other call hother).locked _ (Call.attempts_holds (Call.inside_attempts hinside))
    rw [hid, hlocked] at hheld
    cases hheld
    rw [hcall] at hother
    cases hother
    exact hinside.elim

theorem TurnsOk.marking_kept {record : PlanRunRecord} {attempt : Attempt}
    (hcall : w'.calls own = some (.marking record attempt)) :
    w'.log.filter (Event.takesUp record.runId attempt.turn) = [] := by
  have hevents : w.log.filter (Event.takesUp record.runId attempt.turn) = [] ∧
      ∀ event ∈ events, event.takesUp record.runId attempt.turn = true → False := by
    by_cases hown : own = session
    · subst hown
      have hpassage := hpasses.passage
      rw [hcall] at hpassage
      generalize hbefore : w.calls own = before at hpassage
      cases hpassage with
      | opened next hidle hfresh => exact (hfresh _ rfl).elim
      | outside call next hout hnext => exact hnext.elim
      | prepared runId purpose record attempt row hrow hsavable hid =>
        exact ⟨hturns.prepared hw hlog hmoves hpasses hbefore hid hrow hsavable, fun _ hmem => by cases hmem⟩
    · rcases hmoves.others_cases hown hcall with hsame | ⟨-, hfresh⟩
      · refine ⟨hturns.marking own record attempt hsame, fun event hevent htakes => ?_⟩
        -- another session that enters would have the lock of the same run
        obtain ⟨other, entered, rfl, -⟩ := takesUp_iff.1 htakes
        obtain ⟨rfl, marked, hid, hbefore, -⟩ := hpasses.passage.entered_event hevent
        exact hown (attempts_exclusive hw hsame hbefore rfl (congrArg some hid))
      · exact hfresh.elim
  rw [hpasses.log, List.filter_append, hevents.1, List.nil_append]
  exact List.filter_eq_nil_iff.mpr fun event hevent htakes => hevents.2 event hevent htakes

omit hlog in
theorem TurnsOk.once_kept (runId : String) (turn : Option ℕ) :
    (w'.log.filter (Event.takesUp runId turn)).length ≤ 1 := by
  rw [hpasses.log, List.filter_append]
  by_cases hentered : ∃ event ∈ events, event.takesUp runId turn = true
  · obtain ⟨event, hevent, htakes⟩ := hentered
    obtain ⟨other, attempt, rfl, hturn⟩ := takesUp_iff.1 htakes
    obtain ⟨rfl, record, rfl, hbefore, -⟩ := hpasses.passage.entered_event hevent
    rw [← hturn, hturns.marking other record attempt hbefore, List.nil_append]
    exact (List.length_filter_le _ _).trans hpasses.passage.events_length
  · have hnone : events.filter (Event.takesUp runId turn) = [] :=
      List.filter_eq_nil_iff.mpr fun event hevent htakes => hentered ⟨event, hevent, htakes⟩
    rw [hnone, List.append_nil]
    exact hturns.once runId turn

include hsaving in
theorem TurnsOk.moves : TurnsOk w' where
  taken := fun _ _ _ => hturns.taken_kept hw hmoves hpasses hsaving
  marking := fun _ _ _ => hturns.marking_kept hw hlog hmoves hpasses
  once := hturns.once_kept hw hmoves hpasses

end Kept

theorem start_turnsOk : TurnsOk World.start where
  taken := fun _ _ _ h => by cases h
  marking := fun _ _ _ h => by cases h
  once := fun _ _ => Nat.zero_le _

theorem run_turnsOk {actions : List Action} (hkept : ∀ action ∈ actions, action.kept)
    (h : run (step runner) World.start actions = some w) : TurnsOk w := by
  refine (run_invariant (I := fun w => AttemptsOk runner w ∧ TurnsOk w) (P := Action.kept)
    (fun s action s' hkept hs hstep => ⟨step_attemptsOk hs.1 hkept hstep, ?_⟩)
    hkept ⟨start_attemptsOk, start_turnsOk⟩ h).2
  have hmoves := step_moves hs.1.world hstep
  obtain ⟨events, hpasses⟩ := step_passes hs.1.world hkept hstep
  exact hs.2.moves hs.1.world hs.1.log hmoves hpasses
    fun record attempt hcall => step_saving hkept hs.1.world hcall hstep

end Turns

/-! ## Idempotent starts -/

/-- Nothing but the call of the session has changed. -/
structure Untouched (w w' : World) (session : ℕ) : Prop where
  ids : w'.ids = w.ids
  runs : w'.runs = w.runs
  enabled : w'.executionEnabled = w.executionEnabled
  unsettled : w'.executionUnsettled = w.executionUnsettled
  locks : w'.locks = w.locks
  calls : ∀ other, other ≠ session → w'.calls other = w.calls other

structure SingleExecution (runner : Runner) (w : World) : Prop where
  /-- A start that reaches the table has the run of its key, or a conflict. -/
  starts : ∀ request request' handle answer, .answered request (.handle handle) ∈ w.log →
    .answered request' answer ∈ w.log → request.subjectId = request'.subjectId →
    request.idempotencyKey = request'.idempotencyKey → TurnedAway request' answer ∨
      if sameMaterial request request' = true then
        ∃ handle', answer = .handle handle' ∧ handle'.runId = handle.runId
      else answer = conflict boundMessage
  /-- A start changes nothing before it answers with a handle. -/
  untouched : ∀ session call request tick w', w.calls session = some call →
    call.request = some request → step runner w (.advance session tick) = some w' →
    Untouched w w' session ∨ ∃ handle, w'.log = w.log ++ [.answered request (.handle handle)]
  /-- An accepted run is taken up once, and a waiting one once for each revision. -/
  turns : ∀ runId turn, (w.log.filter (Event.takesUp runId turn)).length ≤ 1
  /-- A call enters the executor once. -/
  sessions : ∀ session, (w.log.filter (Event.enters session)).length ≤ 1
  exclusive : ∀ one other (record record' : PlanRunRecord) attempt attempt',
    w.calls one = some (.executing record attempt) →
    w.calls other = some (.executing record' attempt') → record.runId = record'.runId → one = other

theorem admitted_portable {request : PlanRunStartRequest} (h : admitted request = .ok ()) :
    request.portable = .ok () := by
  unfold admitted at h
  cases hportable : request.portable with
  | error message =>
    rw [hportable] at h
    cases h
  | ok _ => rfl

/-- Materials whose names `localeCompare` tells apart. -/
def Action.apart (platform : Platform) : Action → Prop :=
  Action.requests fun request => NamesApart platform (material request)

section Runs
variable {platform : Platform} {lockKey : String → ℤ} {barrier : Bool} {w : World} {actions : List Action}

theorem StartStep.untouched {runner : Runner} {w w' : World} {session : ℕ} {call : Call}
    {request : PlanRunStartRequest} (h : StartStep runner w w' session call)
    (hrequest : call.request = some request) :
    Untouched w w' session ∨ ∃ handle, w'.log = w.log ++ [.answered request (.handle handle)] := by
  cases h with
  | next later hsame hquiet hadmits hreplays =>
    subst hquiet
    exact .inl ⟨rfl, rfl, rfl, rfl, rfl, fun other hother => Function.update_of_ne hother _ _⟩
  | answered own answer hown hquiet hanswer =>
    subst hquiet
    exact .inl ⟨rfl, rfl, rfl, rfl, rfl, fun other hother => Function.update_of_ne hother _ _⟩
  | inserted own tick hcall hadmitted hprior hinserted =>
    subst hcall
    cases hrequest
    exact .inr ⟨_, by rw [hinserted]; rfl⟩

/-- Where no process is lost and the names of all materials are told apart. -/
theorem single_execution (hplatform : platform.Reliable) (hkept : ∀ action ∈ actions, action.kept)
    (hapart : ∀ action ∈ actions, action.apart platform)
    (h : run (step (hashingRunner platform lockKey barrier)) World.start actions = some w) :
    SingleExecution (hashingRunner platform lockKey barrier) w := by
  have hattempts := run_attemptsOk hkept h
  have hstarts := run_startsOk hapart h
  refine ⟨fun request request' handle answer hanswered hanswered' hsubject hkey => ?_,
    fun session call request tick w' hcall hrequest hstep =>
      (start_step hattempts.world hstarts hcall hrequest hstep).untouched hrequest,
    (run_turnsOk hkept h).once, hattempts.log.once,
    fun one other record record' attempt attempt' hone hother hid => ?_⟩
  · obtain ⟨hnames, hanswer⟩ := hstarts.answered request _ hanswered
    obtain ⟨hnames', hanswer'⟩ := hstarts.answered request' answer hanswered'
    have hadmitted : admitted request = .ok () := by
      cases hanswer with
      | away answer haway =>
        obtain ⟨message, hmessage, -⟩ := haway
        cases hmessage
      | found handle row hadmitted => exact hadmitted
    refine (starts_agree hattempts.world.table hanswer hanswer' hsubject hkey).imp_right ?_
    rintro ⟨hadmitted', hcases⟩
    have hsame := materialHash_eq_iff hplatform (material_portable (admitted_portable hadmitted))
      (material_portable (admitted_portable hadmitted')) hnames (distinct_of_apart hplatform _ hnames')
    rcases hcases with ⟨hhash, hhandle⟩ | ⟨hhash, hconflict⟩
    · rw [if_pos (hsame.mp hhash)]
      exact hhandle
    · rw [if_neg fun hmaterial => hhash (hsame.mpr hmaterial)]
      exact hconflict
  · exact attempts_exclusive hattempts.world hone hother rfl (congrArg some hid.symm)

end Runs

/-! ## Two spellings of one name -/

/-- A letter with an accent is its letter and the accent. -/
def decomposed (c : Char) : List Char := if c = 'é' then ['e', '\u0301'] else [c]

def readingPlatform : Platform where
  localeCompare left right := compare
    ((left.toList.flatMap decomposed).map Char.toNat) ((right.toList.flatMap decomposed).map Char.toNat)
  numberText value := String.ofList ('1' :: List.replicate (Encodable.encode value) '1')
  sha256 := String.ofList

theorem isNumber_ones (n : ℕ) : isNumber ('1' :: List.replicate n '1') = true := by
  have hdrop : (List.replicate n '1').dropWhile Char.isDigit = [] := List.dropWhile_eq_nil_iff.mpr fun c hc => by
      rw [List.eq_of_mem_replicate hc]
      rfl
  rw [isNumber, if_neg (by decide), isUnsigned, if_neg (by decide), hdrop]
  rfl

theorem readingPlatform_reliable : readingPlatform.Reliable where
  localeCompare := StableSort.transCmp_on (fun left right : List ℕ => compare left right)
    fun name : String => (name.toList.flatMap decomposed).map Char.toNat
  numberText_isNumber := fun value => by
    rw [readingPlatform, String.toList_ofList]
    exact isNumber_ones _
  numberText_injective := fun one other h => by
    have hlength := congrArg List.length (String.ofList_injective h)
    simp only [List.length_cons, List.length_replicate, Nat.add_right_cancel_iff] at hlength
    exact Encodable.encode_injective hlength
  sha256_injective := fun _ _ h => String.ofList_injective h

def parametersRequest (parameters : Record) : PlanRunStartRequest :=
  { commandRequest with parameters := parameters }

def twoStarts (first second : Record) : List Action :=
  [.start (parametersRequest first), .start (parametersRequest second)] ++ advances 0 2 ++ advances 1 3

/-- A start has the run of its key, and another one of equal material has a conflict. -/
def clashes : Event → Event → Bool
  | .answered request (.handle _), .answered request' answer =>
    request.subjectId == request'.subjectId && request.idempotencyKey == request'.idempotencyKey &&
      sameMaterial request request' && (admitted request').toBool && answer == conflict boundMessage
  | _, _ => false

theorem not_singleExecution {runner : Runner} {w : World}
    (h : (w.log.any fun event => w.log.any (clashes event)) = true) : ¬ SingleExecution runner w := by
  intro hsingle
  obtain ⟨event, hevent, hany⟩ := List.any_eq_true.mp h
  obtain ⟨other, hother, hclash⟩ := List.any_eq_true.mp hany
  unfold clashes at hclash
  split at hclash
  · rename_i request handle request' answer
    simp only [Bool.and_eq_true, beq_iff_eq] at hclash
    obtain ⟨⟨⟨⟨hsubject, hkey⟩, hsame⟩, hadmitted⟩, rfl⟩ := hclash
    rcases hsingle.starts request request' handle _ hevent hother hsubject hkey with haway | hagree
    · obtain ⟨message, hmessage, hrejected | hpaused⟩ := haway
      · rw [hrejected] at hadmitted
        cases hadmitted
      · rw [hpaused] at hmessage
        exact absurd (Answer.failed.inj hmessage) (by decide)
    · rw [if_pos hsame] at hagree
      obtain ⟨_, hhandle, -⟩ := hagree
      cases hhandle
  · cases hclash

/-- The members of one object in two orders. -/
def accentFirst : Record := [("é", .str "one"), ("e\u0301", .str "two")]

def accentLast : Record := [("e\u0301", .str "two"), ("é", .str "one")]

/-- Equal materials conflict where one name is spelled in two ways. -/
theorem equal_materials_conflict : ∃ w,
    run (step (hashingRunner readingPlatform (fun _ => 0) false)) World.start
      (twoStarts accentFirst accentLast) = some w ∧
    sameMaterial (parametersRequest accentFirst) (parametersRequest accentLast) = true ∧
    ¬ SingleExecution (hashingRunner readingPlatform (fun _ => 0) false) w := by
  have hclash : ((run (step (hashingRunner readingPlatform (fun _ => 0) false)) World.start
      (twoStarts accentFirst accentLast)).any fun w =>
        w.log.any fun event => w.log.any (clashes event)) = true := by
    decide +kernel
  obtain ⟨w, hw, hany⟩ := (Option.any_eq_true _ _).mp hclash
  exact ⟨w, hw, by decide +kernel, not_singleExecution hany⟩

/-- Two orders of names that differ. -/
theorem single_execution_reordered : ∃ w,
    run (step (hashingRunner readingPlatform (fun _ => 0) false)) World.start
      (twoStarts [("a", .null), ("b", .null)] [("b", .null), ("a", .null)]) = some w ∧
    SingleExecution (hashingRunner readingPlatform (fun _ => 0) false) w := by
  have hsome : (run (step (hashingRunner readingPlatform (fun _ => 0) false)) World.start
      (twoStarts [("a", .null), ("b", .null)] [("b", .null), ("a", .null)])).isSome = true := by
    decide +kernel
  obtain ⟨w, hw⟩ := Option.isSome_iff_exists.mp hsome
  refine ⟨w, hw, single_execution readingPlatform_reliable (fun action haction => ?_)
    (fun action haction => ?_) hw⟩
  · simp only [twoStarts, advances, List.replicate, List.cons_append, List.nil_append,
      List.mem_cons, List.not_mem_nil, or_false] at haction
    rcases haction with rfl | rfl | rfl | rfl | rfl | rfl | rfl <;> trivial
  · simp only [twoStarts, advances, List.replicate, List.cons_append, List.nil_append,
      List.mem_cons, List.not_mem_nil, or_false] at haction
    rcases haction with rfl | rfl | rfl | rfl | rfl | rfl | rfl
    · refine ⟨by decide +kernel, trivial, trivial, trivial, trivial, trivial, ⟨by decide +kernel, ?_⟩, trivial⟩
      exact ⟨trivial, trivial, trivial⟩
    · refine ⟨by decide +kernel, trivial, trivial, trivial, trivial, trivial, ⟨by decide +kernel, ?_⟩, trivial⟩
      exact ⟨trivial, trivial, trivial⟩
    all_goals trivial

end AvenOS.ActorRunner
