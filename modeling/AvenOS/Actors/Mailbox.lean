import AvenOS.Actors.Runtime
import AvenOS.Foundations.LabelledRun

/-! # The mailbox of an actor

Deliveries push a message and start the pump, which hands the messages to their handlers one at a time. A handler may suspend
and may deliver to its own actor; the pump goes on when the handler has settled. -/
namespace AvenOS.Actors.Mailbox
open LabelledRun

/-- A delivery, numbered in the order of arrival. -/
structure Message where
  id : ℕ
  method : String
deriving DecidableEq, Repr

/-- What `err instanceof Error ? err.message : String(err)` makes of a thrown value. -/
inductive Reason
  | text (reason : String)
  /-- A message that cannot stand in a template, such as a symbol. -/
  | unprintable
  /-- Reading it throws, as `String` does for an object without a prototype. -/
  | unreadable
deriving DecidableEq, Repr

/-- How one run of a handler ends. -/
inductive Outcome
  | returned (result : HandlerResult)
  | threw (reason : Reason)

/-- A call of `#handle`: the handler runs, the call has its answer, or the call itself has thrown. -/
inductive Handling
  | running (attempt : ℕ)
  | answer (result : HandlerResult)
  | rejected

/-- A pump that waits for `#handle` with a message. -/
structure Pump where
  message : Message
  handling : Handling

inductive Event
  | begun (id : ℕ)
  | returned (id : ℕ) (result : HandlerResult)
  | threw (id : ℕ) (reason : Reason)
  | answered (id : ℕ) (result : HandlerResult)

/-- The private state of an actor, with every delivery and what happened to it. -/
structure State where
  mailbox : List Message
  pumping : Bool
  pumps : List Pump
  failures : ℕ
  lastError : Option String
  arrivals : List Message
  history : List Event

def start : State := ⟨[], false, [], 0, none, [], []⟩

inductive Action
  | deliver (method : String)
  /-- The handler that a pump waits for returns or throws. -/
  | settle (pump : ℕ) (outcome : Outcome)
  /-- A pump whose call has settled goes on. -/
  | resume (pump : ℕ)

def errorResult (text : String) : HandlerResult where
  record := .ok (.obj [("ok", .bool false), ("error", .str text)])
  wire := text

section Handle
variable (name : String) (handles : String → Bool)

def unknownMethod (method : String) : HandlerResult := errorResult s!"{name} does not know {method}"

def failedResult (method reason : String) : HandlerResult := errorResult s!"{method} failed: {reason}"

/-- One turn of the loop in `#pump`, up to where it waits; without a message the pump ends. -/
def loop (s : State) : State × Option Pump :=
  match s.mailbox with
  | [] => ({ s with pumping := false }, none)
  | message :: mailbox =>
    if handles message.method then
      ({ s with mailbox, history := s.history ++ [.begun message.id] }, some ⟨message, .running 0⟩)
    else ({ s with mailbox }, some ⟨message, .answer (unknownMethod name message.method)⟩)

def deliver (s : State) (method : String) : State :=
  let message : Message := ⟨s.arrivals.length, method⟩
  let s := { s with mailbox := s.mailbox ++ [message], arrivals := s.arrivals ++ [message] }
  if s.pumping then s
  else
    let (s, pump) := loop name handles { s with pumping := true }
    { s with pumps := s.pumps ++ pump.toList }

/-- The catch clause of `#handle`. -/
def caught (s : State) (message : Message) (attempt : ℕ) : Reason → State × Handling
  | .unreadable => (s, .rejected)
  | reason =>
    match attempt, reason with
    | 0, _ => ({ s with history := s.history ++ [.begun message.id] }, .running 1)
    | _ + 1, .text reason =>
      ({ s with failures := s.failures + 1, lastError := some s!"{message.method}: {reason}" },
        .answer (failedResult message.method reason))
    | _ + 1, _ => ({ s with failures := s.failures + 1 }, .rejected)

def settled (s : State) (message : Message) (attempt : ℕ) : Outcome → State × Handling
  | .returned result => ({ s with history := s.history ++ [.returned message.id result] }, .answer result)
  | .threw reason => caught { s with history := s.history ++ [.threw message.id reason] } message attempt reason

def step (s : State) : Action → Option State
  | .deliver method => some (deliver name handles s method)
  | .settle pump outcome =>
    match s.pumps[pump]? with
    | some ⟨message, .running attempt⟩ =>
      let (s, handling) := settled s message attempt outcome
      some { s with pumps := s.pumps.set pump ⟨message, handling⟩ }
    | _ => none
  | .resume pump =>
    match s.pumps[pump]? with
    | some ⟨message, .answer result⟩ =>
      match loop name handles { s with history := s.history ++ [.answered message.id result] } with
      | (s, some next) => some { s with pumps := s.pumps.set pump next }
      | (s, none) => some { s with pumps := s.pumps.eraseIdx pump }
    | some ⟨_, .rejected⟩ => some { s with pumping := false, pumps := s.pumps.eraseIdx pump }
    | _ => none

end Handle

/-- A handler that throws throws what the catch clause can put into words: on the second attempt as text, on the first at
least so that reading it does not throw. -/
def contained (s : State) : Action → Bool
  | .settle pump (.threw reason) =>
    match s.pumps[pump]?, reason with
    | some ⟨_, .running _⟩, .unreadable => false
    | some ⟨_, .running (_ + 1)⟩, .unprintable => false
    | _, _ => true
  | _ => true

/-! ## Courses of messages -/

inductive Course
  | unknown
  | first (result : HandlerResult)
  | second (reason : Reason) (result : HandlerResult)
  | failed (reason : Reason) (last : String)

structure Handled where
  message : Message
  course : Course

namespace Handled

def isFailed : Handled → Bool
  | ⟨_, .failed _ _⟩ => true
  | _ => false

def runs : Handled → List Event
  | ⟨_, .unknown⟩ => []
  | ⟨m, .first result⟩ => [.begun m.id, .returned m.id result]
  | ⟨m, .second reason result⟩ => [.begun m.id, .threw m.id reason, .begun m.id, .returned m.id result]
  | ⟨m, .failed reason last⟩ => [.begun m.id, .threw m.id reason, .begun m.id, .threw m.id (.text last)]

def answer (name : String) : Handled → HandlerResult
  | ⟨m, .unknown⟩ => unknownMethod name m.method
  | ⟨_, .first result⟩ => result
  | ⟨_, .second _ result⟩ => result
  | ⟨m, .failed _ last⟩ => failedResult m.method last

def events (name : String) (h : Handled) : List Event := h.runs ++ [.answered h.message.id (h.answer name)]

/-- Only messages with a handler have runs, and what a first run threw could be read. -/
def Fits (handles : String → Bool) : Handled → Prop
  | ⟨m, .unknown⟩ => handles m.method = false
  | ⟨m, .first _⟩ => handles m.method = true
  | ⟨m, .second reason _⟩ => handles m.method = true ∧ reason ≠ .unreadable
  | ⟨m, .failed reason _⟩ => handles m.method = true ∧ reason ≠ .unreadable

end Handled

section Discipline
variable (name : String) (handles : String → Bool)

/-- The message of a pump: how far its call of `#handle` is, with the events so far and the failures it counted. -/
inductive InHand (m : Message) : Handling → List Event → ℕ → Prop
  | first (h : handles m.method = true) : InHand m (.running 0) [.begun m.id] 0
  | second (reason : Reason) (h : handles m.method = true) (hreason : reason ≠ .unreadable) :
      InHand m (.running 1) [.begun m.id, .threw m.id reason, .begun m.id] 0
  | done (course : Course) (h : Handled.Fits handles ⟨m, course⟩) :
      InHand m (.answer (Handled.answer name ⟨m, course⟩)) (Handled.runs ⟨m, course⟩)
        (if Handled.isFailed ⟨m, course⟩ then 1 else 0)

/-- The messages handled so far in the order of arrival, then the one in hand, then the mailbox; the history is their courses
one after another. -/
inductive Stands (s : State) (handled : List Handled) : Prop
  | idle (hpumps : s.pumps = []) (hpumping : s.pumping = false) (hmailbox : s.mailbox = [])
      (harrivals : s.arrivals = handled.map Handled.message)
      (hhistory : s.history = handled.flatMap (Handled.events name))
      (hfailures : s.failures = handled.countP Handled.isFailed)
  | busy (m : Message) (handling : Handling) (events : List Event) (failures : ℕ)
      (hpumps : s.pumps = [⟨m, handling⟩]) (hpumping : s.pumping = true)
      (harrivals : s.arrivals = handled.map Handled.message ++ m :: s.mailbox)
      (hhistory : s.history = handled.flatMap (Handled.events name) ++ events)
      (hfailures : s.failures = handled.countP Handled.isFailed + failures)
      (hhand : InHand name handles m handling events failures)

structure Kept (s : State) : Prop where
  numbered : s.arrivals.map Message.id = List.range s.arrivals.length
  stands : ∃ handled : List Handled, (∀ h ∈ handled, h.Fits handles) ∧ Stands name handles s handled

variable {name handles}

/-! ## One turn of a pump -/

variable (name handles) in
theorem loop_pumps (s : State) : (loop name handles s).1.pumps = s.pumps := by
  unfold loop
  split
  · rfl
  · split <;> rfl

theorem loop_arrivals (s : State) : (loop name handles s).1.arrivals = s.arrivals := by
  unfold loop
  split
  · rfl
  · split <;> rfl

variable {handled : List Handled} {m : Message} {action : Action} {events : List Event} {failures : ℕ}

theorem loop_stands {s : State} (hpumping : s.pumping = true)
    (harrivals : s.arrivals = handled.map Handled.message ++ s.mailbox)
    (hhistory : s.history = handled.flatMap (Handled.events name))
    (hfailures : s.failures = handled.countP Handled.isFailed) :
    Stands name handles { (loop name handles s).1 with pumps := (loop name handles s).2.toList } handled := by
  unfold loop
  split
  · rename_i hmailbox
    rw [hmailbox, List.append_nil] at harrivals
    exact .idle rfl rfl hmailbox harrivals hhistory hfailures
  · rename_i message mailbox hmailbox
    rw [hmailbox] at harrivals
    split
    · rename_i hhandles
      refine .busy message _ [.begun message.id] 0 rfl hpumping harrivals ?_ hfailures (.first hhandles)
      show s.history ++ _ = _
      rw [hhistory]
    · rename_i hhandles
      refine .busy message _ [] 0 rfl hpumping harrivals ?_ hfailures (.done .unknown (Bool.eq_false_iff.mpr hhandles))
      rw [List.append_nil]
      exact hhistory

/-! ## Steps -/

variable {s s' : State}

theorem start_kept : Kept name handles start where
  numbered := rfl
  stands := ⟨[], by simp, .idle rfl rfl rfl rfl rfl rfl⟩

theorem deliver_arrivals (s : State) (method : String) :
    (deliver name handles s method).arrivals = s.arrivals ++ [⟨s.arrivals.length, method⟩] := by
  unfold deliver
  dsimp only
  split
  · rfl
  · exact loop_arrivals _

theorem deliver_kept (h : Kept name handles s) (method : String) : Kept name handles (deliver name handles s method) := by
  obtain ⟨hnumbered, handled, hfits, hstands⟩ := h
  refine ⟨?_, handled, hfits, ?_⟩
  · rw [deliver_arrivals, List.map_append, hnumbered, List.length_append, List.length_singleton, List.range_succ]
    rfl
  · cases hstands with
    | idle hpumps hpumping hmailbox harrivals hhistory hfailures =>
      unfold deliver
      dsimp only
      rw [if_neg (by rw [hpumping]; exact Bool.false_ne_true), loop_pumps]
      simp only [hpumps, List.nil_append]
      refine loop_stands rfl ?_ hhistory hfailures
      simp only [harrivals, hmailbox, List.nil_append]
    | busy m handling events failures hpumps hpumping harrivals hhistory hfailures hhand =>
      unfold deliver
      dsimp only
      rw [if_pos hpumping]
      refine .busy m handling events failures hpumps hpumping ?_ hhistory hfailures hhand
      show s.arrivals ++ _ = _
      rw [harrivals, List.append_assoc, List.cons_append]

theorem in_hand {pump : ℕ} {p : Pump} (h : Stands name handles s handled) (hp : s.pumps[pump]? = some p) :
    pump = 0 ∧ s.pumps = [p] ∧ ∃ events failures, s.pumping = true ∧
      s.arrivals = handled.map Handled.message ++ p.message :: s.mailbox ∧
      s.history = handled.flatMap (Handled.events name) ++ events ∧
      s.failures = handled.countP Handled.isFailed + failures ∧
      InHand name handles p.message p.handling events failures := by
  cases h with
  | idle hpumps =>
    rw [hpumps] at hp
    cases hp
  | busy m handling events failures hpumps hpumping harrivals hhistory hfailures hhand =>
    rw [hpumps] at hp
    cases pump with
    | zero =>
      cases hp
      exact ⟨rfl, hpumps, events, failures, hpumping, harrivals, hhistory, hfailures, hhand⟩
    | succ pump => cases hp

variable {attempt : ℕ} {handling : Handling}

theorem settled_stands {outcome : Outcome} (h : Stands name handles s handled)
    (hpump : s.pumps[0]? = some ⟨m, .running attempt⟩) (hcontained : contained s (.settle 0 outcome) = true) :
    Stands name handles
      { (settled s m attempt outcome).1 with pumps := [⟨m, (settled s m attempt outcome).2⟩] } handled := by
  obtain ⟨-, -, events, failures, hpumping, harrivals, hhistory, hfailures, hhand⟩ := in_hand h hpump
  dsimp only at harrivals hhand
  cases outcome with
  | returned result =>
    cases hhand with
    | first hhandles =>
      refine .busy m _ _ _ rfl hpumping harrivals ?_ hfailures (.done (.first result) hhandles)
      show s.history ++ _ = _
      rw [hhistory, List.append_assoc]
      rfl
    | second reason hhandles hreason =>
      refine .busy m _ _ _ rfl hpumping harrivals ?_ hfailures (.done (.second reason result) ⟨hhandles, hreason⟩)
      show s.history ++ _ = _
      rw [hhistory, List.append_assoc]
      rfl
  | threw reason =>
    cases hhand with
    | first hhandles =>
      have hreason : reason ≠ .unreadable := by
        rintro rfl
        simp [contained, hpump] at hcontained
      have hcaught : settled s m 0 (.threw reason) =
          ({ s with history := s.history ++ [.threw m.id reason] ++ [.begun m.id] }, .running 1) := by
        cases reason with
        | unreadable => exact absurd rfl hreason
        | _ => rfl
      rw [hcaught]
      refine .busy m _ _ _ rfl hpumping harrivals ?_ hfailures (.second reason hhandles hreason)
      show s.history ++ _ ++ _ = _
      rw [hhistory, List.append_assoc, List.append_assoc]
      rfl
    | second earlier hhandles hearlier =>
      cases reason with
      | text last =>
        refine .busy m _ _ _ rfl hpumping harrivals ?_ ?_ (.done (.failed earlier last) ⟨hhandles, hearlier⟩)
        · show s.history ++ _ = _
          rw [hhistory, List.append_assoc]
          rfl
        · show s.failures + 1 = _
          rw [hfailures]
          rfl
      | unprintable => simp [contained, hpump] at hcontained
      | unreadable => simp [contained, hpump] at hcontained

theorem settled_arrivals (s : State) (m : Message) (attempt : ℕ) (outcome : Outcome) :
    (settled s m attempt outcome).1.arrivals = s.arrivals := by
  cases outcome with
  | returned result => rfl
  | threw reason => cases attempt <;> cases reason <;> rfl

theorem settled_pumps (s : State) (m : Message) (attempt : ℕ) (outcome : Outcome) :
    (settled s m attempt outcome).1.pumps = s.pumps := by
  cases outcome with
  | returned result => rfl
  | threw reason => cases attempt <;> cases reason <;> rfl

theorem step_cases (h : Kept name handles s) (hcontained : contained s action = true)
    (hstep : step name handles s action = some s') :
    (∃ method, action = .deliver method ∧ s' = deliver name handles s method) ∨
    (∃ m attempt outcome, action = .settle 0 outcome ∧ s.pumps = [⟨m, .running attempt⟩] ∧
      s' = { (settled s m attempt outcome).1 with pumps := [⟨m, (settled s m attempt outcome).2⟩] }) ∨
    (∃ m result, action = .resume 0 ∧ s.pumps = [⟨m, .answer result⟩] ∧
      s' = { (loop name handles { s with history := s.history ++ [.answered m.id result] }).1 with
        pumps := (loop name handles { s with history := s.history ++ [.answered m.id result] }).2.toList }) := by
  obtain ⟨-, handled, -, hstands⟩ := h
  cases action with
  | deliver method => exact .inl ⟨method, rfl, (Option.some.inj hstep).symm⟩
  | settle pump outcome =>
    simp only [step] at hstep
    split at hstep
    · rename_i m attempt hpump
      obtain ⟨rfl, hpumps, -⟩ := in_hand hstands hpump
      refine .inr (.inl ⟨m, attempt, outcome, rfl, hpumps, ?_⟩)
      rw [← Option.some.inj hstep, settled_pumps, hpumps]
      rfl
    · cases hstep
  | resume pump =>
    simp only [step] at hstep
    split at hstep
    · rename_i m result hpump
      obtain ⟨rfl, hpumps, -⟩ := in_hand hstands hpump
      refine .inr (.inr ⟨m, result, rfl, hpumps, ?_⟩)
      have hkept := loop_pumps name handles
        { s with history := s.history ++ [.answered m.id result] }
      cases hloop : loop name handles { s with history := s.history ++ [.answered m.id result] } with
      | mk t next =>
        rw [hloop] at hstep hkept
        dsimp only at hkept
        cases next with
        | none =>
          rw [← Option.some.inj hstep, hkept, hpumps]
          rfl
        | some next =>
          rw [← Option.some.inj hstep, hkept, hpumps]
          rfl
    · rename_i m hpump
      obtain ⟨-, -, _, _, -, -, -, -, hhand⟩ := in_hand hstands hpump
      cases hhand
    · cases hstep

theorem step_kept (hcontained : contained s action = true) (h : Kept name handles s)
    (hstep : step name handles s action = some s') : Kept name handles s' := by
  rcases step_cases h hcontained hstep with ⟨method, -, rfl⟩ | ⟨m, attempt, outcome, rfl, hpumps, rfl⟩ |
    ⟨m, result, rfl, hpumps, rfl⟩
  · exact deliver_kept h method
  · obtain ⟨hnumbered, handled, hfits, hstands⟩ := h
    refine ⟨?_, handled, hfits, settled_stands hstands (by rw [hpumps]; rfl) hcontained⟩
    rw [settled_arrivals]
    exact hnumbered
  · obtain ⟨hnumbered, handled, hfits, hstands⟩ := h
    have hpump : s.pumps[0]? = some ⟨m, .answer result⟩ := by rw [hpumps]; rfl
    obtain ⟨-, -, events, failures, hpumping, harrivals, hhistory, hfailures, hhand⟩ := in_hand hstands hpump
    dsimp only at harrivals hhand
    cases hhand with
    | done course hfit =>
      refine ⟨?_, handled ++ [⟨m, course⟩], ?_, loop_stands hpumping ?_ ?_ ?_⟩
      · rw [loop_arrivals]
        exact hnumbered
      · intro h hmem
        rcases List.mem_append.mp hmem with hmem | hmem
        · exact hfits h hmem
        · rw [List.mem_singleton.mp hmem]
          exact hfit
      · simp only [harrivals, List.map_append, List.map_singleton, List.append_assoc, List.singleton_append]
      · simp only [hhistory, List.flatMap_append, List.flatMap_singleton, List.append_assoc]
        rfl
      · simp only [hfailures, List.countP_append, List.countP_singleton]

/-! ## Order and answers -/

def Event.answeredId : Event → Option ℕ
  | .answered id _ => some id
  | _ => none

def Event.begunId : Event → Option ℕ
  | .begun id => some id
  | _ => none

theorem runs_answered (h : Handled) : h.runs.filterMap Event.answeredId = [] := by
  obtain ⟨m, course⟩ := h
  cases course <;> rfl

theorem runs_begun (h : Handled) : ∀ id ∈ h.runs.filterMap Event.begunId, id = h.message.id := by
  obtain ⟨m, course⟩ := h
  cases course <;> simp [Handled.runs, Event.begunId]

theorem events_answered (h : Handled) : (h.events name).filterMap Event.answeredId = [h.message.id] := by
  rw [Handled.events, List.filterMap_append, runs_answered]
  rfl

theorem events_begun (h : Handled) : (h.events name).filterMap Event.begunId = h.runs.filterMap Event.begunId := by
  rw [Handled.events, List.filterMap_append]
  exact List.append_nil _

theorem history_answered (handled : List Handled) :
    (handled.flatMap (Handled.events name)).filterMap Event.answeredId = handled.map (·.message.id) := by
  induction handled with
  | nil => rfl
  | cons h handled ih => rw [List.flatMap_cons, List.filterMap_append, events_answered, ih, List.map_cons, List.singleton_append]

theorem history_begun (handled : List Handled) : (handled.flatMap (Handled.events name)).filterMap Event.begunId =
      handled.flatMap fun h => h.runs.filterMap Event.begunId := by
  induction handled with
  | nil => rfl
  | cons h handled ih => rw [List.flatMap_cons, List.filterMap_append, events_begun, ih, List.flatMap_cons]

theorem inHand_answered (h : InHand name handles m handling events failures) :
    events.filterMap Event.answeredId = [] := by
  cases h with
  | first => rfl
  | second => rfl
  | done course => exact runs_answered ⟨m, course⟩

theorem inHand_begun (h : InHand name handles m handling events failures) :
    ∀ id ∈ events.filterMap Event.begunId, id = m.id := by
  cases h with
  | first => simp [Event.begunId]
  | second => simp [Event.begunId]
  | done course => exact runs_begun ⟨m, course⟩

theorem begun_sorted (h : (handled.map (·.message.id)).Pairwise (· < ·)) :
    (handled.flatMap fun h => h.runs.filterMap Event.begunId).Pairwise (· ≤ ·) := by
  induction handled with
  | nil => exact List.Pairwise.nil
  | cons first handled ih =>
    obtain ⟨hfirst, hrest⟩ := List.pairwise_cons.mp h
    rw [List.flatMap_cons, List.pairwise_append]
    refine ⟨List.pairwise_iff_forall_sublist.mpr fun {a b} hsub => ?_, ih hrest, ?_⟩
    · rw [runs_begun first a (hsub.subset (by simp)), runs_begun first b (hsub.subset (by simp))]
    · intro a ha b hb
      obtain ⟨later, hlater, hb⟩ := List.mem_flatMap.mp hb
      rw [runs_begun first a ha, runs_begun later b hb]
      exact Nat.le_of_lt (hfirst _ (List.mem_map_of_mem hlater))

/-! ## Work that is left -/

def Handling.weight : Handling → ℕ
  | .running 0 => 3
  | .running _ => 2
  | .answer _ => 1
  | .rejected => 1

def State.work (s : State) : ℕ := 4 * s.mailbox.length + (s.pumps.map (·.handling.weight)).sum

def Action.isDeliver : Action → Bool
  | .deliver _ => true
  | _ => false

variable (name handles) in
theorem loop_work (s : State) :
    State.work { (loop name handles s).1 with pumps := (loop name handles s).2.toList } ≤ 4 * s.mailbox.length := by
  unfold loop
  split
  · rename_i hmailbox
    simp [State.work, hmailbox]
  · rename_i message mailbox hmailbox
    split
    · simp [State.work, hmailbox, Handling.weight]
      omega
    · simp [State.work, hmailbox, Handling.weight]

theorem settled_work (s : State) (outcome : Outcome)
    (hhand : InHand name handles m (.running attempt) events failures) :
    (settled s m attempt outcome).1.mailbox = s.mailbox ∧
      (settled s m attempt outcome).2.weight < (Handling.running attempt).weight := by
  cases hhand with
  | first =>
    cases outcome with
    | returned result => exact ⟨rfl, by simp [settled, Handling.weight]⟩
    | threw reason => cases reason <;> exact ⟨rfl, by simp [settled, caught, Handling.weight]⟩
  | second =>
    cases outcome with
    | returned result => exact ⟨rfl, by simp [settled, Handling.weight]⟩
    | threw reason => cases reason <;> exact ⟨rfl, by simp [settled, caught, Handling.weight]⟩

theorem step_work (h : Kept name handles s) (hcontained : contained s action = true)
    (hdeliver : action.isDeliver = false) (hstep : step name handles s action = some s') : s'.work < s.work := by
  rcases step_cases h hcontained hstep with ⟨method, rfl, -⟩ | ⟨m, attempt, outcome, rfl, hpumps, rfl⟩ |
    ⟨m, result, rfl, hpumps, rfl⟩
  · cases hdeliver
  · obtain ⟨-, handled, -, hstands⟩ := h
    obtain ⟨-, -, events, failures, -, -, -, -, hhand⟩ := in_hand hstands (show s.pumps[0]? = some _ by rw [hpumps]; rfl)
    dsimp only at hhand
    obtain ⟨hmailbox, hweight⟩ := settled_work s outcome hhand
    simp only [State.work, hpumps, hmailbox, List.map_singleton, List.sum_singleton]
    omega
  · have hloop := loop_work name handles { s with history := s.history ++ [.answered m.id result] }
    have hwork : s.work = 4 * s.mailbox.length + 1 := by
      simp [State.work, hpumps, Handling.weight]
    rw [hwork]
    exact Nat.lt_succ_of_le hloop

theorem run_work {more : List Action} (h : Kept name handles s) (hdeliver : ∀ action ∈ more, action.isDeliver = false)
    (hcontained : along (step name handles) contained s more = true)
    (hrun : run (step name handles) s more = some s') : more.length + s'.work ≤ s.work := by
  induction more generalizing s with
  | nil =>
    cases hrun
    simp
  | cons action more ih =>
    obtain ⟨next, hnext, hrest⟩ := run_cons hrun
    obtain ⟨hallowed, hlater⟩ := along_cons hcontained
    have hless := step_work h hallowed (hdeliver action List.mem_cons_self) hnext
    have hmore := ih (step_kept hallowed h hnext) (fun a ha => hdeliver a (List.mem_cons_of_mem action ha))
      (hlater next hnext) hrest
    rw [List.length_cons]
    omega

theorem busy_goes_on (h : Kept name handles s) (hpumps : s.pumps ≠ []) :
    ∃ action, action.isDeliver = false ∧ contained s action = true ∧ (step name handles s action).isSome = true := by
  obtain ⟨-, handled, -, hstands⟩ := h
  cases hstands with
  | idle hidle => exact absurd hidle hpumps
  | busy m handling events failures hbusy _ _ _ _ hhand =>
    cases hhand with
    | first => exact ⟨.settle 0 (.returned (errorResult "")), rfl, rfl, by simp [step, hbusy]⟩
    | second => exact ⟨.settle 0 (.returned (errorResult "")), rfl, rfl, by simp [step, hbusy]⟩
    | done course =>
      refine ⟨.resume 0, rfl, rfl, ?_⟩
      simp only [step, hbusy, List.getElem?_cons_zero]
      split <;> rfl

/-! ## The discipline -/

/-- At most one handler runs. The messages are numbered in the order of arrival, their handlers begin in this order, and they
are answered in this order, each once; an idle actor has answered all of them. The history is the courses of the answered
messages one after another, then what the one in hand has so far, and the failures are the messages that failed twice. Without
further deliveries the actor comes to rest, and it can only rest when it is idle. -/
structure Disciplined (name : String) (handles : String → Bool) (s : State) : Prop where
  alone : s.pumps.length ≤ 1
  numbered : s.arrivals.map Message.id = List.range s.arrivals.length
  courses : ∃ handled : List Handled, (∀ h ∈ handled, h.Fits handles) ∧ Stands name handles s handled
  begun : (s.history.filterMap Event.begunId).Pairwise (· ≤ ·)
  answered : ∃ count, s.history.filterMap Event.answeredId = List.range count ∧ count ≤ s.arrivals.length ∧
    (s.pumps = [] → count = s.arrivals.length)
  rests : ∃ bound, ∀ more t, (∀ action ∈ more, action.isDeliver = false) →
    along (step name handles) contained s more = true → run (step name handles) s more = some t →
    more.length ≤ bound ∧ (t.pumps ≠ [] → ∃ action, action.isDeliver = false ∧ contained t action = true ∧
      (step name handles t action).isSome = true)

theorem range_of_append {xs ys : List ℕ} {n : ℕ} (h : xs ++ ys = List.range n) : xs = List.range xs.length := by
  have hlength := congrArg List.length h
  rw [List.length_append, List.length_range] at hlength
  have htake := congrArg (List.take xs.length) h
  rwa [List.take_left, List.take_range, Nat.min_eq_left (by omega)] at htake

theorem Kept.disciplined (h : Kept name handles s) : Disciplined name handles s := by
  have hkept := h
  obtain ⟨hnumbered, handled, hfits, hstands⟩ := h
  have hrests : ∃ bound, ∀ more t, (∀ action ∈ more, action.isDeliver = false) →
      along (step name handles) contained s more = true → run (step name handles) s more = some t →
      more.length ≤ bound ∧ (t.pumps ≠ [] → ∃ action, action.isDeliver = false ∧ contained t action = true ∧
        (step name handles t action).isSome = true) := by
    refine ⟨s.work, fun more t hdeliver hcontained hrun => ⟨?_, busy_goes_on ?_⟩⟩
    · have hwork := run_work hkept hdeliver hcontained hrun
      omega
    · exact along_invariant (fun _ _ _ => step_kept) hcontained hkept hrun
  cases hstands with
  | idle hpumps hpumping hmailbox harrivals hhistory hfailures =>
    have hids : handled.map (·.message.id) = List.range s.arrivals.length := by
      rw [← hnumbered, harrivals, List.map_map]
      rfl
    refine ⟨by simp [hpumps], hnumbered, ⟨handled, hfits, .idle hpumps hpumping hmailbox harrivals hhistory hfailures⟩,
      ?_, ⟨s.arrivals.length, ?_, Nat.le_refl _, fun _ => rfl⟩, hrests⟩
    · rw [hhistory, history_begun]
      exact begun_sorted (by rw [hids]; exact List.pairwise_lt_range)
    · rw [hhistory, history_answered, hids]
  | busy m handling events failures hpumps hpumping harrivals hhistory hfailures hhand =>
    have hall : handled.map (·.message.id) ++ m.id :: s.mailbox.map Message.id = List.range s.arrivals.length := by
      rw [← hnumbered, harrivals, List.map_append, List.map_map]
      rfl
    have hsorted : (handled.map (·.message.id) ++ m.id :: s.mailbox.map Message.id).Pairwise (· < ·) := by
      rw [hall]
      exact List.pairwise_lt_range
    refine ⟨by simp [hpumps], hnumbered,
      ⟨handled, hfits, .busy m handling events failures hpumps hpumping harrivals hhistory hfailures hhand⟩,
      ?_, ⟨handled.length, ?_, ?_, fun hidle => ?_⟩, hrests⟩
    · rw [hhistory, List.filterMap_append, history_begun, List.pairwise_append]
      refine ⟨begun_sorted (List.pairwise_append.mp hsorted).1, ?_, fun a ha b hb => ?_⟩
      · refine List.pairwise_iff_forall_sublist.mpr fun {a b} hsub => ?_
        rw [inHand_begun hhand a (hsub.subset (by simp)), inHand_begun hhand b (hsub.subset (by simp))]
      · obtain ⟨earlier, hearlier, ha⟩ := List.mem_flatMap.mp ha
        rw [runs_begun earlier a ha, inHand_begun hhand b hb]
        exact Nat.le_of_lt ((List.pairwise_append.mp hsorted).2.2 _ (List.mem_map_of_mem hearlier) _ List.mem_cons_self)
    · rw [hhistory, List.filterMap_append, history_answered, inHand_answered hhand, List.append_nil, range_of_append hall,
        List.length_map]
    · rw [harrivals, List.length_append, List.length_map]
      omega
    · rw [hpumps] at hidle
      cases hidle

end Discipline

/-- Every run in which what handlers throw can be put into words keeps the discipline of the mailbox. -/
theorem mailbox_discipline (name : String) (handles : String → Bool) (actions : List Action) (s : State)
    (hrun : run (step name handles) start actions = some s)
    (hcontained : along (step name handles) contained start actions = true) : Disciplined name handles s :=
  (along_invariant (fun _ _ _ => step_kept) hcontained start_kept hrun).disciplined

/-- A handler fails twice and delivers to its own actor meanwhile; the pump goes on with the message delivered. -/
def retriedRun : List Action :=
  [.deliver "save", .deliver "load", .settle 0 (.threw (.text "busy")), .deliver "save", .settle 0 (.threw (.text "busy")),
    .resume 0, .settle 0 (.returned (errorResult "empty")), .resume 0]

theorem mailbox_discipline_retried : ∃ s, run (step "store" fun _ => true) start retriedRun = some s ∧
    s.failures = 1 ∧ Disciplined "store" (fun _ => true) s := by
  have hrun : (run (step "store" fun _ => true) start retriedRun).any fun s => s.failures == 1 := by decide +kernel
  obtain ⟨s, hs, hfailures⟩ := (Option.any_eq_true _ _).mp hrun
  exact ⟨s, hs, beq_iff_eq.mp hfailures, mailbox_discipline "store" _ retriedRun s hs (by decide +kernel)⟩

/-- A handler throws an object without a prototype: its message is never answered, and the actor rests with the next message
in its mailbox. -/
def strandedRun : List Action :=
  [.deliver "save", .deliver "load", .settle 0 (.threw .unreadable), .resume 0]

theorem unreadable_throw_strands : ¬ ∀ actions s, run (step "store" fun _ => true) start actions = some s →
    Disciplined "store" (fun _ => true) s := by
  intro h
  have hrun : (run (step "store" fun _ => true) start strandedRun).any fun s =>
      s.pumps.isEmpty && s.arrivals.length == 2 && (s.history.filterMap Event.answeredId).isEmpty := by decide +kernel
  obtain ⟨s, hs, hstranded⟩ := (Option.any_eq_true _ _).mp hrun
  simp only [Bool.and_eq_true, List.isEmpty_iff, beq_iff_eq] at hstranded
  obtain ⟨⟨hpumps, harrivals⟩, hanswered⟩ := hstranded
  obtain ⟨count, hcount, -, hall⟩ := (h strandedRun s hs).answered
  rw [hall hpumps, harrivals, hanswered] at hcount
  cases hcount

end AvenOS.Actors.Mailbox
