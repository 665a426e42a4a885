import AvenOS.Foundations.LabelledRun
import AvenOS.Foundations.Transactions
import Mathlib.Data.Nat.Notation

/-! # Runs of transactions

The sessions in flight as a list, so that a run can be computed, and what a session answers in the step after
which its answer is settled. -/
namespace AvenOS.Transactions

/-! ## Systems -/

section Systems
variable {Db Lock Change Error Call α : Type}

def Body.outcome? : Body Db Lock Change Error α → Option (Except Error α)
  | .done answer => some (.ok answer)
  | .fail error => some (.error error)
  | .statement .. => none

theorem Body.outcome?_ofExcept (outcome : Except Error α) :
    (Body.ofExcept outcome : Body Db Lock Change Error α).outcome? = some outcome := by
  cases outcome <;> rfl

structure System (Db Lock Change Error Call α : Type) where
  db : Db
  sessions : List (ℕ × Session Db Lock Change Error Call α)
  journal : List (Call × Except Error α)

inductive Action (Call : Type)
  | begin (client : ℕ) (call : Call)
  | advance (client : ℕ)
  | commit (client : ℕ)
  | abort (client : ℕ)
deriving Repr

structure Settlement (Lock Change Error Call α : Type) where
  call : Call
  held : List Lock
  changes : List Change
  outcome : Except Error α

namespace System
variable (s : System Db Lock Change Error Call α)

def session? (client : ℕ) : Option (Session Db Lock Change Error Call α) :=
  (s.sessions.find? fun entry => entry.1 = client).map Prod.snd

def without (client : ℕ) : List (ℕ × Session Db Lock Change Error Call α) :=
  s.sessions.filter fun entry => entry.1 ≠ client

def world : World Db Lock Change Error ℕ Call α := ⟨s.db, s.session?, s.journal⟩

def settle (client : ℕ) (session : Session Db Lock Change Error Call α) :
    System Db Lock Change Error Call α :=
  match session.rest with
  | .fail error =>
    { s with
      sessions := s.without client
      journal := s.journal ++ [(session.call, .error error)] }
  | _ => { s with sessions := (client, session) :: s.without client }

variable (E : Engine Db Lock Change) [DecidableRel E.conflicts] (body : Call → Body Db Lock Change Error α)

/-- Nobody else holds a lock that conflicts. -/
def free (client : ℕ) (locks : List Lock) : Bool :=
  (s.without client).all fun entry => locks.all fun l => entry.2.held.all fun l' => ¬E.conflicts l l'

def step (s : System Db Lock Change Error Call α) : Action Call → Option (System Db Lock Change Error Call α)
  | .begin client call =>
    if s.session? client |>.isNone then some (s.settle client ⟨call, body call, [], []⟩) else none
  | .advance client =>
    match s.session? client with
    | some ⟨call, .statement takes changes rest, held, made⟩ =>
      if s.free E client (takes (E.after made s.db)) then
        some (s.settle client ⟨call, rest (E.after made s.db), held ++ takes (E.after made s.db),
          made ++ changes (E.after made s.db)⟩)
      else none
    | _ => none
  | .commit client =>
    match s.session? client with
    | some ⟨call, .done answer, _, made⟩ =>
      some
        { db := E.after made s.db
          sessions := s.without client
          journal := s.journal ++ [(call, .ok answer)] }
    | _ => none
  | .abort client => some { s with sessions := s.without client }

/-- The answer that a step settles. -/
def settled : Action Call → Option (Settlement Lock Change Error Call α)
  | .begin _ call => (body call).outcome?.map fun outcome => ⟨call, [], [], outcome⟩
  | .advance client =>
    match s.session? client with
    | some ⟨call, .statement _ changes rest, held, made⟩ =>
      (rest (E.after made s.db)).outcome?.map fun outcome =>
        ⟨call, held, made ++ changes (E.after made s.db), outcome⟩
    | _ => none
  | _ => none

end System

/-! ## The steps of a system are those of its world -/

section Steps
variable {s s' : System Db Lock Change Error Call α}

theorem System.session?_without (client : ℕ) :
    (fun other => ((s.without client).find? fun entry => entry.1 = other).map Prod.snd) =
      Function.update s.session? client none := by
  funext other
  rw [System.without, List.find?_filter]
  by_cases hsame : other = client
  · rw [hsame, Function.update_self, Option.map_eq_none_iff, List.find?_eq_none]
    intro entry _
    simp
  · rw [Function.update_of_ne hsame, System.session?]
    refine congrArg (Option.map Prod.snd) (congrArg (List.find? · s.sessions) (funext fun entry => ?_))
    by_cases hentry : entry.1 = other
    · simp [hentry, hsame]
    · simp [hentry]

theorem System.world_without (client : ℕ) (db : Db) (journal : List (Call × Except Error α)) :
    System.world ⟨db, s.without client, journal⟩ =
      { db := db, sessions := Function.update s.session? client none, journal := journal } := by
  rw [System.world, ← System.session?_without]
  rfl

theorem System.world_settle (client : ℕ) (session : Session Db Lock Change Error Call α) :
    (s.settle client session).world = s.world.settle client session := by
  have hput : System.world { s with sessions := (client, session) :: s.without client } =
      { s.world with sessions := Function.update s.session? client (some session) } := by
    refine congrArg (fun sessions => World.mk s.db sessions s.journal) (funext fun other => ?_)
    rw [System.session?, List.find?_cons]
    by_cases hsame : client = other
    · rw [decide_eq_true hsame, ← hsame, Function.update_self]
      rfl
    · rw [decide_eq_false hsame]
      have hrest := congrFun (System.session?_without (s := s) client) other
      rw [Function.update_of_ne (Ne.symm hsame)] at hrest ⊢
      exact hrest
  obtain ⟨call, rest, held, made⟩ := session
  cases rest with
  | fail error => exact System.world_without client _ _
  | done answer => exact hput
  | statement takes changes rest => exact hput

variable {E : Engine Db Lock Change} [DecidableRel E.conflicts] {body : Call → Body Db Lock Change Error α}

theorem System.free_apart {client other : ℕ} {locks : List Lock} (h : s.free E client locks = true)
    (hother : other ≠ client) {session : Session Db Lock Change Error Call α}
    (hsession : s.session? other = some session) : E.Apart locks session.held := by
  obtain ⟨entry, hentry, rfl⟩ := Option.map_eq_some_iff.mp hsession
  have hfound := List.find?_some hentry
  have hclient : entry.1 = other := of_decide_eq_true hfound
  have hmem : entry ∈ s.without client :=
    List.mem_filter.mpr ⟨List.mem_of_find?_eq_some hentry, decide_eq_true (hclient ▸ hother)⟩
  intro l hl l' hl'
  exact of_decide_eq_true (List.all_eq_true.mp (List.all_eq_true.mp (List.all_eq_true.mp h entry hmem) l hl) l' hl')

theorem System.step_world {action : Action Call} (h : s.step E body action = some s') :
    Step E body (fun _ _ => True) s.world s'.world := by
  cases action with
  | begin client call =>
    obtain ⟨hidle, rfl⟩ := LabelledRun.guarded_some h
    rw [System.world_settle]
    exact .begin client call (Option.isNone_iff_eq_none.mp hidle) trivial
  | advance client =>
    rw [System.step] at h
    split at h
    · rename_i call takes changes rest held made hsession
      obtain ⟨hfree, rfl⟩ := LabelledRun.guarded_some h
      rw [System.world_settle]
      exact .advance client hsession fun other hother session hother' => System.free_apart hfree hother hother'
    · cases h
  | commit client =>
    rw [System.step] at h
    split at h
    · rename_i call answer held made hsession
      cases h
      rw [System.world_without]
      exact .commit (w := s.world) client hsession
    · cases h
  | abort client =>
    cases h
    rw [System.world_without]
    exact .abort (w := s.world) client

end Steps

/-! ## Answers -/

/-- What a body answers, wherever its answer is settled, under facts that others cannot break. -/
def Answers (E : Engine Db Lock Change) (good : Db → List Lock → List Change → Except Error α → Prop) :
    Body Db Lock Change Error α → List Lock → List Change → (Db → Prop) → Prop
  | .done _, _, _, _ => True
  | .fail _, _, _, _ => True
  | .statement takes changes rest, held, made, fact =>
    ∀ db, fact db →
      (∀ outcome, (rest (E.after made db)).outcome? = some outcome →
        good db held (made ++ changes (E.after made db)) outcome) ∧
      ∃ next : Db → Prop, next db ∧ E.Stable (held ++ takes (E.after made db)) next ∧
        Answers E good (rest (E.after made db)) (held ++ takes (E.after made db))
          (made ++ changes (E.after made db)) next

/-! ## Rules -/

section Rules
variable {E : Engine Db Lock Change} {post : Db → Except Error α → Db → Prop}
  {good : Db → List Lock → List Change → Except Error α → Prop} {β : Type}
  {held : List Lock} {made : List Change} {fact : Db → Prop}

/-- A body that ends as the relation says and settles good answers. -/
structure Follows (E : Engine Db Lock Change) (post : Db → Except Error α → Db → Prop)
    (good : Db → List Lock → List Change → Except Error α → Prop) (body : Body Db Lock Change Error α)
    (held : List Lock) (made : List Change) (fact : Db → Prop) : Prop where
  proves : Proves E post body held made fact
  answers : Answers E good body held made fact

theorem Follows.done {answer : α} (h : ∀ db, fact db → post db (.ok answer) (E.after made db)) :
    Follows E post good (.done answer) held made fact := ⟨h, trivial⟩

theorem Follows.ofExcept {outcome : Except Error α}
    (hok : ∀ answer, outcome = .ok answer → ∀ db, fact db → post db (.ok answer) (E.after made db))
    (herror : ∀ error, outcome = .error error → ∀ db, fact db → post db (.error error) db) :
    Follows E post good (Body.ofExcept outcome) held made fact := by
  cases outcome with
  | ok answer => exact Follows.done (hok answer rfl)
  | error error => exact ⟨herror error rfl, trivial⟩

variable {answer : Db → Except Error β} {f : β → Body Db Lock Change Error α}

theorem Follows.query {takes : Db → List Lock} {changes : Db → List Change} (h : ∀ db, fact db →
      (∃ error, (Body.ofExcept (answer (E.after made db)) >>= f) = .fail error ∧ post db (.error error) db ∧
        good db held (made ++ changes (E.after made db)) (.error error)) ∨
      ∃ b, answer (E.after made db) = .ok b ∧
        (∀ change ∈ changes (E.after made db), E.Guarded (held ++ takes (E.after made db)) change) ∧
        (∀ outcome, (f b).outcome? = some outcome → good db held (made ++ changes (E.after made db)) outcome) ∧
        ∃ next : Db → Prop, next db ∧ E.Stable (held ++ takes (E.after made db)) next ∧
          Follows E post good (f b) (held ++ takes (E.after made db)) (made ++ changes (E.after made db)) next) :
    Follows E post good (Body.query takes changes answer >>= f) held made fact := by
  constructor
  · intro db hdb
    rcases h db hdb with ⟨error, hfail, hpost, -⟩ | ⟨b, hb, hguarded, -, next, hnext, hstable, hrest⟩
    · refine ⟨fun db' => db' = db, rfl, .inl ?_, ?_⟩
      · exact Body.failed_iff.mpr ⟨error, hfail⟩
      · show Proves E post (Body.ofExcept (answer (E.after made db)) >>= f) _ _ _
        rw [hfail]
        rintro db' rfl
        exact hpost
    · refine ⟨next, hnext, .inr ⟨hstable, hguarded⟩, ?_⟩
      show Proves E post (Body.ofExcept (answer (E.after made db)) >>= f) _ _ _
      rw [hb]
      exact hrest.proves
  · intro db hdb
    show (∀ outcome, (Body.ofExcept (answer (E.after made db)) >>= f).outcome? = some outcome → _) ∧
      ∃ next : Db → Prop, _ ∧ _ ∧ Answers E good (Body.ofExcept (answer (E.after made db)) >>= f) _ _ _
    rcases h db hdb with ⟨error, hfail, -, hgood⟩ | ⟨b, hb, -, hgood, next, hnext, hstable, hrest⟩
    · rw [hfail]
      refine ⟨fun outcome houtcome => ?_, fun _ => True, trivial, fun _ _ _ _ => trivial, trivial⟩
      cases houtcome
      exact hgood
    · rw [hb]
      exact ⟨hgood, next, hnext, hstable, hrest.answers⟩

theorem Follows.reading (h : ∀ db, fact db →
      (∃ error, (Body.ofExcept (answer (E.after made db)) >>= f) = .fail error ∧ post db (.error error) db ∧
        good db held made (.error error)) ∨ ∃ b, answer (E.after made db) = .ok b ∧
        (∀ outcome, (f b).outcome? = some outcome → good db held made outcome) ∧
        ∃ next : Db → Prop, next db ∧ E.Stable held next ∧ Follows E post good (f b) held made next) :
    Follows E post good (Body.query (fun _ => []) (fun _ => []) answer >>= f) held made fact := by
  refine Follows.query fun db hdb => ?_
  rw [List.append_nil, List.append_nil]
  rcases h db hdb with hfail | ⟨b, hb, hgood, hrest⟩
  · exact .inl hfail
  · exact .inr ⟨b, hb, fun change hchange => absurd hchange List.not_mem_nil, hgood, hrest⟩

end Rules

section Sound
variable (E : Engine Db Lock Change) [DecidableRel E.conflicts] (body : Call → Body Db Lock Change Error α)
  (post : Call → Db → Except Error α → Db → Prop)
  (good : Call → Db → List Lock → List Change → Except Error α → Prop)

structure Specified : Prop where
  proves : ∀ call, Proves E (post call) (body call) [] [] fun _ => True
  answers : ∀ call, Answers E (good call) (body call) [] [] fun _ => True
  settled : ∀ call outcome, (body call).outcome? = some outcome → ∀ db, good call db [] [] outcome

def Session.Answered (db : Db) (session : Session Db Lock Change Error Call α) : Prop :=
  ∃ fact : Db → Prop, fact db ∧ E.Stable session.held fact ∧
    Answers E (good session.call) session.rest session.held session.changes fact

structure System.Sound (s : System Db Lock Change Error Call α) : Prop where
  world : s.world.Sound E post
  answered : ∀ client session, s.session? client = some session → session.Answered E good s.db

variable {E body post good} {s s' : System Db Lock Change Error Call α}

omit [DecidableRel E.conflicts] in
theorem System.Sound.idle (db : Db) : System.Sound E post good (⟨db, [], []⟩ : System Db Lock Change Error Call α) :=
  ⟨⟨fun _ _ hsession => (by cases hsession), fun _ _ _ _ _ hsession => (by cases hsession)⟩,
    fun _ _ hsession => (by cases hsession)⟩

variable {client other : ℕ} {session : Session Db Lock Change Error Call α}

theorem System.session?_settle {next : Session Db Lock Change Error Call α}
    (h : (s.settle client next).session? other = some session) :
    other = client ∧ session = next ∨ other ≠ client ∧ s.session? other = some session := by
  have hworld := congrFun (congrArg World.sessions (System.world_settle (s := s) client next)) other
  have hsession := hworld.symm.trans h
  obtain ⟨call, rest, held, made⟩ := next
  cases rest with
  | fail error =>
    rcases update_some hsession with ⟨-, hnone⟩ | hold
    · cases hnone
    · exact .inr hold
  | done answer =>
    rcases update_some hsession with ⟨hsame, hput⟩ | hold
    · exact .inl ⟨hsame, (Option.some.inj hput).symm⟩
    · exact .inr hold
  | statement takes changes rest =>
    rcases update_some hsession with ⟨hsame, hput⟩ | hold
    · exact .inl ⟨hsame, (Option.some.inj hput).symm⟩
    · exact .inr hold

theorem System.session?_dropped {db : Db} {journal : List (Call × Except Error α)}
    (h : System.session? ⟨db, s.without client, journal⟩ other = some session) :
    other ≠ client ∧ s.session? other = some session := by
  have hworld := congrFun (System.session?_without (s := s) client) other
  rcases update_some (hworld.symm.trans h) with ⟨-, hnone⟩ | hold
  · cases hnone
  · exact hold

theorem System.db_settle (client : ℕ) (session : Session Db Lock Change Error Call α) :
    (s.settle client session).db = s.db := by
  obtain ⟨call, rest, held, made⟩ := session
  cases rest <;> rfl

theorem System.Sound.step (hspec : Specified E body post good) (h : s.Sound E post good) {action : Action Call}
    (hstep : s.step E body action = some s') : s'.Sound E post good ∧
      Relation.ReflGen (SerialStep E post) (s.db, s.journal) (s'.db, s'.journal) ∧
      ∀ settlement, s.settled E body action = some settlement →
        good settlement.call s.db settlement.held settlement.changes settlement.outcome := by
  obtain ⟨hworld, hserial⟩ :=
    h.world.step (fun call => ⟨fun _ _ _ _ => trivial, hspec.proves call⟩) (System.step_world hstep)
  refine ⟨⟨hworld, ?_⟩, hserial, ?_⟩
  · cases action with
    | begin client call =>
      obtain ⟨-, rfl⟩ := LabelledRun.guarded_some hstep
      intro other session hsession
      rw [System.db_settle]
      rcases System.session?_settle hsession with ⟨-, rfl⟩ | ⟨-, hold⟩
      · exact ⟨fun _ => True, trivial, fun _ _ _ _ => trivial, hspec.answers call⟩
      · exact h.answered other session hold
    | advance client =>
      rw [System.step] at hstep
      split at hstep
      · rename_i call takes changes rest held made hclient
        obtain ⟨-, rfl⟩ := LabelledRun.guarded_some hstep
        intro other session hsession
        rw [System.db_settle]
        rcases System.session?_settle hsession with ⟨-, rfl⟩ | ⟨-, hold⟩
        · obtain ⟨fact, hfact, -, hanswers⟩ := h.answered client _ hclient
          obtain ⟨-, next, hnext, hstable, hrest⟩ := hanswers s.db hfact
          exact ⟨next, hnext, hstable, hrest⟩
        · exact h.answered other session hold
      · cases hstep
    | commit client =>
      rw [System.step] at hstep
      split at hstep
      · rename_i call answer held made hclient
        cases hstep
        intro other session hsession
        obtain ⟨hne, hold⟩ := System.session?_dropped hsession
        obtain ⟨fact, hfact, hstable, hanswers⟩ := h.answered other session hold
        have hguarded := (h.world.session client _ hclient).guarded
        have hapart := h.world.apart client other _ _ hne.symm hclient hold
        exact ⟨fact, hstable.after (fun change hchange => (hguarded change hchange).foreign hapart) hfact,
          hstable, hanswers⟩
      · cases hstep
    | abort client =>
      cases hstep
      intro other session hsession
      exact h.answered other session (System.session?_dropped hsession).2
  · intro settlement hsettled
    cases action with
    | begin client call =>
      obtain ⟨outcome, houtcome, rfl⟩ := Option.map_eq_some_iff.mp hsettled
      exact hspec.settled call outcome houtcome s.db
    | advance client =>
      rw [System.settled] at hsettled
      split at hsettled
      · rename_i call takes changes rest held made hclient
        obtain ⟨outcome, houtcome, rfl⟩ := Option.map_eq_some_iff.mp hsettled
        obtain ⟨fact, hfact, -, hanswers⟩ := h.answered client _ hclient
        exact (hanswers s.db hfact).1 outcome houtcome
      · cases hsettled
    | commit client => cases hsettled
    | abort client => cases hsettled

theorem System.Sound.run (hspec : Specified E body post good) (h : s.Sound E post good)
    {actions : List (Action Call)} (hrun : LabelledRun.run (System.step E body) s actions = some s') :
    s'.Sound E post good ∧ Relation.ReflTransGen (SerialStep E post) (s.db, s.journal) (s'.db, s'.journal) := by
  induction actions generalizing s with
  | nil =>
    cases hrun
    exact ⟨h, .refl⟩
  | cons action actions ih =>
    obtain ⟨next, hnext, hrest⟩ := LabelledRun.run_cons hrun
    obtain ⟨hsound, hserial, -⟩ := h.step hspec hnext
    obtain ⟨hlast, hlater⟩ := ih hsound hrest
    exact ⟨hlast, hserial.to_reflTransGen.trans hlater⟩

end Sound

end Systems

end AvenOS.Transactions
