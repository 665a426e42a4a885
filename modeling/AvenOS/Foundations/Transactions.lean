import Mathlib.Data.List.Basic
import Mathlib.Logic.Function.Basic
import Mathlib.Logic.Relation

/-! # Transactions at read committed

The body of a transaction is a sequence of statements. A statement waits until nobody else holds a lock
that conflicts with the ones it takes, reads what is committed under the changes its own transaction has
made, and adds changes that nobody else sees before the commit. Locks are held to the end.

Sessions of any number of clients are interleaved statement by statement. What each body does at its commit
is given by a relation that is proved statement by statement with facts that the others cannot break;
where everything read is protected by the locks held, that relation is the run of the body alone. -/
namespace AvenOS.Transactions

/-! ## Bodies -/

inductive Body (Db Lock Change Error α : Type)
  | done (answer : α)
  | fail (error : Error)
  | statement (takes : Db → List Lock) (changes : Db → List Change)
      (rest : Db → Body Db Lock Change Error α)

namespace Body
variable {Db Lock Change Error α β γ : Type}

def bind : Body Db Lock Change Error α → (α → Body Db Lock Change Error β) → Body Db Lock Change Error β
  | done answer, f => f answer
  | fail error, _ => fail error
  | statement takes changes rest, f => statement takes changes fun db => (rest db).bind f

instance : Monad (Body Db Lock Change Error) where
  pure := done
  bind := bind

def ofExcept : Except Error α → Body Db Lock Change Error α
  | .ok answer => done answer
  | .error error => fail error

def query (takes : Db → List Lock) (changes : Db → List Change) (answer : Db → Except Error α) :
    Body Db Lock Change Error α :=
  statement takes changes fun db => ofExcept (answer db)

def select (answer : Db → α) : Body Db Lock Change Error α :=
  query (fun _ => []) (fun _ => []) fun db => .ok (answer db)

def require (condition : Prop) [Decidable condition] (error : Error) : Body Db Lock Change Error Unit :=
  if condition then done () else fail error

def failed : Body Db Lock Change Error α → Prop
  | fail _ => True
  | _ => False

theorem statement_bind (takes : Db → List Lock) (changes : Db → List Change)
    (rest : Db → Body Db Lock Change Error α) (f : α → Body Db Lock Change Error β) :
    (statement takes changes rest >>= f) = statement takes changes fun db => rest db >>= f := rfl

theorem bind_assoc (body : Body Db Lock Change Error α) (f : α → Body Db Lock Change Error β)
    (g : β → Body Db Lock Change Error γ) : ((body >>= f) >>= g) = (body >>= fun a => f a >>= g) := by
  induction body with
  | done answer => rfl
  | fail error => rfl
  | statement takes changes rest ih =>
    rw [statement_bind, statement_bind, statement_bind]
    exact congrArg (statement takes changes) (funext ih)

theorem failed_iff {body : Body Db Lock Change Error α} : body.failed ↔ ∃ error, body = fail error := by
  cases body with
  | done answer => exact ⟨fun h => h.elim, fun ⟨_, h⟩ => by cases h⟩
  | fail error => exact ⟨fun _ => ⟨error, rfl⟩, fun _ => trivial⟩
  | statement takes changes rest => exact ⟨fun h => h.elim, fun ⟨_, h⟩ => by cases h⟩

end Body

/-! ## Engines -/

structure Engine (Db Lock Change : Type) where
  apply : Change → Db → Db
  needs : Change → List Lock
  conflicts : Lock → Lock → Prop
  symm : ∀ l l', conflicts l l' → conflicts l' l

namespace Engine
variable {Db Lock Change Error α β : Type} (E : Engine Db Lock Change)

def after (changes : List Change) (db : Db) : Db := changes.foldl (fun db change => E.apply change db) db

theorem after_append (one other : List Change) (db : Db) :
    E.after (one ++ other) db = E.after other (E.after one db) := List.foldl_append

theorem after_cons (change : Change) (changes : List Change) (db : Db) :
    E.after (change :: changes) db = E.after changes (E.apply change db) := rfl

/-- Locks of two sessions that exclude nothing. -/
def Apart (held other : List Lock) : Prop := ∀ l ∈ held, ∀ l' ∈ other, ¬E.conflicts l l'

def Foreign (held : List Lock) (change : Change) : Prop := E.Apart (E.needs change) held

def Guarded (held : List Lock) (change : Change) : Prop := E.needs change ⊆ held

/-- What nobody else can break while these locks are held. -/
def Stable (held : List Lock) (fact : Db → Prop) : Prop :=
  ∀ db change, E.Foreign held change → fact db → fact (E.apply change db)

variable {E}

variable {held more : List Lock} {change : Change} {fact : Db → Prop}

theorem Apart.symm {other : List Lock} (h : E.Apart held other) : E.Apart other held :=
  fun l hl l' hl' hconflict => h l' hl' l hl (E.symm l l' hconflict)

theorem Foreign.mono (hsub : held ⊆ more)
    (h : E.Foreign more change) : E.Foreign held change := fun l hl l' hl' => h l hl l' (hsub hl')

theorem Guarded.foreign {other : List Lock} (h : E.Guarded other change)
    (hapart : E.Apart other held) : E.Foreign held change := fun l hl => hapart l (h hl)

theorem Guarded.mono (hsub : held ⊆ more) (h : E.Guarded held change) : E.Guarded more change := fun _ hl => hsub (h hl)

theorem Stable.mono (hsub : held ⊆ more) (h : E.Stable held fact) : E.Stable more fact :=
  fun db change hforeign => h db change (hforeign.mono hsub)

theorem Stable.trivial (held : List Lock) : E.Stable held fun _ => True := fun _ _ _ h => h

theorem Stable.and {other : Db → Prop} (h : E.Stable held fact)
    (hother : E.Stable held other) : E.Stable held fun db => fact db ∧ other db :=
  fun db change hforeign hdb => ⟨h db change hforeign hdb.1, hother db change hforeign hdb.2⟩

theorem Stable.after (h : E.Stable held fact)
    {changes : List Change} (hforeign : ∀ change ∈ changes, E.Foreign held change) {db : Db}
    (hdb : fact db) : fact (E.after changes db) := by
  induction changes generalizing db with
  | nil => exact hdb
  | cons change changes ih =>
    exact ih (fun other hother => hforeign other (List.mem_cons_of_mem _ hother))
      (h db change (hforeign change List.mem_cons_self) hdb)

end Engine

/-! ## One body alone -/

section Alone
variable {Db Lock Change Error α β : Type} (E : Engine Db Lock Change)

/-- A body that nobody interferes with. -/
def Body.run : Body Db Lock Change Error α → Db → Except Error (α × Db)
  | .done answer, db => .ok (answer, db)
  | .fail error, _ => .error error
  | .statement _ changes rest, db => (rest db).run (E.after (changes db) db)

variable {E}

theorem Body.run_bind (body : Body Db Lock Change Error α) (f : α → Body Db Lock Change Error β) (db : Db) :
    (body >>= f).run E db = (body.run E db).bind fun answered => (f answered.1).run E answered.2 := by
  induction body generalizing db with
  | done answer => rfl
  | fail error => rfl
  | statement takes changes rest ih => exact ih db (E.after (changes db) db)

variable {db last : Db} {rounds : List β} {f : β → Body Db Lock Change Error PUnit} {u : PUnit}

variable {body : Body Db Lock Change Error α} {a : α}

theorem Body.run_bind_ok {f : α → Body Db Lock Change Error β} {answer : β}
    (h : (body >>= f).run E db = .ok (answer, last)) :
    ∃ first next, body.run E db = .ok (first, next) ∧ (f first).run E next = .ok (answer, last) := by
  rw [Body.run_bind] at h
  cases hbody : body.run E db with
  | error error =>
    rw [hbody] at h
    cases h
  | ok answered =>
    rw [hbody] at h
    exact ⟨answered.1, answered.2, rfl, h⟩

theorem Body.run_bind_of {f : α → Body Db Lock Change Error β} {next : Db} {first : α}
    (h : body.run E db = .ok (first, next)) : (body >>= f).run E db = (f first).run E next := by
  rw [Body.run_bind, h]
  rfl

theorem Body.run_query_ok {takes : Db → List Lock} {changes : Db → List Change} {answer : Db → Except Error α}
    (h : (Body.query takes changes answer).run E db = .ok (a, last)) :
    answer db = .ok a ∧ last = E.after (changes db) db := by
  rw [Body.query, Body.run] at h
  cases hanswer : answer db with
  | error error =>
    rw [hanswer] at h
    cases h
  | ok a' =>
    rw [hanswer] at h
    cases h
    exact ⟨rfl, rfl⟩

theorem Body.run_select_ok {answer : Db → α}
    (h : (Body.select answer : Body Db Lock Change Error α).run E db = .ok (a, last)) : a = answer db ∧ last = db := by
  cases h
  exact ⟨rfl, rfl⟩

theorem Body.run_require_ok {condition : Prop} [Decidable condition] {error : Error}
    {u : Unit} (h : (Body.require condition error : Body Db Lock Change Error Unit).run E db = .ok (u, last)) :
    condition ∧ last = db := by
  rw [Body.require] at h
  split_ifs at h with hcondition
  · cases h
    exact ⟨hcondition, rfl⟩
  · cases h

theorem Body.run_forM_keeps {I : Db → Prop}
    (hround : ∀ b ∈ rounds, ∀ db u next, (f b).run E db = .ok (u, next) → I db → I next) (h : (rounds.forM f).run E db = .ok (u, last)) (hdb : I db) : I last := by
  induction rounds generalizing db with
  | nil =>
    cases h
    exact hdb
  | cons b rounds ih =>
    obtain ⟨first, next, hfirst, hrest⟩ := Body.run_bind_ok h
    exact ih (fun other hother => hround other (List.mem_cons_of_mem _ hother)) hrest
      (hround b List.mem_cons_self db first next hfirst hdb)

theorem Body.run_forM_each
    (hround : ∀ b ∈ rounds, ∀ db u next, (f b).run E db = .ok (u, next) → next = db) (h : (rounds.forM f).run E db = .ok (u, last)) :
    last = db ∧ ∀ b ∈ rounds, ∃ u', (f b).run E db = .ok (u', db) := by
  induction rounds generalizing db with
  | nil =>
    cases h
    exact ⟨rfl, fun b hb => absurd hb List.not_mem_nil⟩
  | cons b rounds ih =>
    obtain ⟨first, next, hfirst, hrest⟩ := Body.run_bind_ok h
    obtain rfl := hround b List.mem_cons_self db first next hfirst
    obtain ⟨rfl, heach⟩ := ih (fun other hother => hround other (List.mem_cons_of_mem _ hother)) hrest
    refine ⟨rfl, fun other hother => ?_⟩
    rcases List.mem_cons.mp hother with rfl | hother
    · exact ⟨first, hfirst⟩
    · exact heach other hother

theorem Body.run_forM_after (changes : β → List Change) (Q : β → Db → Prop)
    (hround : ∀ b ∈ rounds, ∀ db u next, (f b).run E db = .ok (u, next) →
      next = E.after (changes b) db ∧ Q b db) (h : (rounds.forM f).run E db = .ok (u, last)) :
    last = E.after (rounds.flatMap changes) db ∧
      ∀ before b rest, rounds = before ++ b :: rest → Q b (E.after (before.flatMap changes) db) := by
  induction rounds generalizing db with
  | nil =>
    cases h
    exact ⟨rfl, fun before b rest hsplit => by simp at hsplit⟩
  | cons b rounds ih =>
    obtain ⟨first, next, hfirst, hrest⟩ := Body.run_bind_ok h
    obtain ⟨rfl, hQ⟩ := hround b List.mem_cons_self db first next hfirst
    obtain ⟨rfl, hlater⟩ := ih (fun other hother => hround other (List.mem_cons_of_mem _ hother)) hrest
    refine ⟨?_, fun before other rest hsplit => ?_⟩
    · rw [List.flatMap_cons, E.after_append]
    · cases before with
      | nil =>
        cases hsplit
        exact hQ
      | cons first before =>
        rw [List.cons_append, List.cons.injEq] at hsplit
        obtain ⟨rfl, hsplit⟩ := hsplit
        rw [List.flatMap_cons, E.after_append]
        exact hlater before other rest hsplit

end Alone

/-! ## Many sessions -/

section Sessions
variable {Db Lock Change Error Client Call α β : Type} [DecidableEq Client]

/-- A transaction in flight: what is left of its body, its locks and its own changes. -/
structure Session (Db Lock Change Error Call α : Type) where
  call : Call
  rest : Body Db Lock Change Error α
  held : List Lock
  changes : List Change

structure World (Db Lock Change Error Client Call α : Type) where
  db : Db
  sessions : Client → Option (Session Db Lock Change Error Call α)
  /-- The calls that ended, in the order they did. -/
  journal : List (Call × Except Error α)

namespace World

/-- A session goes on, or is rolled back where its body has failed. -/
def settle (w : World Db Lock Change Error Client Call α) (client : Client)
    (session : Session Db Lock Change Error Call α) : World Db Lock Change Error Client Call α :=
  match session.rest with
  | .fail error =>
    { w with
      sessions := Function.update w.sessions client none
      journal := w.journal ++ [(session.call, .error error)] }
  | _ => { w with sessions := Function.update w.sessions client (some session) }

end World

variable (E : Engine Db Lock Change) (body : Call → Body Db Lock Change Error α)
  (starts : Call → Db → Prop)

/-- What may happen next: a call begins, a statement whose locks are free runs, a transaction commits or is
given up, or something that needs no lock changes. -/
inductive Step : World Db Lock Change Error Client Call α → World Db Lock Change Error Client Call α → Prop
  | begin {w : World Db Lock Change Error Client Call α} (client : Client) (call : Call)
      (hidle : w.sessions client = none) (hstarts : starts call w.db) :
      Step w (w.settle client ⟨call, body call, [], []⟩)
  | advance {w : World Db Lock Change Error Client Call α} (client : Client) {call : Call}
      {takes : Db → List Lock} {changes : Db → List Change} {rest : Db → Body Db Lock Change Error α}
      {held : List Lock} {made : List Change}
      (hsession : w.sessions client = some ⟨call, .statement takes changes rest, held, made⟩)
      (hfree : ∀ other, other ≠ client → ∀ session, w.sessions other = some session →
        E.Apart (takes (E.after made w.db)) session.held) :
      Step w (w.settle client ⟨call, rest (E.after made w.db), held ++ takes (E.after made w.db),
        made ++ changes (E.after made w.db)⟩)
  | commit {w : World Db Lock Change Error Client Call α} (client : Client) {call : Call} {answer : α}
      {held : List Lock} {made : List Change}
      (hsession : w.sessions client = some ⟨call, .done answer, held, made⟩) :
      Step w
        { db := E.after made w.db
          sessions := Function.update w.sessions client none
          journal := w.journal ++ [(call, .ok answer)] }
  | abort {w : World Db Lock Change Error Client Call α} (client : Client) :
      Step w { w with sessions := Function.update w.sessions client none }
  | ambient {w : World Db Lock Change Error Client Call α} (change : Change)
      (hneeds : E.needs change = []) : Step w { w with db := E.apply change w.db }

/-! ## Proofs of bodies -/

/-- A body on its way: under facts that hold now and that others cannot break it ends as the relation says. -/
def Proves (post : Db → Except Error α → Db → Prop) :
    Body Db Lock Change Error α → List Lock → List Change → (Db → Prop) → Prop
  | .done answer, _, made, fact => ∀ db, fact db → post db (.ok answer) (E.after made db)
  | .fail error, _, _, fact => ∀ db, fact db → post db (.error error) db
  | .statement takes changes rest, held, made, fact =>
    ∀ db, fact db →
      ∃ next : Db → Prop, next db ∧
        ((rest (E.after made db)).failed ∨
          E.Stable (held ++ takes (E.after made db)) next ∧
            ∀ change ∈ changes (E.after made db), E.Guarded (held ++ takes (E.after made db)) change) ∧
        Proves post (rest (E.after made db)) (held ++ takes (E.after made db))
          (made ++ changes (E.after made db)) next

/-- The calls one after another, each at once. -/
inductive SerialStep (post : Call → Db → Except Error α → Db → Prop) :
    Db × List (Call × Except Error α) → Db × List (Call × Except Error α) → Prop
  | call {db next : Db} {journal : List (Call × Except Error α)} {call : Call}
      {outcome : Except Error α} (hpost : post call db outcome next) :
      SerialStep post (db, journal) (next, journal ++ [(call, outcome)])
  | ambient {db : Db} {journal : List (Call × Except Error α)} (change : Change)
      (hneeds : E.needs change = []) : SerialStep post (db, journal) (E.apply change db, journal)

variable {E body starts} {post : Call → Db → Except Error α → Db → Prop}

/-- A session whose rest is proved under a fact that holds. -/
structure Session.Sound (E : Engine Db Lock Change) (post : Call → Db → Except Error α → Db → Prop) (db : Db)
    (session : Session Db Lock Change Error Call α) : Prop where
  guarded : ∀ change ∈ session.changes, E.Guarded session.held change
  proved : ∃ fact : Db → Prop, fact db ∧ E.Stable session.held fact ∧
    Proves E (post session.call) session.rest session.held session.changes fact

structure World.Sound (E : Engine Db Lock Change) (post : Call → Db → Except Error α → Db → Prop)
    (w : World Db Lock Change Error Client Call α) : Prop where
  session : ∀ client session, w.sessions client = some session → session.Sound E post w.db
  apart : ∀ client other session session', client ≠ other → w.sessions client = some session →
    w.sessions other = some session' → E.Apart session.held session'.held

variable {session : Session Db Lock Change Error Call α} {client : Client}
    {w : World Db Lock Change Error Client Call α}

theorem Session.Sound.foreign {db : Db} (h : session.Sound E post db) {changes : List Change}
    (hforeign : ∀ change ∈ changes, E.Foreign session.held change) :
    session.Sound E post (E.after changes db) := by
  obtain ⟨fact, hfact, hstable, hproves⟩ := h.proved
  exact ⟨h.guarded, fact, hstable.after hforeign hfact, hstable, hproves⟩

theorem update_some {sessions : Client → Option (Session Db Lock Change Error Call α)} {other : Client}
    {put : Option (Session Db Lock Change Error Call α)}
    (h : Function.update sessions client put other = some session) :
    other = client ∧ put = some session ∨ other ≠ client ∧ sessions other = some session := by
  by_cases hsame : other = client
  · rw [hsame, Function.update_self] at h
    exact .inl ⟨hsame, h⟩
  · rw [Function.update_of_ne hsame] at h
    exact .inr ⟨hsame, h⟩

theorem World.Sound.without (h : w.Sound E post) (client : Client) (journal : List (Call × Except Error α)) :
    World.Sound E post
      { db := w.db, sessions := Function.update w.sessions client none, journal := journal } := by
  have hold : ∀ other session, Function.update w.sessions client none other = some session →
      w.sessions other = some session := by
    intro other session hsession
    rcases update_some hsession with ⟨-, hnone⟩ | ⟨-, hold⟩
    · cases hnone
    · exact hold
  exact ⟨fun other session hsession => h.session other session (hold other session hsession),
    fun one other session session' hne hone hother =>
      h.apart one other session session' hne (hold one session hone) (hold other session' hother)⟩

theorem World.Sound.with (h : w.Sound E post) (hsession : session.Sound E post w.db)
    (hapart : ∀ other, other ≠ client → ∀ session', w.sessions other = some session' →
      E.Apart session.held session'.held) :
    World.Sound E post { w with sessions := Function.update w.sessions client (some session) } := by
  constructor
  · intro other session' hother
    rcases update_some hother with ⟨-, hput⟩ | ⟨-, hold⟩
    · cases hput
      exact hsession
    · exact h.session other session' hold
  · intro one other first second hne hone hother
    rcases update_some hone with ⟨hfirst, hput⟩ | ⟨hfirst, hold⟩
    · rcases update_some hother with ⟨hsecond, -⟩ | ⟨hsecond, hold'⟩
      · exact absurd (hfirst.trans hsecond.symm) hne
      · cases hput
        exact hapart other hsecond second hold'
    · rcases update_some hother with ⟨-, hput⟩ | ⟨-, hold'⟩
      · cases hput
        exact (hapart one hfirst first hold).symm
      · exact h.apart one other first second hne hold hold'

theorem World.Sound.settle (h : w.Sound E post) {fact : Db → Prop} (hfact : fact w.db)
    (hproves : Proves E (post session.call) session.rest session.held session.changes fact)
    (hgoes : session.rest.failed ∨ E.Stable session.held fact ∧
      ∀ change ∈ session.changes, E.Guarded session.held change)
    (hapart : ∀ other, other ≠ client → ∀ session', w.sessions other = some session' →
      E.Apart session.held session'.held) : World.Sound E post (w.settle client session) ∧
      Relation.ReflGen (SerialStep E post) (w.db, w.journal)
        ((w.settle client session).db, (w.settle client session).journal) := by
  obtain ⟨call, rest, held, made⟩ := session
  cases rest with
  | fail error => exact ⟨h.without client _, .single (.call (hproves w.db hfact))⟩
  | done answer =>
    obtain ⟨hstable, hguarded⟩ := hgoes.resolve_left id
    exact ⟨h.with ⟨hguarded, fact, hfact, hstable, hproves⟩ hapart, .refl⟩
  | statement takes changes rest =>
    obtain ⟨hstable, hguarded⟩ := hgoes.resolve_left id
    exact ⟨h.with ⟨hguarded, fact, hfact, hstable, hproves⟩ hapart, .refl⟩

theorem World.Sound.step
    (hbegin : ∀ call, E.Stable [] (starts call) ∧ Proves E (post call) (body call) [] [] (starts call))
    {w' : World Db Lock Change Error Client Call α} (h : w.Sound E post) (hstep : Step E body starts w w') :
    w'.Sound E post ∧ Relation.ReflGen (SerialStep E post) (w.db, w.journal) (w'.db, w'.journal) := by
  cases hstep with
  | begin client call hidle hstarts =>
    obtain ⟨hstable, hproves⟩ := hbegin call
    exact h.settle hstarts hproves (.inr ⟨hstable, fun change hchange => absurd hchange List.not_mem_nil⟩)
      (fun _ _ _ _ l hl => absurd hl List.not_mem_nil)
  | @advance client call takes changes rest held made hsession hfree =>
    obtain ⟨hguarded, fact, hfact, hstable, hproves⟩ := h.session client _ hsession
    obtain ⟨next, hnext, hgoes, hrest⟩ := hproves w.db hfact
    refine h.settle hnext hrest (hgoes.imp_right fun hgoes => ⟨hgoes.1, ?_⟩) ?_
    · intro change hchange
      rcases List.mem_append.mp hchange with hmade | hnew
      · exact (hguarded change hmade).mono (List.subset_append_left _ _)
      · exact hgoes.2 change hnew
    · intro other hother session' hsession' l hl
      rcases List.mem_append.mp hl with hheld | htaken
      · exact h.apart client other _ _ hother.symm hsession hsession' l hheld
      · exact hfree other hother session' hsession' l htaken
  | @commit client call answer held made hsession =>
    obtain ⟨hguarded, fact, hfact, hstable, hproves⟩ := h.session client _ hsession
    refine ⟨?_, .single (.call (hproves w.db hfact))⟩
    have hwithout := h.without client (w.journal ++ [(call, .ok answer)])
    refine ⟨fun other session hother => ?_, hwithout.apart⟩
    rcases update_some hother with ⟨-, hnone⟩ | ⟨hne, hold⟩
    · cases hnone
    · exact (h.session other session hold).foreign fun change hchange =>
        (hguarded change hchange).foreign (h.apart client other _ session hne.symm hsession hold)
  | abort client => exact ⟨h.without client w.journal, .refl⟩
  | ambient change hneeds =>
    refine ⟨⟨fun client session hsession => ?_, h.apart⟩, .single (.ambient change hneeds)⟩
    have hforeign : ∀ other ∈ [change], E.Foreign session.held other := by
      intro other hother l hl
      rw [List.mem_singleton.mp hother, hneeds] at hl
      cases hl
    exact (h.session client session hsession).foreign hforeign

end Sessions

end AvenOS.Transactions
