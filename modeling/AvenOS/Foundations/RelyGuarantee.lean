import AvenOS.Foundations.TransactionRuns

/-! # Transactions that rely on each other

Not everything a transaction has read is locked. A protocol says which databases are in order, and what the commits of
others may do to one that is, while certain locks are held. A body is proved under facts that survive such commits, and
guarantees that its own commit keeps the database in order and is one of those that others rely on. -/
namespace AvenOS.Transactions

variable {Db Lock Change Error Call α β : Type}

structure Protocol (Db Lock : Type) where
  inv : Db → Prop
  /-- What a commit of another session may do while these locks are held. -/
  rely : List Lock → Db → Db → Prop

section Bodies
variable (E : Engine Db Lock Change) (P : Protocol Db Lock)

/-- What the commits of others cannot break. -/
def Protocol.Keeps (held : List Lock) (fact : Db → Prop) : Prop :=
  ∀ db next, P.inv db → P.inv next → P.rely held db next → fact db → fact next

/-- A commit that keeps the database in order and that others can live with; `post` relates what it found and left. -/
structure Commits (post : Db → α → Db → Prop) (held : List Lock) (made : List Change) (answer : α) (db : Db) : Prop where
  inv : P.inv (E.after made db)
  rely : ∀ other, E.Apart held other → P.rely other db (E.after made db)
  post : post db answer (E.after made db)

/-- A body on its way, under a fact that others keep. -/
def Guarantees (post : Db → α → Db → Prop) :
    Body Db Lock Change Error α → List Lock → List Change → (Db → Prop) → Prop
  | .done answer, held, made, fact => ∀ db, P.inv db → fact db → Commits E P post held made answer db
  | .fail _, _, _, _ => True
  | .statement takes changes rest, held, made, fact =>
    ∀ db, P.inv db → fact db →
      ∃ next : Db → Prop, next db ∧ P.Keeps (held ++ takes (E.after made db)) next ∧
        Guarantees post (rest (E.after made db)) (held ++ takes (E.after made db)) (made ++ changes (E.after made db)) next

variable {E P} {post : Db → α → Db → Prop} {held : List Lock} {made : List Change} {fact : Db → Prop}

theorem Protocol.Keeps.trivial (held : List Lock) : P.Keeps held fun _ => True := fun _ _ _ _ _ h => h

theorem Guarantees.fail (error : Error) : Guarantees E P post (.fail error) held made fact := True.intro

variable {f : β → Body Db Lock Change Error α}

theorem Guarantees.query {takes : Db → List Lock} {changes : Db → List Change} {answer : Db → Except Error β}
    (h : ∀ db, P.inv db → fact db → ∀ b, answer (E.after made db) = .ok b →
      ∃ next : Db → Prop, next db ∧ P.Keeps (held ++ takes (E.after made db)) next ∧
        Guarantees E P post (f b) (held ++ takes (E.after made db)) (made ++ changes (E.after made db)) next) :
    Guarantees E P post (Body.query takes changes answer >>= f) held made fact := by
  intro db hinv hdb
  show ∃ next : Db → Prop, _ ∧ _ ∧ Guarantees E P post (Body.ofExcept (answer (E.after made db)) >>= f) _ _ _
  cases hanswer : answer (E.after made db) with
  | error error => exact ⟨fun _ => True, True.intro, Protocol.Keeps.trivial _, True.intro⟩
  | ok b => exact h db hinv hdb b hanswer

theorem Guarantees.select {answer : Db → β}
    (h : ∀ db, P.inv db → fact db → ∃ next : Db → Prop, next db ∧ P.Keeps held next ∧
      Guarantees E P post (f (answer (E.after made db))) held made next) :
    Guarantees E P post (Body.select answer >>= f) held made fact := by
  refine Guarantees.query fun db hinv hdb b hb => ?_
  cases hb
  rw [List.append_nil, List.append_nil]
  exact h db hinv hdb

theorem Guarantees.require {condition : Prop} [Decidable condition] {error : Error} {f : Unit → Body Db Lock Change Error α}
    (h : condition → Guarantees E P post (f ()) held made fact) :
    Guarantees E P post (Body.require condition error >>= f) held made fact := by
  unfold Body.require
  split
  next hcondition => exact h hcondition
  next => exact True.intro

end Bodies

/-! ## Runs -/

section Runs
variable (E : Engine Db Lock Change) (P : Protocol Db Lock) (post : Call → Db → α → Db → Prop)

structure Session.Relies (db : Db) (session : Session Db Lock Change Error Call α) : Prop where
  proved : ∃ fact : Db → Prop, fact db ∧ P.Keeps session.held fact ∧
    Guarantees E P (post session.call) session.rest session.held session.changes fact

/-- The database is in order, and every session in flight is proved under what holds now. -/
structure System.Reliable (s : System Db Lock Change Error Call α) : Prop where
  inv : P.inv s.db
  session : ∀ client session, s.session? client = some session → session.Relies E P post s.db
  apart : ∀ client other session session', client ≠ other → s.session? client = some session →
    s.session? other = some session' → E.Apart session.held session'.held

inductive Ended : Db × List (Call × Except Error α) → Db × List (Call × Except Error α) → Prop
  | none (db : Db) (journal : List (Call × Except Error α)) : Ended (db, journal) (db, journal)
  | failed (db : Db) (journal : List (Call × Except Error α)) (call : Call) (error : Error) :
      Ended (db, journal) (db, journal ++ [(call, .error error)])
  | committed {db next : Db} (journal : List (Call × Except Error α)) {call : Call} {answer : α}
      (hpost : post call db answer next) : Ended (db, journal) (next, journal ++ [(call, .ok answer)])

variable {E P post} {s s' : System Db Lock Change Error Call α}

theorem System.Reliable.idle {db : Db} (h : P.inv db) : System.Reliable E P post (⟨db, [], []⟩ : System Db Lock Change Error Call α) :=
  ⟨h, fun _ _ hsession => (by cases hsession), fun _ _ _ _ _ hsession => (by cases hsession)⟩

theorem System.settle_ended (client : ℕ) (session : Session Db Lock Change Error Call α) :
    Ended post (s.db, s.journal) ((s.settle client session).db, (s.settle client session).journal) := by
  obtain ⟨call, rest, held, made⟩ := session
  cases rest with
  | fail error => exact .failed s.db s.journal call error
  | done answer => exact .none s.db s.journal
  | statement takes changes rest => exact .none s.db s.journal

theorem System.Reliable.settle (h : s.Reliable E P post) {client : ℕ} {next : Session Db Lock Change Error Call α}
    (hnext : next.Relies E P post s.db)
    (hapart : ∀ other session, other ≠ client → s.session? other = some session → E.Apart next.held session.held) :
    System.Reliable E P post (s.settle client next) := by
  refine ⟨?_, ?_, ?_⟩
  · rw [System.db_settle]
    exact h.inv
  · intro other session hsession
    rw [System.db_settle]
    rcases System.session?_settle hsession with ⟨-, rfl⟩ | ⟨-, hold⟩
    · exact hnext
    · exact h.session other session hold
  · intro one other first second hne hone hother
    rcases System.session?_settle hone with ⟨hfirst, rfl⟩ | ⟨hfirst, hold⟩
    · rcases System.session?_settle hother with ⟨hsecond, -⟩ | ⟨hsecond, hold'⟩
      · exact absurd (hfirst.trans hsecond.symm) hne
      · exact hapart other second hsecond hold'
    · rcases System.session?_settle hother with ⟨hsecond, rfl⟩ | ⟨-, hold'⟩
      · exact (hapart one first hfirst hold).symm
      · exact h.apart one other first second hne hold hold'

variable [DecidableRel E.conflicts] {body : Call → Body Db Lock Change Error α}

theorem System.Reliable.step (hbody : ∀ call, Guarantees E P (post call) (body call) [] [] fun _ => True)
    (h : s.Reliable E P post) {action : Action Call} (hstep : s.step E body action = some s') :
    s'.Reliable E P post ∧ Ended post (s.db, s.journal) (s'.db, s'.journal) := by
  cases action with
  | begin client call =>
    obtain ⟨-, rfl⟩ := LabelledRun.guarded_some hstep
    refine ⟨h.settle ⟨fun _ => True, True.intro, Protocol.Keeps.trivial _, hbody call⟩ ?_, System.settle_ended client _⟩
    exact fun _ _ _ _ l hl => absurd hl List.not_mem_nil
  | advance client =>
    rw [System.step] at hstep
    split at hstep
    · rename_i call takes changes rest held made hclient
      obtain ⟨hfree, rfl⟩ := LabelledRun.guarded_some hstep
      obtain ⟨fact, hfact, -, hproved⟩ := (h.session client _ hclient).proved
      obtain ⟨next, hnext, hkeeps, hrest⟩ := hproved s.db h.inv hfact
      refine ⟨h.settle ⟨next, hnext, hkeeps, hrest⟩ ?_, System.settle_ended client _⟩
      intro other session hne hother l hl l' hl'
      rcases List.mem_append.mp hl with hheld | htaken
      · exact h.apart client other _ _ hne.symm hclient hother l hheld l' hl'
      · exact System.free_apart hfree hne hother l htaken l' hl'
    · cases hstep
  | commit client =>
    rw [System.step] at hstep
    split at hstep
    · rename_i call answer held made hclient
      cases hstep
      obtain ⟨fact, hfact, -, hproved⟩ := (h.session client _ hclient).proved
      have hcommits : Commits E P (post call) held made answer s.db := hproved s.db h.inv hfact
      refine ⟨⟨hcommits.inv, ?_, ?_⟩, .committed s.journal hcommits.post⟩
      · intro other session hsession
        obtain ⟨hne, hold⟩ := System.session?_dropped hsession
        obtain ⟨known, hknown, hkeeps, hother⟩ := (h.session other session hold).proved
        have hapart := h.apart client other _ _ hne.symm hclient hold
        exact ⟨known, hkeeps s.db _ h.inv hcommits.inv (hcommits.rely session.held hapart) hknown, hkeeps, hother⟩
      · intro one other first second hne hone hother
        exact h.apart one other first second hne (System.session?_dropped hone).2 (System.session?_dropped hother).2
    · cases hstep
  | abort client =>
    cases hstep
    refine ⟨⟨h.inv, ?_, ?_⟩, .none s.db s.journal⟩
    · exact fun other session hsession => h.session other session (System.session?_dropped hsession).2
    · exact fun one other first second hne hone hother =>
        h.apart one other first second hne (System.session?_dropped hone).2 (System.session?_dropped hother).2

theorem System.Reliable.run (hbody : ∀ call, Guarantees E P (post call) (body call) [] [] fun _ => True)
    {I : Db → List (Call × Except Error α) → Prop}
    (hended : ∀ db journal db' journal', P.inv db → P.inv db' → Ended post (db, journal) (db', journal') →
      I db journal → I db' journal')
    (h : s.Reliable E P post) (hI : I s.db s.journal) {actions : List (Action Call)}
    (hrun : LabelledRun.run (System.step E body) s actions = some s') :
    s'.Reliable E P post ∧ I s'.db s'.journal := by
  induction actions generalizing s with
  | nil =>
    cases hrun
    exact ⟨h, hI⟩
  | cons action actions ih =>
    obtain ⟨next, hstep, hrest⟩ := LabelledRun.run_cons hrun
    obtain ⟨hnext, hend⟩ := h.step hbody hstep
    exact ih hnext (hended _ _ _ _ h.inv hnext.inv hend hI) hrest

end Runs

end AvenOS.Transactions
