import AvenOS.Actors.Portable
import AvenOS.Foundations.KeyedTable
import AvenOS.Foundations.TransactionRuns

/-! # Intents and their tables

The rows of `0001_intents.sql`, the changes that the statements of the store make, the locks these stand
under, and what a transaction that holds locks can rely on. -/
namespace AvenOS.IntentService
open Actors (JsValue)
open KeyedTable Transactions

/-! ## Values -/

inductive ActiveIntentState
  | working
  | waiting
  | done
  | error
deriving DecidableEq, Repr

inductive IntentState
  | active (state : ActiveIntentState)
  | archive
  | merged
  | deleted
deriving DecidableEq, Repr

def IntentState.live : IntentState → Bool
  | .merged => false
  | .deleted => false
  | _ => true

inductive ContributorKind
  | human
  | agent
deriving DecidableEq, Repr

/-- The values of `contributor_kind`. -/
inductive Contributor
  | kind (kind : ContributorKind)
  | skill
  | system
deriving DecidableEq, Repr

/-- What the store is given: the text that a `uuid` column gives back, what a `jsonb` column gives back, and
the functions of the language that it calls. -/
structure IntentPlatform where
  uuid : String → String
  uuid_uuid : ∀ text, uuid (uuid text) = uuid text
  jsonb : JsValue → JsValue
  trim : String → String
  isDeepStrictEqual : JsValue → JsValue → Bool
  equivalence : Equivalence fun one other => isDeepStrictEqual one other = true

/-! ## Rows -/

/-- The columns that a create and an update set. -/
structure IntentContent where
  title : String
  intentType : String
  sourceLabel : String
  deadline : Option String
  routingSummary : String
deriving DecidableEq, Repr

structure IntentRow where
  id : String
  ownerSubjectId : String
  content : IntentContent
  state : IntentState
  stateBeforeArchive : Option ActiveIntentState
  mergedIntoId : Option String
  version : ℕ
deriving DecidableEq, Repr

structure ContributionRow where
  id : String
  intentId : String
  sequence : ℕ
  contributorKind : Contributor
  kind : String
  text : Option String
  payload : JsValue
  idempotencyKey : String

structure MergeCommandRow where
  commandId : String
  targetIntentId : String
  targetVersion : ℕ
  sourceVersions : List (String × ℕ)
deriving DecidableEq, Repr

structure MergeRelationRow where
  targetIntentId : String
  sourceIntentId : String
  commandId : String
deriving DecidableEq, Repr

structure Db where
  intents : List IntentRow
  contributions : List ContributionRow
  mergeCommands : List MergeCommandRow
  mergeRelations : List MergeRelationRow

namespace Db

def empty : Db := ⟨[], [], [], []⟩

variable (db : Db)

def intent? (id : String) : Option IntentRow := lookup IntentRow.id id db.intents

def contribution? (id : String) : Option ContributionRow := lookup ContributionRow.id id db.contributions

def contributionsOf (intentId : String) : List ContributionRow :=
  db.contributions.filter fun row => row.intentId = intentId

def command? (id : String) : Option MergeCommandRow := lookup MergeCommandRow.commandId id db.mergeCommands

def owned? (subjectId id : String) : Option IntentRow :=
  (db.intent? id).filter fun row => row.ownerSubjectId = subjectId

/-- The row of an owner that is neither merged nor deleted. -/
def live? (subjectId id : String) : Option IntentRow :=
  (db.owned? subjectId id).filter fun row => row.state.live

/-- `COALESCE(max(sequence),0)+1` -/
def nextSequence (intentId : String) : ℕ :=
  ((db.contributionsOf intentId).map ContributionRow.sequence).foldl max 0 + 1

end Db

/-! ## Changes -/

inductive Change
  | insertIntent (row : IntentRow)
  | setIntent (row : IntentRow)
  | insertContribution (row : ContributionRow)
  | insertCommand (row : MergeCommandRow)
  | insertRelation (row : MergeRelationRow)

def Change.apply : Change → Db → Db
  | insertIntent row, db => { db with intents := db.intents ++ [row] }
  | setIntent row, db => { db with intents := modify IntentRow.id row.id (fun _ => row) db.intents }
  | insertContribution row, db => { db with contributions := db.contributions ++ [row] }
  | insertCommand row, db => { db with mergeCommands := db.mergeCommands ++ [row] }
  | insertRelation row, db => { db with mergeRelations := db.mergeRelations ++ [row] }

/-! ## Locks -/

inductive Lock
  /-- The row of an intent, or the index entry of one that is being inserted. -/
  | intent (id : String)
  /-- The index entry of a contribution that is being inserted. -/
  | contribution (id : String)
  | command (id : String)
  /-- What a transaction has looked for in vain; it excludes nothing. -/
  | missedContribution (id : String)
  | missedCommand (id : String)
deriving DecidableEq, Repr

def Lock.excludes : Lock → Bool
  | intent _ => true
  | contribution _ => true
  | command _ => true
  | _ => false

def Lock.conflicts (one other : Lock) : Prop := one = other ∧ one.excludes = true

instance : DecidableRel Lock.conflicts := fun one other => inferInstanceAs (Decidable (one = other ∧ _))

def Change.needs : Change → List Lock
  | insertIntent row => [.intent row.id]
  | setIntent row => [.intent row.id]
  | insertContribution row => [.contribution row.id, .intent row.intentId]
  | insertCommand row => [.command row.commandId]
  | insertRelation row => [.intent row.sourceIntentId]

theorem Lock.conflicts_symm (one other : Lock) (h : one.conflicts other) : other.conflicts one := ⟨h.1.symm, h.1 ▸ h.2⟩

def postgres : Engine Db Lock Change where
  apply := Change.apply
  needs := Change.needs
  conflicts := Lock.conflicts
  symm := Lock.conflicts_symm

instance : DecidableRel postgres.conflicts := inferInstanceAs (DecidableRel Lock.conflicts)

/-! ## What a change leaves -/

def Change.sets : Change → Option String
  | insertIntent row => some row.id
  | setIntent row => some row.id
  | _ => none

def Change.contributes : Change → Option String
  | insertContribution row => some row.intentId
  | _ => none

section Apply
variable {db : Db} {change : Change} {id : String}

theorem Change.needs_sets (h : change.sets = some id) : .intent id ∈ change.needs := by
  cases change <;> cases h <;> exact List.mem_singleton.mpr rfl

theorem Change.needs_contributes (h : change.contributes = some id) : .intent id ∈ change.needs := by
  cases change <;> cases h
  exact List.mem_cons_of_mem _ (List.mem_singleton.mpr rfl)

theorem Change.apply_intent? (h : change.sets ≠ some id) : (change.apply db).intent? id = db.intent? id := by
  cases change with
  | insertIntent row => exact lookup_concat_other fun hid => h (congrArg some hid)
  | setIntent row => exact lookup_replace_other fun hid => h (congrArg some hid.symm)
  | insertContribution row => rfl
  | insertCommand row => rfl
  | insertRelation row => rfl

theorem Change.apply_contributionsOf (h : change.contributes ≠ some id) :
    (change.apply db).contributionsOf id = db.contributionsOf id := by
  cases change with
  | insertContribution row =>
    have hne : row.intentId ≠ id := fun hid => h (congrArg some hid)
    show (db.contributions ++ [row]).filter _ = db.contributions.filter _
    rw [List.filter_append, List.filter_singleton, decide_eq_false hne]
    exact List.append_nil _
  | insertIntent row => rfl
  | setIntent row => rfl
  | insertCommand row => rfl
  | insertRelation row => rfl

theorem Change.apply_contribution? (h : .contribution id ∉ change.needs) :
    (change.apply db).contribution? id = db.contribution? id := by
  cases change with
  | insertContribution row => exact lookup_concat_other fun hid => h (by simp [Change.needs, hid])
  | insertIntent row => rfl
  | setIntent row => rfl
  | insertCommand row => rfl
  | insertRelation row => rfl

theorem Change.apply_command? (h : .command id ∉ change.needs) : (change.apply db).command? id = db.command? id := by
  cases change with
  | insertCommand row => exact lookup_concat_other fun hid => h (by simp [Change.needs, hid])
  | insertIntent row => rfl
  | setIntent row => rfl
  | insertContribution row => rfl
  | insertRelation row => rfl

variable {changes : List Change}

theorem after_intent? (h : ∀ change ∈ changes, change.sets ≠ some id) :
    (postgres.after changes db).intent? id = db.intent? id := by
  induction changes generalizing db with
  | nil => rfl
  | cons change changes ih =>
    rw [postgres.after_cons, ih fun other hother => h other (List.mem_cons_of_mem _ hother)]
    exact Change.apply_intent? (h change List.mem_cons_self)

theorem after_contributionsOf (h : ∀ change ∈ changes, change.contributes ≠ some id) :
    (postgres.after changes db).contributionsOf id = db.contributionsOf id := by
  induction changes generalizing db with
  | nil => rfl
  | cons change changes ih =>
    rw [postgres.after_cons, ih fun other hother => h other (List.mem_cons_of_mem _ hother)]
    exact Change.apply_contributionsOf (h change List.mem_cons_self)

end Apply

/-! ## What locks protect -/

section Stable
variable {held : List Lock} {l : Lock}

theorem foreign_needs {change : Change} (hlock : l ∈ held) (hexcludes : l.excludes = true)
    (h : postgres.Foreign held change) : l ∉ change.needs :=
  fun hneeds => h l hneeds l hlock ⟨rfl, hexcludes⟩

theorem stable_intent {id : String} (hlock : .intent id ∈ held) (found : Option IntentRow) :
    postgres.Stable held fun db => db.intent? id = found :=
  fun _ _ hforeign hfound =>
    (Change.apply_intent? fun h => foreign_needs hlock rfl hforeign (Change.needs_sets h)).trans hfound

theorem stable_contributionsOf {id : String} (hlock : .intent id ∈ held) (rows : List ContributionRow) :
    postgres.Stable held fun db => db.contributionsOf id = rows :=
  fun _ _ hforeign hrows =>
    (Change.apply_contributionsOf fun h => foreign_needs hlock rfl hforeign (Change.needs_contributes h)).trans hrows

theorem stable_contribution {id : String} (hlock : .contribution id ∈ held) (found : Option ContributionRow) :
    postgres.Stable held fun db => db.contribution? id = found :=
  fun _ _ hforeign hfound => (Change.apply_contribution? (foreign_needs hlock rfl hforeign)).trans hfound

theorem stable_command {id : String} (hlock : .command id ∈ held) (found : Option MergeCommandRow) :
    postgres.Stable held fun db => db.command? id = found :=
  fun _ _ hforeign hfound => (Change.apply_command? (foreign_needs hlock rfl hforeign)).trans hfound

end Stable

end AvenOS.IntentService
