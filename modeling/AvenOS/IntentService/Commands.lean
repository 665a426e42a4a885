import AvenOS.Foundations.StableSort
import AvenOS.IntentService.Intents
import Mathlib.Data.List.Dedup

/-! # The commands of the store

The transactions of `IntentStore`, statement by statement. -/
namespace AvenOS.IntentService
open Actors (JsValue)
open StableSort Transactions

/-! ## Inputs -/

structure CreateIntent where
  id : String
  title : String
  intentType : String
  sourceLabel : String
  deadline : Option String
  routingSummary : Option String
deriving DecidableEq, Repr

structure UpdateIntent where
  expectedVersion : ℕ
  title : Option String
  intentType : Option String
  sourceLabel : Option String
  deadline : Option String
  clearDeadline : Bool
  routingSummary : Option String
  state : Option ActiveIntentState
deriving DecidableEq, Repr

structure ContributionInput where
  id : String
  contributorKind : ContributorKind
  kind : String
  text : Option String
  payload : JsValue

/-- What `insertContribution` is given: the input of a contributor, or what the system adds. -/
structure Contribution where
  id : String
  contributorKind : Contributor
  kind : String
  text : Option String
  payload : JsValue

def ContributionInput.contribution (input : ContributionInput) : Contribution where
  id := input.id
  contributorKind := .kind input.contributorKind
  kind := input.kind
  text := input.text
  payload := input.payload

structure VersionCommand where
  id : String
  expectedVersion : ℕ
deriving DecidableEq, Repr

structure MergeCommand where
  id : String
  expectedVersion : ℕ
  commandId : String
  sources : List VersionCommand
deriving DecidableEq, Repr

inductive Command
  | create (input : CreateIntent)
  | append (intentId : String) (input : ContributionInput)
  | update (intentId : String) (input : UpdateIntent)
  | archiveOrRestore (intentId : String) (input : VersionCommand) (restore : Bool)
  | tombstone (intentId : String) (input : VersionCommand)
  | merge (targetId : String) (input : MergeCommand)

/-- A command of a subject, with the random id that it draws and the row that `LIMIT 1` leaves of several. -/
structure Call where
  subjectId : String
  command : Command
  randomUUID : String
  limit : ℕ

/-! ## Answers -/

structure IntentDetail where
  intent : IntentRow
  contributions : List ContributionRow

inductive Answer
  /-- The caller goes on to read the detail. -/
  | created (id : String)
  | existing (detail : IntentDetail)
  | appended (row : ContributionRow)
  | repeated (row : ContributionRow)
  /-- The caller goes on to read the detail. -/
  | changed (id : String)
  | deleted
  | merged (detail : IntentDetail)
  | mergedBefore (detail : IntentDetail)

inductive IntentError
  | notFound (message : String)
  | conflict (message : String)
  /-- A constraint is violated. -/
  | database
deriving DecidableEq, Repr

abbrev Transaction := Body Db Lock Change IntentError

def intentNotFound : IntentError := .notFound "Intent not found."

def stateChanged : IntentError := .conflict "Intent version or state changed."

/-! ## Rows that are written -/

section Rows
variable (platform : IntentPlatform)

def IntentPlatform.nonempty (text : Option String) : Option String :=
  (text.map platform.trim).filter (· ≠ "")

def CreateIntent.content (input : CreateIntent) : IntentContent where
  title := platform.trim input.title
  intentType := platform.trim input.intentType
  sourceLabel := platform.trim input.sourceLabel
  deadline := platform.nonempty input.deadline
  routingSummary := (platform.nonempty input.routingSummary).getD ("Intent: " ++ platform.trim input.title)

def CreateIntent.row (input : CreateIntent) (subjectId : String) : IntentRow where
  id := platform.uuid input.id
  ownerSubjectId := subjectId
  content := input.content platform
  state := .active .working
  stateBeforeArchive := none
  mergedIntoId := none
  version := 1

def IntentRow.bumped (row : IntentRow) : IntentRow := { row with version := row.version + 1 }

def IntentRow.updated (row : IntentRow) (input : UpdateIntent) : IntentRow :=
  { row with
    content :=
      { title := (platform.nonempty input.title).getD row.content.title
        intentType := (platform.nonempty input.intentType).getD row.content.intentType
        sourceLabel := (platform.nonempty input.sourceLabel).getD row.content.sourceLabel
        deadline :=
          if input.clearDeadline then none else (platform.nonempty input.deadline).or row.content.deadline
        routingSummary := (platform.nonempty input.routingSummary).getD row.content.routingSummary }
    state := (input.state.map IntentState.active).getD row.state
    version := row.version + 1 }

def IntentRow.archived (row : IntentRow) (before : ActiveIntentState) : IntentRow :=
  { row with state := .archive, stateBeforeArchive := some before, version := row.version + 1 }

def IntentRow.restored (row : IntentRow) : IntentRow :=
  { row with
    state := .active (row.stateBeforeArchive.getD .working)
    stateBeforeArchive := none
    version := row.version + 1 }

def IntentRow.tombstoned (row : IntentRow) : IntentRow := { row with state := .deleted, version := row.version + 1 }

def IntentRow.mergedInto (row : IntentRow) (targetId : String) : IntentRow :=
  { row with state := .merged, mergedIntoId := some targetId, version := row.version + 1 }

/-- The entries of the map of sources, and its keys in order. -/
def MergeCommand.sourceVersions (input : MergeCommand) : List (String × ℕ) :=
  input.sources.map fun source => (source.id, source.expectedVersion)

def MergeCommand.sourceIds (input : MergeCommand) : List String :=
  sortBy compare (input.sources.map VersionCommand.id)

end Rows

/-! ## Statements -/

section Statements
variable (platform : IntentPlatform)

def Db.detail? (db : Db) (subjectId intentId : String) : Option IntentDetail :=
  ((db.owned? subjectId (platform.uuid intentId)).filter fun row => row.state ≠ .deleted).map fun row =>
    ⟨row, db.contributionsOf row.id⟩

def detailWith (subjectId intentId : String) : Transaction IntentDetail :=
  Body.query (fun _ => []) (fun _ => []) fun db =>
    match db.detail? platform subjectId intentId with
    | some detail => .ok detail
    | none => .error intentNotFound

/-- `INSERT INTO intents .. ON CONFLICT(id) DO NOTHING`: whether there was a row to insert. -/
def insertIntent (row : IntentRow) : Transaction Bool :=
  Body.query (fun db => if (db.intent? row.id).isSome then [] else [.intent row.id])
    (fun db => if (db.intent? row.id).isSome then [] else [.insertIntent row])
    fun db => .ok (db.intent? row.id).isNone

def contributionRow (intentId : String) (input : Contribution) (idempotencyKey : String) (sequence : ℕ) :
    ContributionRow where
  id := platform.uuid input.id
  intentId := platform.uuid intentId
  sequence := sequence
  contributorKind := input.contributorKind
  kind := input.kind
  text := input.text
  payload := platform.jsonb input.payload
  idempotencyKey := idempotencyKey

def insertContribution (intentId : String) (input : Contribution) (idempotencyKey : String) :
    Transaction ContributionRow :=
  Body.query (fun _ => [.contribution (platform.uuid input.id)])
    (fun db => [.insertContribution
      (contributionRow platform intentId input idempotencyKey (db.nextSequence (platform.uuid intentId)))])
    fun db =>
      if (db.contribution? (platform.uuid input.id)).isSome ∨
          (db.contributionsOf (platform.uuid intentId)).any (·.idempotencyKey = idempotencyKey) ∨
          (db.intent? (platform.uuid intentId)).isNone then .error .database
      else
        .ok (contributionRow platform intentId input idempotencyKey (db.nextSequence (platform.uuid intentId)))

/-- An `UPDATE` of the one row that matches, if there is one: whether there was. -/
def updateIntent (found : Db → Option IntentRow) (updated : IntentRow → IntentRow) : Transaction Bool :=
  Body.query (fun db => ((found db).map fun row => Lock.intent row.id).toList)
    (fun db => ((found db).map fun row => Change.setIntent (updated row)).toList)
    fun db => .ok (found db).isSome

def bumpVersion (intentId : String) : Transaction Bool :=
  updateIntent (fun db => db.intent? (platform.uuid intentId)) IntentRow.bumped

end Statements

/-! ## Create -/

section Commands
variable (platform : IntentPlatform) (subjectId : String)

def createdContribution (randomUUID : String) : Contribution where
  id := randomUUID
  contributorKind := .system
  kind := "intent-created"
  text := none
  payload := .obj [("triggerKind", .str "human")]

/-- The detail of an intent that is there already, where it is the one that is asked for. -/
def createdBefore (input : CreateIntent) (db : Db) : Except IntentError Answer :=
  match db.detail? platform subjectId input.id with
  | some detail =>
    if detail.intent.content = input.content platform then .ok (.existing detail)
    else .error (.conflict "Intent ID conflicts with another request.")
  | none => .error (.conflict "Intent ID conflicts with another request.")

def create (input : CreateIntent) (randomUUID : String) : Transaction Answer := do
  let inserted ← insertIntent (input.row platform subjectId)
  if inserted then
    let _ ← insertContribution platform input.id (createdContribution randomUUID) ("create:" ++ input.id)
    Body.done (.created (platform.uuid input.id))
  else
    let answer ← Body.query (fun _ => []) (fun _ => []) (createdBefore platform subjectId input)
    Body.done answer

/-! ## Append -/

/-- `SELECT true FROM intents .. FOR UPDATE` -/
def lockLive (intentId : String) : Transaction Unit :=
  Body.query (fun db => ((db.live? subjectId (platform.uuid intentId)).map fun row => Lock.intent row.id).toList)
    (fun _ => []) fun db =>
      if (db.live? subjectId (platform.uuid intentId)).isSome then .ok () else .error intentNotFound

def Db.sameContributions (db : Db) (intentId id : String) : List ContributionRow :=
  db.contributions.filter fun row => row.id = platform.uuid id ||
    (row.intentId = platform.uuid intentId && row.idempotencyKey = id)

/-- The row that `LIMIT 1` leaves. -/
def Db.sameContribution? (db : Db) (intentId id : String) (limit : ℕ) : Option ContributionRow :=
  (db.sameContributions platform intentId id)[limit]?.or (db.sameContributions platform intentId id).head?

def findContribution (intentId id : String) (limit : ℕ) : Transaction (Option ContributionRow) :=
  Body.query
    (fun db => if (db.sameContribution? platform intentId id limit).isSome then []
      else [.missedContribution (platform.uuid id)])
    (fun _ => []) fun db => .ok (db.sameContribution? platform intentId id limit)

def repeatedContribution (intentId : String) (input : ContributionInput) (row : ContributionRow) :
    Except IntentError Answer :=
  if row.intentId = intentId ∧ row.contributorKind = .kind input.contributorKind ∧ row.kind = input.kind ∧
      row.text = input.text ∧ platform.isDeepStrictEqual row.payload input.payload = true then .ok (.repeated row)
  else .error (.conflict "Contribution ID conflicts with another request.")

def append (intentId : String) (input : ContributionInput) (limit : ℕ) : Transaction Answer := do
  lockLive platform subjectId intentId
  let existing ← findContribution platform intentId input.id limit
  match existing with
  | some row => Body.ofExcept (repeatedContribution platform intentId input row)
  | none => do
    let created ← insertContribution platform intentId input.contribution input.id
    let _ ← bumpVersion platform intentId
    Body.done (.appended created)

/-! ## Updates -/

def Db.expected? (db : Db) (intentId : String) (expectedVersion : ℕ) : Option IntentRow :=
  (db.owned? subjectId (platform.uuid intentId)).filter fun row => row.version = expectedVersion

/-- `if (result.rowCount !== 1) throw` -/
def oneRow (answer : Answer) (changed : Bool) : Transaction Answer :=
  Body.ofExcept (if changed then .ok answer else .error stateChanged)

def update (intentId : String) (input : UpdateIntent) : Transaction Answer := do
  let changed ← updateIntent
    (fun db => (db.expected? platform subjectId intentId input.expectedVersion).filter fun row => row.state.live)
    fun row => row.updated platform input
  oneRow (.changed (platform.uuid intentId)) changed

def IntentRow.activeState? (row : IntentRow) : Option ActiveIntentState :=
  match row.state with
  | .active state => some state
  | _ => none

def pathMismatch : IntentError := .conflict "Intent ID does not match the path."

def archiveOrRestore (intentId : String) (input : VersionCommand) (restore : Bool) : Transaction Answer :=
  if input.id ≠ intentId then Body.fail pathMismatch
  else do
    let changed ←
      if restore then
        updateIntent
          (fun db => (db.expected? platform subjectId intentId input.expectedVersion).filter fun row =>
            row.state = .archive)
          IntentRow.restored
      else
        updateIntent
          (fun db => (db.expected? platform subjectId intentId input.expectedVersion).filter fun row =>
            row.activeState?.isSome)
          fun row => row.archived (row.activeState?.getD .working)
    oneRow (.changed (platform.uuid intentId)) changed

def tombstone (intentId : String) (input : VersionCommand) : Transaction Answer :=
  if input.id ≠ intentId then Body.fail pathMismatch
  else do
    let changed ← updateIntent
      (fun db => (db.expected? platform subjectId intentId input.expectedVersion).filter fun row => row.state.live)
      IntentRow.tombstoned
    oneRow .deleted changed

/-! ## Merge -/

def findCommand (commandId : String) : Transaction (Option MergeCommandRow) :=
  Body.query
    (fun db => if (db.command? (platform.uuid commandId)).isSome then []
      else [.missedCommand (platform.uuid commandId)])
    (fun _ => []) fun db => .ok (db.command? (platform.uuid commandId))

def MergeCommandRow.Repeats (row : MergeCommandRow) (targetId : String) (input : MergeCommand) : Prop :=
  row.targetIntentId = targetId ∧ row.targetVersion = input.expectedVersion ∧
    row.sourceVersions.isPerm input.sourceVersions = true

instance (row : MergeCommandRow) (targetId : String) (input : MergeCommand) :
    Decidable (row.Repeats targetId input) := inferInstanceAs (Decidable (_ ∧ _))

def Db.mergeable (db : Db) (targetId : String) (input : MergeCommand) : List String :=
  ((targetId :: input.sourceIds).map platform.uuid).dedup.filter fun id => (db.owned? subjectId id).isSome

def lockIntent (id : String) : Transaction (Option IntentRow) :=
  Body.query (fun db => if (db.owned? subjectId id).isSome then [.intent id] else []) (fun _ => [])
    fun db => .ok (db.owned? subjectId id)

/-- `SELECT .. WHERE owner_subject_id=$1 AND id=ANY($2) FOR UPDATE`, one row after another. -/
def lockIntents : List String → Transaction (List IntentRow)
  | [] => Body.done []
  | id :: ids => do
    let row ← lockIntent subjectId id
    let rows ← lockIntents ids
    Body.done (row.toList ++ rows)

def MergeCommand.Fits (input : MergeCommand) (targetId : String) (locked : List IntentRow) : Prop :=
  (∃ row ∈ locked.find? fun row => row.id = targetId,
    row.version = input.expectedVersion ∧ row.state.live = true) ∧
  ∀ row ∈ locked, row.id ≠ targetId →
    input.sourceVersions.lookup row.id = some row.version ∧ row.state.live = true

instance (input : MergeCommand) (targetId : String) (locked : List IntentRow) :
    Decidable (input.Fits targetId locked) := inferInstanceAs (Decidable (_ ∧ _))

def insertMergeCommand (row : MergeCommandRow) : Transaction Unit :=
  Body.query (fun _ => [.command row.commandId]) (fun _ => [.insertCommand row]) fun db =>
    if (db.command? row.commandId).isSome ∨ (db.intent? row.targetIntentId).isNone then .error .database
    else .ok ()

def insertRelation (row : MergeRelationRow) : Transaction Unit :=
  Body.query (fun _ => []) (fun _ => [.insertRelation row]) fun db =>
    if row.targetIntentId = row.sourceIntentId ∨ (db.intent? row.targetIntentId).isNone ∨
        (db.intent? row.sourceIntentId).isNone ∨
        db.mergeRelations.any (·.sourceIntentId = row.sourceIntentId) then .error .database
    else .ok ()

def mergeSource (targetId commandId sourceId : String) : Transaction PUnit := do
  insertRelation ⟨platform.uuid targetId, platform.uuid sourceId, platform.uuid commandId⟩
  let _ ← updateIntent (fun db => db.intent? (platform.uuid sourceId)) fun row =>
    row.mergedInto (platform.uuid targetId)
  Body.done ⟨⟩

def mergedContribution (input : MergeCommand) (randomUUID : String) : Contribution where
  id := randomUUID
  contributorKind := .system
  kind := "intents-merged"
  text := none
  payload := .obj [("sourceIntentIds", .arr (input.sourceIds.map .str)), ("commandId", .str input.commandId)]

def MergeCommand.row (input : MergeCommand) (targetId : String) : MergeCommandRow where
  commandId := platform.uuid input.commandId
  targetIntentId := platform.uuid targetId
  targetVersion := input.expectedVersion
  sourceVersions := input.sourceVersions

def writeMerge (targetId : String) (input : MergeCommand) (randomUUID : String) : Transaction Answer := do
  insertMergeCommand (input.row platform targetId)
  input.sourceIds.forM (mergeSource platform targetId input.commandId)
  let _ ← insertContribution platform targetId (mergedContribution input randomUUID) input.commandId
  let _ ← bumpVersion platform targetId
  let detail ← detailWith platform subjectId targetId
  Body.done (.merged detail)

def mergeIntents (targetId : String) (input : MergeCommand) (randomUUID : String) : Transaction Answer := do
  let ids ← Body.select fun db => db.mergeable platform subjectId targetId input
  let locked ← lockIntents subjectId ids
  if locked.length ≠ input.sourceIds.length + 1 then
    Body.fail (.conflict "One or more intents do not exist.")
  else if ¬input.Fits targetId locked then Body.fail stateChanged
  else writeMerge platform subjectId targetId input randomUUID

def merge (targetId : String) (input : MergeCommand) (randomUUID : String) : Transaction Answer :=
  if input.id ≠ targetId ∨ targetId ∈ input.sources.map VersionCommand.id then
    Body.fail (.conflict "Intent merge is invalid.")
  else if ¬(input.sources.map VersionCommand.id).Nodup then
    Body.fail (.conflict "Intent merge contains duplicate sources.")
  else do
    let prior ← findCommand platform input.commandId
    match prior with
    | some row =>
      if ¬row.Repeats targetId input then
        Body.fail (.conflict "Merge command ID conflicts with another request.")
      else do
        let detail ← detailWith platform subjectId targetId
        Body.done (.mergedBefore detail)
    | none => mergeIntents platform subjectId targetId input randomUUID

end Commands

/-! ## Calls -/

def transaction (platform : IntentPlatform) (call : Call) : Transaction Answer :=
  match call.command with
  | .create input => create platform call.subjectId input call.randomUUID
  | .append intentId input => append platform call.subjectId intentId input call.limit
  | .update intentId input => update platform call.subjectId intentId input
  | .archiveOrRestore intentId input restore =>
    archiveOrRestore platform call.subjectId intentId input restore
  | .tombstone intentId input => tombstone platform call.subjectId intentId input
  | .merge targetId input => merge platform call.subjectId targetId input call.randomUUID

abbrev Store := System Db Lock Change IntentError Call Answer

def Store.idle : Store := ⟨Db.empty, [], []⟩

/-- What clients and the database do next with the store. -/
def storeStep (platform : IntentPlatform) : Store → Action Call → Option Store :=
  System.step postgres (transaction platform)

end AvenOS.IntentService
