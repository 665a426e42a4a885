import AvenOS.Foundations.ParentForest
import AvenOS.IntentService.CommandEffects
import Mathlib.Data.List.Range

/-! # The history of intents

What the commands that are carried out, one after another, make of one intent, and from it what holds of all
intents in every run of the store. -/
namespace AvenOS.IntentService
open Actors (JsValue)
open KeyedTable LabelledRun ParentForest StableSort Transactions

/-! ## Histories -/

section History
variable (platform : IntentPlatform)

def Command.names : Command → List String
  | .create input => [platform.uuid input.id]
  | .append intentId _ => [platform.uuid intentId]
  | .update intentId _ => [platform.uuid intentId]
  | .archiveOrRestore intentId _ _ => [platform.uuid intentId]
  | .tombstone intentId _ => [platform.uuid intentId]
  | .merge targetId input => targetId :: input.sourceIds

def Command.expected : Command → String → Option ℕ
  | .update intentId input, id => if id = platform.uuid intentId then some input.expectedVersion else none
  | .archiveOrRestore intentId input _, id => if id = platform.uuid intentId then some input.expectedVersion else none
  | .tombstone intentId input, id => if id = platform.uuid intentId then some input.expectedVersion else none
  | .merge targetId input, id =>
    if id = targetId then some input.expectedVersion else input.sourceVersions.lookup id
  | _, _ => none

def Command.absorbs : Command → String → Bool
  | .merge _ input, id => id ∈ input.sourceIds
  | _, _ => false

/-- The intent that a merge leaves. -/
def Command.mergeTarget : Command → Option String
  | .merge targetId _ => some targetId
  | _ => none

def changed? (id : String) (entry : Call × Except IntentError Answer) : Option Command :=
  match entry.2 with
  | .ok answer =>
    if answer.effective = true ∧ id ∈ entry.1.command.names platform then some entry.1.command else none
  | .error _ => none

def changesOf (journal : List (Call × Except IntentError Answer)) (id : String) : List Command :=
  journal.filterMap (changed? platform id)

def Db.parent (db : Db) (id : String) : Option String := (db.intent? id).bind IntentRow.mergedIntoId

/-- What is asked of a state of the store and the commits that led to it. -/
structure HistoryKept (s : Store) : Prop where
  /-- The version counts the changes. -/
  versions : ∀ id, ((s.db.intent? id).map IntentRow.version).getD 0 = (changesOf platform s.journal id).length
  /-- A change that expects a version found it. -/
  expected : ∀ id i (command : Command), (changesOf platform s.journal id)[i]? = some command →
    ∀ version, command.expected platform id = some version → version = i
  sequences : ∀ id, (s.db.contributionsOf id).map ContributionRow.sequence =
    List.range' 1 (s.db.contributionsOf id).length
  mergedOnce : ∀ id, (changesOf platform s.journal id).countP (fun command => command.absorbs id) ≤ 1
  acyclic : Acyclic s.db.parent
  owners : ∀ id row targetId, s.db.intent? id = some row → row.mergedIntoId = some targetId →
    ∃ target, s.db.intent? targetId = some target ∧ target.ownerSubjectId = row.ownerSubjectId

/-- What is asked of a later state: nothing changes an intent but its own changes, and nothing changes one that is
merged or deleted. -/
structure HistoryContinued (s s' : Store) : Prop where
  changes : ∀ id, changesOf platform s.journal id <+: changesOf platform s'.journal id
  unchanged : ∀ id, changesOf platform s'.journal id = changesOf platform s.journal id →
    s'.db.intent? id = s.db.intent? id ∧ s'.db.contributionsOf id = s.db.contributionsOf id
  frozen : ∀ id row, s.db.intent? id = some row → row.state.live = false →
    changesOf platform s'.journal id = changesOf platform s.journal id

end History

/-! ## One command and one intent -/

def ContributionsGrow (db next : Db) (id : String) : Prop :=
  next.contributionsOf id = db.contributionsOf id ∨
    ∃ row : ContributionRow, next.contributionsOf id = db.contributionsOf id ++ [row] ∧
      row.sequence = db.nextSequence id

structure Absorbed (db : Db) (command : Command) (row row' : IntentRow) : Prop where
  absorbs : command.absorbs row.id = true
  merged : row'.state = .merged
  target : ∃ target, command.mergeTarget = some target.id ∧ db.intent? target.id = some target ∧
    target.state.live = true ∧ target.ownerSubjectId = row.ownerSubjectId ∧ row'.mergedIntoId = some target.id ∧
    command.absorbs target.id = false

structure Kept (command : Command) (row row' : IntentRow) : Prop where
  absorbs : command.absorbs row.id = false
  merged : row'.state ≠ .merged
  target : row'.mergedIntoId = row.mergedIntoId

inductive Moves (platform : IntentPlatform) (command : Command) (db next : Db) (id : String) : Prop
  | other (hnames : id ∉ command.names platform) (hintent : next.intent? id = db.intent? id)
      (hcontributions : next.contributionsOf id = db.contributionsOf id)
  | created {row : IntentRow} (hnames : id ∈ command.names platform) (hnew : db.intent? id = none)
      (hrow : next.intent? id = some row) (hversion : row.version = 1) (hstate : row.state.live = true)
      (htarget : row.mergedIntoId = none) (hexpected : command.expected platform id = none)
      (habsorbs : command.absorbs id = false) (hcontributions : ContributionsGrow db next id)
  | changed {row row' : IntentRow} (hnames : id ∈ command.names platform) (hold : db.intent? id = some row)
      (hlive : row.state.live = true)
      (hexpected : ∀ version, command.expected platform id = some version → row.version = version)
      (hrow : next.intent? id = some row') (hversion : row'.version = row.version + 1)
      (howner : row'.ownerSubjectId = row.ownerSubjectId)
      (hmerge : Kept command row row' ∨ Absorbed db command row row')
      (hcontributions : ContributionsGrow db next id)

section Steps
variable {platform : IntentPlatform} {call : Call} {db : Db}

variable (db) in
theorem setIntent_same {row row' : IntentRow} (hid : row'.id = row.id) (hfound : db.intent? row.id = some row) :
    ((Change.setIntent row').apply db).intent? row.id = some row' := by
  have hset : ((Change.setIntent row').apply db).intent? row'.id = (db.intent? row'.id).map fun _ => row' :=
    lookup_replace
  rw [hid, hfound] at hset
  exact hset

theorem insertIntent_same (row : IntentRow) (h : db.intent? row.id = none) :
    ((Change.insertIntent row).apply db).intent? row.id = some row := by
  show lookup IntentRow.id row.id (db.intents ++ [row]) = some row
  have hfresh : ∀ other ∈ db.intents, other.id ≠ row.id := fun other hother => lookup_none h hother
  rw [lookup_concat_new hfresh, if_pos rfl]

variable (db) in
theorem insertContribution_same (row : ContributionRow) :
    ((Change.insertContribution row).apply db).contributionsOf row.intentId = db.contributionsOf row.intentId ++ [row] := by
  show (db.contributions ++ [row]).filter _ = _
  rw [List.filter_append, List.filter_singleton, decide_eq_true rfl]
  rfl

variable {id intentId : String} {version : ℕ}

variable {contribution : ContributionRow} {command : Command} {targetId : String} {sources : List IntentRow}
  {answer : Answer} {changes : List Change}

theorem moves_created {input : CreateIntent} (hcommand : call.command = .create input)
    (hnew : db.intent? (platform.uuid input.id) = none)
    (hcontribution : contribution.intentId = platform.uuid input.id)
    (hsequence : contribution.sequence = db.nextSequence (platform.uuid input.id)) : Moves platform call.command db
      (postgres.after [.insertIntent (input.row platform call.subjectId), .insertContribution contribution] db) id := by
  rw [hcommand]
  by_cases hid : id = platform.uuid input.id
  · subst hid
    refine .created (List.mem_singleton.mpr rfl) hnew (insertIntent_same (input.row platform call.subjectId) hnew)
      rfl rfl rfl rfl rfl (.inr ⟨contribution, ?_, hsequence⟩)
    rw [← hcontribution]
    exact insertContribution_same _ _
  · refine .other (fun hmem => hid (List.mem_singleton.mp hmem)) (after_intent? ?_) (after_contributionsOf ?_)
    · intro change hchange hsets
      rcases List.mem_cons.mp hchange with rfl | hchange
      · exact hid (Option.some.inj hsets).symm
      · obtain rfl := List.mem_singleton.mp hchange
        cases hsets
    · intro change hchange hcontributes
      rcases List.mem_cons.mp hchange with rfl | hchange
      · cases hcontributes
      · obtain rfl := List.mem_singleton.mp hchange
        exact hid ((Option.some.inj hcontributes).symm.trans hcontribution)

theorem moves_appended {input : ContributionInput} {row : IntentRow} (hcommand : call.command = .append intentId input)
    (hlive : db.live? call.subjectId (platform.uuid intentId) = some row)
    (hcontribution : contribution.intentId = platform.uuid intentId)
    (hsequence : contribution.sequence = db.nextSequence (platform.uuid intentId)) :
    Moves platform call.command db (postgres.after [.insertContribution contribution, .setIntent row.bumped] db) id := by
  obtain ⟨hfound, -, hstate, hrow⟩ := live?_eq hlive
  rw [hcommand]
  by_cases hid : id = platform.uuid intentId
  · subst hid
    have hset : (postgres.after [.insertContribution contribution, .setIntent row.bumped] db).intent?
        (platform.uuid intentId) = some row.bumped := by
      rw [← hrow] at hfound ⊢
      exact setIntent_same ((Change.insertContribution contribution).apply db) rfl hfound
    refine .changed (List.mem_singleton.mpr rfl) hfound hstate (fun version h => by cases h) hset rfl rfl
      (.inl ⟨rfl, ?_, rfl⟩) (.inr ⟨contribution, ?_, hsequence⟩)
    · intro hmerged
      rw [show row.state = .merged from hmerged] at hstate
      cases hstate
    · rw [← hcontribution]
      exact insertContribution_same _ _
  · refine .other (fun hmem => hid (List.mem_singleton.mp hmem)) (after_intent? ?_) (after_contributionsOf ?_)
    · intro change hchange hsets
      rcases List.mem_cons.mp hchange with rfl | hchange
      · cases hsets
      · obtain rfl := List.mem_singleton.mp hchange
        exact hid ((Option.some.inj hsets).symm.trans hrow)
    · intro change hchange hcontributes
      rcases List.mem_cons.mp hchange with rfl | hchange
      · exact hid ((Option.some.inj hcontributes).symm.trans hcontribution)
      · obtain rfl := List.mem_singleton.mp hchange
        cases hcontributes

structure Revised (command : Command) (row row' : IntentRow) : Prop where
  version : row'.version = row.version + 1
  owner : row'.ownerSubjectId = row.ownerSubjectId
  live : row.state.live = true
  kept : Kept command row row'

theorem Sets.revised {row row' : IntentRow} (h : Sets platform command intentId version row row') :
    Revised command row row' := by
  have hnot : ∀ {state : IntentState}, state.live = true → state ≠ .merged := by
    intro state hlive hmerged
    rw [hmerged] at hlive
    cases hlive
  cases h with
  | update hlive =>
    rename_i input
    refine ⟨rfl, rfl, hlive, rfl, ?_, rfl⟩
    show (input.state.map IntentState.active).getD row.state ≠ .merged
    cases input.state with
    | none => exact hnot hlive
    | some state => exact fun h => by cases h
  | archive hactive => exact ⟨rfl, rfl, by rw [hactive]; rfl, rfl, fun h => (by cases h), rfl⟩
  | restore harchive => exact ⟨rfl, rfl, by rw [harchive]; rfl, rfl, fun h => (by cases h), rfl⟩
  | tombstone hlive => exact ⟨rfl, rfl, hlive, rfl, fun h => (by cases h), rfl⟩

theorem Sets.names {row row' : IntentRow} (h : Sets platform command intentId version row row') :
    command.names platform = [platform.uuid intentId] ∧
      ∀ id, command.expected platform id = if id = platform.uuid intentId then some version else none := by
  cases h <;> exact ⟨rfl, fun _ => rfl⟩

theorem moves_set {row row' : IntentRow} (hsets : Sets platform call.command intentId version row row')
    (hexpected : db.expected? platform call.subjectId intentId version = some row) :
    Moves platform call.command db (postgres.after [.setIntent row'] db) id := by
  obtain ⟨hfound, -, hversion, hrow⟩ := expected?_eq hexpected
  obtain ⟨hnext, howner, hlive, hkept⟩ := hsets.revised
  obtain ⟨hnames, hexpects⟩ := hsets.names
  by_cases hid : id = platform.uuid intentId
  · subst hid
    refine .changed (by rw [hnames]; exact List.mem_singleton.mpr rfl) hfound hlive ?_ ?_ hnext howner (.inl hkept)
      (.inl rfl)
    · intro other hother
      rw [hexpects, if_pos rfl, Option.some.injEq] at hother
      exact hversion.trans hother
    · rw [← hrow] at hfound ⊢
      exact setIntent_same db hsets.id hfound
  · refine .other (by rw [hnames]; exact fun hmem => hid (List.mem_singleton.mp hmem)) (after_intent? ?_) rfl
    intro change hchange hset
    obtain rfl := List.mem_singleton.mp hchange
    exact hid ((Option.some.inj hset).symm.trans (hsets.id.trans hrow))

theorem after_sourceChanges {commandId : String} {row : IntentRow} (hnodup : (sources.map IntentRow.id).Nodup)
    (hrow : row ∈ sources) (hfound : db.intent? row.id = some row) :
    (postgres.after (sources.flatMap (sourceChanges platform targetId commandId)) db).intent? row.id =
      some (row.mergedInto targetId) := by
  induction sources generalizing db with
  | nil => cases hrow
  | cons first sources ih =>
    obtain ⟨hfirst, hrest⟩ := List.nodup_cons.mp hnodup
    rw [List.flatMap_cons, postgres.after_append]
    rcases List.mem_cons.mp hrow with rfl | hrow
    · rw [after_intent? fun change hchange hsets => hfirst ((sets_sourceChanges hchange).2 row.id hsets)]
      exact setIntent_same ((Change.insertRelation _).apply db) rfl hfound
    · refine ih hrest hrow ?_
      have hne : first.id ≠ row.id := fun hsame => hfirst (hsame ▸ List.mem_map_of_mem hrow)
      rw [after_intent?]
      · exact hfound
      · intro change hchange hsets
        rcases List.mem_cons.mp hchange with rfl | hchange
        · cases hsets
        · obtain rfl := List.mem_singleton.mp hchange
          exact hne (Option.some.inj hsets)

theorem moves_merged {input : MergeCommand} {target : IntentRow} (hcommand : call.command = .merge targetId input)
    (htarget : target.id = targetId) (hcanonical : platform.uuid targetId = targetId)
    (hsources : sources.map IntentRow.id = input.sourceIds) (hnodup : (targetId :: input.sourceIds).Nodup)
    (hjoins : Joins db call.subjectId target input.expectedVersion)
    (hjoin : ∀ row ∈ sources, ∃ version, input.sourceVersions.lookup row.id = some version ∧
      Joins db call.subjectId row version) : Moves platform call.command db
      (postgres.after (mergeChanges platform input call.randomUUID (db.nextSequence targetId) target sources) db)
      id := by
  obtain ⟨hnot, hdistinct⟩ := List.nodup_cons.mp hnodup
  subst htarget
  rw [hcommand]
  have hlast : postgres.after (mergeChanges platform input call.randomUUID (db.nextSequence target.id) target sources)
      db = (Change.setIntent target.bumped).apply ((Change.insertContribution (contributionRow platform target.id
        (mergedContribution input call.randomUUID) input.commandId (db.nextSequence target.id))).apply
          (postgres.after (sources.flatMap (sourceChanges platform target.id input.commandId))
            ((Change.insertCommand (input.row platform target.id)).apply db))) := by
    rw [mergeChanges, postgres.after_cons, postgres.after_append]
    rfl
  have hbefore : ∀ other, other ∉ sources.map IntentRow.id →
      (postgres.after (sources.flatMap (sourceChanges platform target.id input.commandId))
        ((Change.insertCommand (input.row platform target.id)).apply db)).intent? other = db.intent? other :=
    fun other hother => after_intent? fun change hchange hsets => hother ((sets_sourceChanges hchange).2 other hsets)
  have hcontributions : ∀ other, (postgres.after (sources.flatMap (sourceChanges platform target.id input.commandId))
        ((Change.insertCommand (input.row platform target.id)).apply db)).contributionsOf other =
          db.contributionsOf other := fun other => after_contributionsOf fun change hchange h => by
    rw [(sets_sourceChanges hchange).1] at h
    cases h
  rw [hlast]
  by_cases hid : id = target.id
  · subst hid
    refine .changed List.mem_cons_self hjoins.found hjoins.live ?_ (setIntent_same _ rfl ?_) rfl rfl
      (.inl ⟨decide_eq_false hnot, ?_, rfl⟩)
      (.inr ⟨contributionRow platform target.id (mergedContribution input call.randomUUID) input.commandId
        (db.nextSequence target.id), ?_, rfl⟩)
    · intro version hversion
      rw [Command.expected, if_pos rfl, Option.some.injEq] at hversion
      exact hjoins.version.trans hversion
    · exact (hbefore target.id (hsources ▸ hnot)).trans hjoins.found
    · intro hmerged
      have hlive := hjoins.live
      rw [show target.state = .merged from hmerged] at hlive
      cases hlive
    · rw [← hcontributions target.id]
      have hadded := insertContribution_same
        (postgres.after (sources.flatMap (sourceChanges platform target.id input.commandId))
          ((Change.insertCommand (input.row platform target.id)).apply db))
        (contributionRow platform target.id (mergedContribution input call.randomUUID) input.commandId
          (db.nextSequence target.id))
      rw [show (contributionRow platform target.id (mergedContribution input call.randomUUID) input.commandId
        (db.nextSequence target.id)).intentId = target.id from hcanonical] at hadded
      exact hadded
  · have hset : ∀ database : Db, ((Change.setIntent target.bumped).apply database).intent? id = database.intent? id :=
      fun database => Change.apply_intent? fun hsets => hid (Option.some.inj hsets).symm
    have hkept : ∀ database : Db, ((Change.insertContribution (contributionRow platform target.id
        (mergedContribution input call.randomUUID) input.commandId (db.nextSequence target.id))).apply
          database).contributionsOf id = database.contributionsOf id := by
      intro database
      refine Change.apply_contributionsOf fun hcontributes => hid ?_
      exact (Option.some.inj hcontributes).symm.trans hcanonical
    by_cases hsource : id ∈ sources.map IntentRow.id
    · obtain ⟨row, hrow, rfl⟩ := List.mem_map.mp hsource
      obtain ⟨version, hlookup, hrowJoins⟩ := hjoin row hrow
      refine .changed (List.mem_cons_of_mem _ (hsources ▸ hsource)) hrowJoins.found hrowJoins.live ?_
        ((hset _).trans (after_sourceChanges (hsources ▸ hdistinct) hrow hrowJoins.found)) rfl rfl
        (.inr ⟨decide_eq_true (hsources ▸ hsource), rfl, target, rfl, hjoins.found, hjoins.live,
          hjoins.owner.trans hrowJoins.owner.symm, rfl, decide_eq_false hnot⟩)
        (.inl ((hkept _).trans (hcontributions _)))
      intro other hother
      rw [Command.expected, if_neg hid, hlookup, Option.some.injEq] at hother
      exact hrowJoins.version.trans hother
    · refine .other ?_ ((hset _).trans (hbefore id hsource)) ((hkept _).trans (hcontributions id))
      intro hmem
      rcases List.mem_cons.mp hmem with hsame | hmem
      · exact hid hsame
      · exact hsource (hsources ▸ hmem)

theorem Commits.moves (h : Commits platform call db answer changes) (id : String) :
    Moves platform call.command db (postgres.after changes db) id := by
  cases h with
  | created hcommand hnew hfresh hkey => exact moves_created hcommand hnew rfl rfl
  | appended hcommand hlive hfresh hkey => exact moves_appended hcommand hlive rfl rfl
  | set hsets hexpected heffective => exact moves_set hsets hexpected
  | merged hcommand htarget hcanonical hsources hvalid hjoins hjoin hfresh hcontribution hkey hdetail =>
    exact moves_merged hcommand htarget hcanonical hsources hvalid.nodup hjoins hjoin

theorem Commits.effective (h : Commits platform call db answer changes) : answer.effective = true := by
  cases h with
  | created => rfl
  | appended => rfl
  | set hsets hexpected heffective => exact heffective
  | merged => rfl

end Steps

/-! ## All commands -/

/-- What holds after any commands that have been carried out one after another. -/
structure Tracked (platform : IntentPlatform) (db : Db) (journal : List (Call × Except IntentError Answer)) :
    Prop where
  versions : ∀ id, ((db.intent? id).map IntentRow.version).getD 0 = (changesOf platform journal id).length
  expected : ∀ id i (command : Command), (changesOf platform journal id)[i]? = some command →
    ∀ version, command.expected platform id = some version → version = i
  sequences : ∀ id, (db.contributionsOf id).map ContributionRow.sequence =
    List.range' 1 (db.contributionsOf id).length
  liveCount : ∀ id, (∀ row, db.intent? id = some row → row.state.live = true) →
    (changesOf platform journal id).countP (fun command => command.absorbs id) = 0
  mergedOnce : ∀ id, (changesOf platform journal id).countP (fun command => command.absorbs id) ≤ 1
  liveParent : ∀ id row, db.intent? id = some row → row.state.live = true → row.mergedIntoId = none
  acyclic : Acyclic db.parent
  owners : ∀ id row targetId, db.intent? id = some row → row.mergedIntoId = some targetId →
    ∃ target, db.intent? targetId = some target ∧ target.ownerSubjectId = row.ownerSubjectId

section Tracking
variable {platform : IntentPlatform} {call : Call} {db next : Db}
  {journal : List (Call × Except IntentError Answer)}

theorem tracked_empty : Tracked platform Db.empty [] where
  versions _ := rfl
  expected _ _ _ h := by cases h
  sequences _ := rfl
  liveCount _ _ := rfl
  mergedOnce _ := Nat.zero_le 1
  liveParent _ _ h := by cases h
  acyclic := acyclic_empty fun _ => rfl
  owners _ _ _ h := by cases h

variable {answer : Answer} {outcome : Except IntentError Answer} {command : Command} {id : String}

theorem changesOf_done (heffective : answer.effective = true) (id : String) :
    changesOf platform (journal ++ [(call, .ok answer)]) id = changesOf platform journal id ++
      if id ∈ call.command.names platform then [call.command] else [] := by
  rw [changesOf, List.filterMap_append]
  refine congrArg (_ ++ ·) ?_
  by_cases hnames : id ∈ call.command.names platform
  · rw [if_pos hnames]
    exact List.filterMap_cons_some (by rw [changed?]; exact if_pos ⟨heffective, hnames⟩)
  · rw [if_neg hnames]
    exact List.filterMap_cons_none (by rw [changed?]; exact if_neg fun h => hnames h.2)

theorem changesOf_same (h : ∀ answer, outcome = .ok answer → answer.effective = false) (id : String) :
    changesOf platform (journal ++ [(call, outcome)]) id = changesOf platform journal id := by
  rw [changesOf, List.filterMap_append, List.filterMap_cons_none, List.filterMap_nil, List.append_nil]
  · rfl
  · cases outcome with
    | error error => rfl
    | ok answer =>
      rw [changed?]
      exact if_neg fun heffective => by rw [h answer rfl] at heffective; cases heffective.1

theorem foldl_max_range' (n start bound : ℕ) (h : bound ≤ start) :
    (List.range' start n).foldl max bound = if n = 0 then bound else start + n - 1 := by
  induction n generalizing start bound with
  | zero => rfl
  | succ n ih =>
    rw [List.range'_succ, List.foldl_cons, Nat.max_eq_right h, ih _ _ (Nat.le_succ start), if_neg (Nat.succ_ne_zero n)]
    split_ifs <;> omega

theorem Tracked.nextSequence (h : Tracked platform db journal) (id : String) :
    db.nextSequence id = (db.contributionsOf id).length + 1 := by
  rw [Db.nextSequence, h.sequences, foldl_max_range' _ _ _ (Nat.zero_le 1)]
  split_ifs <;> omega

theorem absorbs_names (h : command.absorbs id = true) :
    id ∈ command.names platform ∧ ∃ targetId, command.mergeTarget = some targetId := by
  cases command with
  | merge targetId input => exact ⟨List.mem_cons_of_mem _ (of_decide_eq_true h), targetId, rfl⟩
  | create input => cases h
  | append intentId input => cases h
  | update intentId input => cases h
  | archiveOrRestore intentId input restore => cases h
  | tombstone intentId input => cases h

theorem Moves.contributions (h : Moves platform command db next id) : ContributionsGrow db next id := by
  cases h with
  | other hnames hintent hcontributions => exact .inl hcontributions
  | created hnames hnew hrow hversion hstate htarget hexpected habsorbs hcontributions => exact hcontributions
  | changed hnames hold hlive hexpected hrow hversion howner hmerge hcontributions => exact hcontributions

theorem Moves.owner (h : Moves platform command db next id) {row : IntentRow} (hrow : db.intent? id = some row) :
    ∃ row', next.intent? id = some row' ∧ row'.ownerSubjectId = row.ownerSubjectId := by
  cases h with
  | other hnames hintent hcontributions => exact ⟨row, hintent.trans hrow, rfl⟩
  | created hnames hnew => rw [hnew] at hrow; cases hrow
  | changed hnames hold hlive hexpected hnext hversion howner hmerge hcontributions =>
    cases hold.symm.trans hrow
    exact ⟨_, hnext, howner⟩

theorem Moves.parent (h : Moves platform command db next id) :
    (command.absorbs id = false ∧ next.parent id = db.parent id ∨ command.absorbs id = true ∧
      ∃ target, command.mergeTarget = some target.id ∧ db.intent? target.id = some target ∧
        target.state.live = true ∧ next.parent id = some target.id ∧ command.absorbs target.id = false) := by
  cases h with
  | other hnames hintent hcontributions =>
    refine .inl ⟨?_, by rw [Db.parent, Db.parent, hintent]⟩
    exact Bool.eq_false_iff.mpr fun habsorbs => hnames (absorbs_names habsorbs).1
  | created hnames hnew hrow hversion hstate htarget hexpected habsorbs hcontributions =>
    exact .inl ⟨habsorbs, by rw [Db.parent, Db.parent, hnew, hrow]; exact htarget⟩
  | changed hnames hold hlive hexpected hrow hversion howner hmerge hcontributions =>
    have hid := (lookup_some hold).2
    rcases hmerge with hkept | habsorbed
    · refine .inl ⟨hid ▸ hkept.absorbs, ?_⟩
      rw [Db.parent, Db.parent, hold, hrow]
      exact hkept.target
    · obtain ⟨target, htarget, hfound, hstate, -, hparent, hnot⟩ := habsorbed.target
      exact .inr ⟨hid ▸ habsorbed.absorbs, target, htarget, hfound, hstate, by rw [Db.parent, hrow]; exact hparent, hnot⟩

section
variable (h : Tracked platform db journal)
include h

theorem Tracked.acyclic_step (hmoves : ∀ id, Moves platform command db next id) : Acyclic next.parent := by
  by_cases habsorbs : ∃ id, command.absorbs id = true
  · obtain ⟨id, hid⟩ := habsorbs
    rcases (hmoves id).parent with ⟨hfalse, -⟩ | ⟨-, target, htarget, hfound, hlive, -, hnot⟩
    · rw [hid] at hfalse
      cases hfalse
    · have hroot : db.parent target.id = none := by
        rw [Db.parent, hfound]
        exact h.liveParent target.id target hfound hlive
      refine h.acyclic.graft (fun id => command.absorbs id = true) hroot (by rw [hnot]; exact fun h => by cases h)
        (fun other hother => ?_) (fun other hother => ?_)
      · rcases (hmoves other).parent with ⟨hfalse, -⟩ | ⟨-, target', htarget', -, -, hparent, -⟩
        · rw [hother] at hfalse
          cases hfalse
        · rw [hparent, ← htarget', htarget]
      · rcases (hmoves other).parent with ⟨-, hsame⟩ | ⟨htrue, -⟩
        · exact hsame
        · exact absurd htrue hother
  · have hsame : next.parent = db.parent := by
      funext id
      rcases (hmoves id).parent with ⟨-, hsame⟩ | ⟨htrue, -⟩
      · exact hsame
      · exact absurd ⟨id, htrue⟩ habsorbs
    rw [hsame]
    exact h.acyclic

theorem Tracked.owners_step
    (hmoves : ∀ id, Moves platform command db next id) (id : String) (row : IntentRow) (targetId : String)
    (hrow : next.intent? id = some row) (htarget : row.mergedIntoId = some targetId) :
    ∃ target, next.intent? targetId = some target ∧ target.ownerSubjectId = row.ownerSubjectId := by
  have hkeep : ∀ target owner, db.intent? targetId = some target → target.ownerSubjectId = owner →
      ∃ target', next.intent? targetId = some target' ∧ target'.ownerSubjectId = owner := by
    intro target owner hfound howner
    obtain ⟨target', hnext, hsame⟩ := (hmoves targetId).owner hfound
    exact ⟨target', hnext, hsame.trans howner⟩
  cases hmoves id with
  | other hnames hintent hcontributions =>
    obtain ⟨target, hfound, howner⟩ := h.owners id row targetId (hintent.symm.trans hrow) htarget
    exact hkeep target _ hfound howner
  | created hnames hnew hnext hversion hstate hnone hexpected habsorbs hcontributions =>
    cases hnext.symm.trans hrow
    rw [hnone] at htarget
    cases htarget
  | changed hnames hold hlive hexpected hnext hversion howner hmerge hcontributions =>
    cases hnext.symm.trans hrow
    rcases hmerge with hkept | habsorbed
    · obtain ⟨target, hfound, hsame⟩ := h.owners id _ targetId hold (hkept.target.symm.trans htarget)
      exact hkeep target _ hfound (hsame.trans howner.symm)
    · obtain ⟨target, -, hfound, -, hsame, hparent, -⟩ := habsorbed.target
      cases hparent.symm.trans htarget
      exact hkeep target _ hfound (hsame.trans howner.symm)

theorem Tracked.sequences_step (hgrow : ContributionsGrow db next id) :
    (next.contributionsOf id).map ContributionRow.sequence = List.range' 1 (next.contributionsOf id).length := by
  rcases hgrow with hsame | ⟨row, hnext, hsequence⟩
  · rw [hsame]
    exact h.sequences id
  · rw [hnext, List.map_append, h.sequences id, List.length_append, List.length_singleton, List.range'_concat,
      List.map_singleton, hsequence, h.nextSequence, Nat.one_mul, Nat.add_comm 1]

theorem Tracked.step (heffective : answer.effective = true) (hmoves : ∀ id, Moves platform call.command db next id) :
    Tracked platform next (journal ++ [(call, .ok answer)]) where
  versions id := by
    have hversion := h.versions id
    rw [changesOf_done heffective]
    cases hmoves id with
    | other hnames hintent hcontributions => rw [if_neg hnames, List.append_nil, hintent, hversion]
    | created hnames hnew hrow hone =>
      rw [hnew] at hversion
      rw [if_pos hnames, hrow, List.length_append, ← hversion]
      exact hone
    | changed hnames hold hlive hexpected hrow hnext =>
      rw [hold] at hversion
      rw [if_pos hnames, hrow, List.length_append, ← hversion]
      exact hnext
  expected id i command hcommand version hexpects := by
    have hversion := h.versions id
    rw [changesOf_done heffective] at hcommand
    rcases Nat.lt_or_ge i (changesOf platform journal id).length with hlt | hge
    · rw [List.getElem?_append_left hlt] at hcommand
      exact h.expected id i command hcommand version hexpects
    · rw [List.getElem?_append_right hge] at hcommand
      cases hmoves id with
      | other hnames => rw [if_neg hnames] at hcommand; cases hcommand
      | created hnames hnew hrow hone hstate htarget hnone =>
        rw [if_pos hnames, List.getElem?_singleton] at hcommand
        split_ifs at hcommand
        cases hcommand
        rw [hnone] at hexpects
        cases hexpects
      | changed hnames hold hlive hexpected =>
        rw [if_pos hnames, List.getElem?_singleton] at hcommand
        split_ifs at hcommand with hzero
        cases hcommand
        rw [hold] at hversion
        have hrow := hexpected version hexpects
        have hlength : (changesOf platform journal id).length = version := hversion.symm.trans hrow
        omega
  sequences id := h.sequences_step (hmoves id).contributions
  liveCount id hlive := by
    rw [changesOf_done heffective, List.countP_append]
    cases hmoves id with
    | other hnames hintent hcontributions =>
      rw [if_neg hnames, List.countP_nil]
      exact h.liveCount id fun row hrow => hlive row (hintent.trans hrow)
    | created hnames hnew hrow hone hstate htarget hexpected habsorbs =>
      rw [if_pos hnames, List.countP_singleton, if_neg (by rw [habsorbs]; exact fun h => by cases h)]
      exact h.liveCount id fun row hold => by rw [hnew] at hold; cases hold
    | changed hnames hold hstate hexpected hrow hversion howner hmerge =>
      rcases hmerge with hkept | habsorbed
      · have habsorbs : call.command.absorbs id = false := (lookup_some hold).2 ▸ hkept.absorbs
        rw [if_pos hnames, List.countP_singleton, if_neg (by rw [habsorbs]; exact fun h => by cases h)]
        refine h.liveCount id fun row hfound => ?_
        cases hold.symm.trans hfound
        exact hstate
      · have hmerged := hlive _ hrow
        rw [habsorbed.merged] at hmerged
        cases hmerged
  mergedOnce id := by
    rw [changesOf_done heffective, List.countP_append]
    cases hmoves id with
    | other hnames hintent hcontributions =>
      rw [if_neg hnames, List.countP_nil]
      exact h.mergedOnce id
    | created hnames hnew =>
      have hzero := h.liveCount id fun row hold => by
        rw [hnew] at hold
        cases hold
      rw [hzero, if_pos hnames, Nat.zero_add]
      exact List.countP_le_length
    | changed hnames hold hstate =>
      have hzero := h.liveCount id fun row hfound => by
        cases hold.symm.trans hfound
        exact hstate
      rw [hzero, if_pos hnames, Nat.zero_add]
      exact List.countP_le_length
  liveParent id row hrow hlive := by
    cases hmoves id with
    | other hnames hintent => exact h.liveParent id row (hintent.symm.trans hrow) hlive
    | created hnames hnew hnext hone hstate htarget =>
      cases hnext.symm.trans hrow
      exact htarget
    | changed hnames hold hstate hexpected hnext hversion howner hmerge =>
      cases hnext.symm.trans hrow
      rcases hmerge with hkept | habsorbed
      · rw [hkept.target]
        exact h.liveParent id _ hold hstate
      · rw [habsorbed.merged] at hlive
        cases hlive
  acyclic := h.acyclic_step hmoves
  owners := h.owners_step hmoves

theorem Tracked.same (hsame : ∀ answer, outcome = .ok answer → answer.effective = false) :
    Tracked platform db (journal ++ [(call, outcome)]) := by
  have hchanges : changesOf platform (journal ++ [(call, outcome)]) = changesOf platform journal :=
    funext (changesOf_same hsame)
  constructor
  · rw [hchanges]; exact h.versions
  · rw [hchanges]; exact h.expected
  · exact h.sequences
  · rw [hchanges]; exact h.liveCount
  · rw [hchanges]; exact h.mergedOnce
  · exact h.liveParent
  · exact h.acyclic
  · exact h.owners

end

/-- What later states keep of an earlier one. -/
structure Later (platform : IntentPlatform) (before after : Db × List (Call × Except IntentError Answer)) : Prop where
  changes : ∀ id, changesOf platform before.2 id <+: changesOf platform after.2 id
  unchanged : ∀ id, changesOf platform after.2 id = changesOf platform before.2 id →
    after.1.intent? id = before.1.intent? id ∧ after.1.contributionsOf id = before.1.contributionsOf id
  frozen : ∀ id row, before.1.intent? id = some row → row.state.live = false →
    changesOf platform after.2 id = changesOf platform before.2 id

theorem Later.refl (state : Db × List (Call × Except IntentError Answer)) : Later platform state state :=
  ⟨fun _ => List.prefix_rfl, fun _ _ => ⟨rfl, rfl⟩, fun _ _ _ _ => rfl⟩

theorem Later.trans {one two three : Db × List (Call × Except IntentError Answer)} (h : Later platform one two)
    (hnext : Later platform two three) : Later platform one three where
  changes id := (h.changes id).trans (hnext.changes id)
  unchanged id hsame := by
    have hfirst : changesOf platform two.2 id = changesOf platform one.2 id :=
      (((hsame ▸ hnext.changes id).eq_of_length_le (h.changes id).length_le))
    have hsecond : changesOf platform three.2 id = changesOf platform two.2 id := hsame.trans hfirst.symm
    obtain ⟨hrow, hrows⟩ := h.unchanged id hfirst
    obtain ⟨hrow', hrows'⟩ := hnext.unchanged id hsecond
    exact ⟨hrow'.trans hrow, hrows'.trans hrows⟩
  frozen id row hrow hdead := by
    have hfirst := h.frozen id row hrow hdead
    have hstays : two.1.intent? id = some row := (h.unchanged id hfirst).1.trans hrow
    exact (hnext.frozen id row hstays hdead).trans hfirst

theorem later_done (heffective : answer.effective = true) (hmoves : ∀ id, Moves platform call.command db next id) :
    Later platform (db, journal) (next, journal ++ [(call, .ok answer)]) where
  changes id := by
    rw [changesOf_done heffective]
    exact List.prefix_append _ _
  unchanged id hsame := by
    rw [changesOf_done heffective] at hsame
    cases hmoves id with
    | other hnames hintent hcontributions => exact ⟨hintent, hcontributions⟩
    | created hnames => rw [if_pos hnames] at hsame; simp at hsame
    | changed hnames => rw [if_pos hnames] at hsame; simp at hsame
  frozen id row hrow hdead := by
    rw [changesOf_done heffective]
    cases hmoves id with
    | other hnames => rw [if_neg hnames, List.append_nil]
    | created hnames hnew => exact absurd hrow (by rw [hnew]; exact fun h => by cases h)
    | changed hnames hold hlive =>
      cases hold.symm.trans hrow
      rw [hdead] at hlive
      cases hlive

theorem later_same (hsame : ∀ answer, outcome = .ok answer → answer.effective = false) :
    Later platform (db, journal) (db, journal ++ [(call, outcome)]) := by
  have hchanges : ∀ id, changesOf platform (journal ++ [(call, outcome)]) id = changesOf platform journal id :=
    changesOf_same hsame
  refine ⟨fun id => ?_, fun _ _ => ⟨rfl, rfl⟩, fun id _ _ _ => hchanges id⟩
  show _ <+: changesOf platform (journal ++ [(call, outcome)]) id
  simp only [hchanges, List.prefix_rfl]

/-! ## Runs -/

variable {before after : Db × List (Call × Except IntentError Answer)}

theorem serial_step (hstep : SerialStep postgres (Ends platform) before after)
    (h : Tracked platform before.1 before.2) : Tracked platform after.1 after.2 ∧ Later platform before after := by
  cases hstep with
  | call hpost =>
    cases hpost with
    | refused error => exact ⟨h.same fun _ h => (by cases h), later_same fun _ h => (by cases h)⟩
    | repeated hrepeat =>
      rename_i answer
      have hsame : ∀ other : Answer, (.ok answer : Except IntentError Answer) = .ok other → other.effective = false :=
        fun other hother => by
          cases hother
          exact hrepeat
      exact ⟨h.same hsame, later_same hsame⟩
    | done hcommits => exact ⟨h.step hcommits.effective hcommits.moves, later_done hcommits.effective hcommits.moves⟩
  | ambient change hneeds => cases change <;> cases hneeds

theorem serial_run (hrun : Relation.ReflTransGen (SerialStep postgres (Ends platform)) before after)
    (h : Tracked platform before.1 before.2) : Tracked platform after.1 after.2 ∧ Later platform before after := by
  induction hrun with
  | refl => exact ⟨h, Later.refl _⟩
  | tail _ hstep ih =>
    obtain ⟨htracked, hlater⟩ := serial_step hstep ih.1
    exact ⟨htracked, ih.2.trans hlater⟩

/-- In every run of the store each intent has one history, which only its own changes continue. -/
theorem intent_history (platform : IntentPlatform) (actions more : List (Action Call)) (s s' : Store)
    (hrun : run (storeStep platform) Store.idle actions = some s) (hmore : run (storeStep platform) s more = some s') :
    HistoryKept platform s ∧ HistoryContinued platform s s' := by
  obtain ⟨hsound, hserial⟩ := (System.Sound.idle Db.empty).run (transaction_specified platform) hrun
  obtain ⟨-, hlater⟩ := hsound.run (transaction_specified platform) hmore
  obtain ⟨htracked, -⟩ := serial_run hserial tracked_empty
  obtain ⟨-, hcontinued⟩ := serial_run hlater htracked
  exact ⟨⟨htracked.versions, htracked.expected, htracked.sequences, htracked.mergedOnce, htracked.acyclic,
    htracked.owners⟩, ⟨hcontinued.changes, hcontinued.unchanged, hcontinued.frozen⟩⟩

end Tracking

/-- A platform for payloads that are all alike. -/
def plainPlatform : IntentPlatform where
  uuid := id
  uuid_uuid _ := rfl
  jsonb := id
  trim := id
  isDeepStrictEqual _ _ := true
  equivalence := ⟨fun _ => rfl, fun h => h, fun h _ => h⟩

def plainCreate (id title : String) : Command := .create ⟨id, title, "intent", "Conversation", none, none⟩

def plainAppend (intentId id : String) : Command := .append intentId ⟨id, .human, "message", some "text", .obj []⟩

def sends (client : ℕ) (command : Command) (randomUUID : String) (statements : ℕ) : List (Action Call) :=
  .begin client ⟨"alice", command, randomUUID, 0⟩ :: List.replicate statements (.advance client)

/-- A contribution is added to one of two intents before that is merged into the other one. -/
theorem intent_history_merged : ∃ s s', run (storeStep plainPlatform) Store.idle
        (sends 0 (plainCreate "a" "One") "c1" 2 ++ sends 1 (plainCreate "b" "Two") "c2" 2 ++
          [.commit 1, .commit 0] ++ sends 2 (plainAppend "a" "c3") "" 4 ++ [.commit 2]) = some s ∧
      run (storeStep plainPlatform) s
        (sends 3 (.merge "b" ⟨"b", 1, "m", [⟨"a", 2⟩]⟩) "c4" 10 ++ [.commit 3]) = some s' ∧
      s'.db.parent "a" = some "b" ∧ HistoryKept plainPlatform s ∧ HistoryContinued plainPlatform s s' := by
  have hparent : ((run (storeStep plainPlatform) Store.idle
      (sends 0 (plainCreate "a" "One") "c1" 2 ++ sends 1 (plainCreate "b" "Two") "c2" 2 ++
        [.commit 1, .commit 0] ++ sends 2 (plainAppend "a" "c3") "" 4 ++ [.commit 2])).bind fun s =>
      (run (storeStep plainPlatform) s
        (sends 3 (.merge "b" ⟨"b", 1, "m", [⟨"a", 2⟩]⟩) "c4" 10 ++ [.commit 3])).map fun s' => s'.db.parent "a") =
      some (some "b") := by decide +kernel
  obtain ⟨s, hrun, hrest⟩ := Option.bind_eq_some_iff.mp hparent
  obtain ⟨s', hmore, hmerged⟩ := Option.map_eq_some_iff.mp hrest
  obtain ⟨hkept, hcontinued⟩ := intent_history plainPlatform _ _ s s' hrun hmore
  exact ⟨s, s', hrun, hmore, hmerged, hkept, hcontinued⟩

end AvenOS.IntentService
