import AvenOS.IntentService.Commands
import Mathlib.Data.List.Perm.Subperm

/-! # What commands do

What each command finds at its commit and which changes it makes, whatever has happened between its
statements, and what it answers where the id of its request is taken. -/
namespace AvenOS.IntentService
open Actors (JsValue)
open KeyedTable StableSort Transactions

/-! ## Effects -/

/-- Whether an answer comes with changes. -/
def Answer.effective : Answer → Bool
  | .existing _ => false
  | .repeated _ => false
  | .mergedBefore _ => false
  | _ => true

inductive Sets (platform : IntentPlatform) : Command → String → ℕ → IntentRow → IntentRow → Prop
  | update {intentId : String} {input : UpdateIntent} {row : IntentRow} (hlive : row.state.live = true) :
      Sets platform (.update intentId input) intentId input.expectedVersion row (row.updated platform input)
  | archive {intentId : String} {input : VersionCommand} {row : IntentRow} {before : ActiveIntentState}
      (hactive : row.state = .active before) :
      Sets platform (.archiveOrRestore intentId input false) intentId input.expectedVersion row
        (row.archived before)
  | restore {intentId : String} {input : VersionCommand} {row : IntentRow} (harchive : row.state = .archive) :
      Sets platform (.archiveOrRestore intentId input true) intentId input.expectedVersion row row.restored
  | tombstone {intentId : String} {input : VersionCommand} {row : IntentRow} (hlive : row.state.live = true) :
      Sets platform (.tombstone intentId input) intentId input.expectedVersion row row.tombstoned

/-- A locked row of a merge, as the merge expects it. -/
structure Joins (db : Db) (subjectId : String) (row : IntentRow) (version : ℕ) : Prop where
  found : db.intent? row.id = some row
  owner : row.ownerSubjectId = subjectId
  live : row.state.live = true
  version : row.version = version

def sourceChanges (platform : IntentPlatform) (targetId commandId : String) (row : IntentRow) : List Change :=
  [.insertRelation ⟨targetId, row.id, platform.uuid commandId⟩, .setIntent (row.mergedInto targetId)]

def mergeChanges (platform : IntentPlatform) (input : MergeCommand) (randomUUID : String) (sequence : ℕ)
    (target : IntentRow) (sources : List IntentRow) : List Change :=
  .insertCommand (input.row platform target.id) ::
    (sources.flatMap (sourceChanges platform target.id input.commandId) ++
    [.insertContribution
      (contributionRow platform target.id (mergedContribution input randomUUID) input.commandId sequence),
      .setIntent target.bumped])

def MergeCommand.Valid (input : MergeCommand) (targetId : String) : Prop :=
  ¬(input.id ≠ targetId ∨ targetId ∈ input.sources.map VersionCommand.id) ∧
    (input.sources.map VersionCommand.id).Nodup

inductive Commits (platform : IntentPlatform) (call : Call) (db : Db) : Answer → List Change → Prop
  | created {input : CreateIntent} (hcommand : call.command = .create input)
      (hnew : db.intent? (platform.uuid input.id) = none)
      (hfresh : db.contribution? (platform.uuid call.randomUUID) = none)
      (hkey : ¬(db.contributionsOf (platform.uuid input.id)).any (·.idempotencyKey = "create:" ++ input.id)) :
      Commits platform call db (.created (platform.uuid input.id))
        [.insertIntent (input.row platform call.subjectId),
          .insertContribution (contributionRow platform input.id (createdContribution call.randomUUID)
            ("create:" ++ input.id) (db.nextSequence (platform.uuid input.id)))]
  | appended {intentId : String} {input : ContributionInput} {row : IntentRow}
      (hcommand : call.command = .append intentId input)
      (hlive : db.live? call.subjectId (platform.uuid intentId) = some row)
      (hfresh : db.contribution? (platform.uuid input.id) = none)
      (hkey : ¬(db.contributionsOf (platform.uuid intentId)).any (·.idempotencyKey = input.id)) :
      Commits platform call db
        (.appended (contributionRow platform intentId input.contribution input.id
          (db.nextSequence (platform.uuid intentId))))
        [.insertContribution (contributionRow platform intentId input.contribution input.id
            (db.nextSequence (platform.uuid intentId))),
          .setIntent row.bumped]
  | set {intentId : String} {version : ℕ} {row row' : IntentRow} {answer : Answer}
      (hsets : Sets platform call.command intentId version row row')
      (hexpected : db.expected? platform call.subjectId intentId version = some row)
      (heffective : answer.effective = true) :
      Commits platform call db answer [.setIntent row']
  | merged {targetId : String} {input : MergeCommand} {target : IntentRow} {sources : List IntentRow}
      {detail : IntentDetail} (hcommand : call.command = .merge targetId input) (htarget : target.id = targetId)
      (hcanonical : platform.uuid targetId = targetId) (hsources : sources.map IntentRow.id = input.sourceIds)
      (hvalid : input.Valid targetId)
      (hjoins : Joins db call.subjectId target input.expectedVersion)
      (hjoin : ∀ row ∈ sources, ∃ version, input.sourceVersions.lookup row.id = some version ∧
        Joins db call.subjectId row version)
      (hfresh : db.command? (platform.uuid input.commandId) = none)
      (hcontribution : db.contribution? (platform.uuid call.randomUUID) = none)
      (hkey : ¬(db.contributionsOf targetId).any (·.idempotencyKey = input.commandId))
      (hdetail : detail.intent.id = targetId) :
      Commits platform call db (.merged detail)
        (mergeChanges platform input call.randomUUID (db.nextSequence targetId) target sources)

inductive Ends (platform : IntentPlatform) (call : Call) (db : Db) : Except IntentError Answer → Db → Prop
  | refused (error : IntentError) : Ends platform call db (.error error) db
  | repeated {answer : Answer} (hrepeat : answer.effective = false) : Ends platform call db (.ok answer) db
  | done {answer : Answer} {changes : List Change} (hcommits : Commits platform call db answer changes) :
      Ends platform call db (.ok answer) (postgres.after changes db)

/-! ## Answers where the id is taken -/

def Db.fits (db : Db) (subjectId targetId : String) (input : MergeCommand) : Bool :=
  (db.live? subjectId targetId).any (fun row => row.version = input.expectedVersion) &&
    input.sourceIds.all fun id => (db.live? subjectId id).any fun row =>
      input.sourceVersions.lookup id = some row.version

def mergedBefore (platform : IntentPlatform) (subjectId targetId : String) (input : MergeCommand)
    (row : MergeCommandRow) (db : Db) : Except IntentError Answer :=
  if ¬row.Repeats targetId input then .error (.conflict "Merge command ID conflicts with another request.")
  else
    match db.detail? platform subjectId targetId with
    | some detail => .ok (.mergedBefore detail)
    | none => .error intentNotFound

/-- What a session answers a command whose id is taken, once it has looked: what its replay answers there, or what
it comes to because it had looked too early. -/
def Replays (platform : IntentPlatform) (call : Call) (db : Db) (held : List Lock) (changes : List Change)
    (outcome : Except IntentError Answer) : Prop :=
  match call.command with
  | .create input => (db.intent? (platform.uuid input.id)).isSome →
    changes = [] ∧ outcome = createdBefore platform call.subjectId input db
  | .append intentId input => (db.contribution? (platform.uuid input.id)).isSome →
    .missedContribution (platform.uuid input.id) ∈ held ∨
      changes = [] ∧ (db.live? call.subjectId (platform.uuid intentId) = none ∨
        ∃ row ∈ db.sameContributions platform intentId input.id,
          outcome = repeatedContribution platform intentId input row)
  | .merge targetId input => ∀ row, db.command? (platform.uuid input.commandId) = some row →
    .missedCommand (platform.uuid input.commandId) ∈ held ∧
        ((∃ message, outcome = .error (.conflict message)) ∨ db.fits call.subjectId targetId input = true) ∨
      changes = [] ∧ ((∃ message, outcome = .error (.conflict message)) ∧ ¬input.Valid targetId ∨
        input.Valid targetId ∧ outcome = mergedBefore platform call.subjectId targetId input row db)
  | _ => True

/-! ## Creates -/

section Bodies
variable {platform : IntentPlatform} {call : Call}

variable {held : List Lock} {made : List Change} {fact : Db → Prop} {db : Db}
    {intentId subjectId targetId : String} {answer : Answer} {row : IntentRow} {version : ℕ}
    {ids : List String} {input : MergeCommand} {sources : List IntentRow}

theorem refuses {error : IntentError} :
    Follows postgres (Ends platform call) (Replays platform call) (.fail error) held made fact :=
  ⟨fun _ _ => .refused error, trivial⟩

theorem nextSequence_of {other : Db} {id : String} (h : other.contributionsOf id = db.contributionsOf id) :
    other.nextSequence id = db.nextSequence id := by
  rw [Db.nextSequence, Db.nextSequence, h]

theorem after_contribution? {changes : List Change} {id : String} (h : ∀ change ∈ changes, change.contributes = none) :
    (postgres.after changes db).contribution? id = db.contribution? id := by
  induction changes generalizing db with
  | nil => rfl
  | cons change changes ih =>
    rw [postgres.after_cons, ih fun other hother => h other (List.mem_cons_of_mem _ hother)]
    have hnone := h change List.mem_cons_self
    refine Change.apply_contribution? fun hneeds => ?_
    cases change with
    | insertContribution row => cases hnone
    | insertIntent row => cases List.mem_singleton.mp hneeds
    | setIntent row => cases List.mem_singleton.mp hneeds
    | insertCommand row => cases List.mem_singleton.mp hneeds
    | insertRelation row => cases List.mem_singleton.mp hneeds

theorem follows_insertContribution {input : Contribution} {key : String}
    {f : ContributionRow → Transaction Answer}
    (hintent : .intent (platform.uuid intentId) ∈ held) (hmade : ∀ change ∈ made, change.contributes = none)
    (hstable : postgres.Stable held fact)
    (hreplays : ∀ db, fact db → ∀ changes outcome, Replays platform call db held changes outcome)
    (hrest : ∀ sequence (next : Db → Prop), postgres.Stable (held ++ [.contribution (platform.uuid input.id)]) next →
      (∀ db, next db → fact db ∧ db.contribution? (platform.uuid input.id) = none ∧
        ¬(db.contributionsOf (platform.uuid intentId)).any (·.idempotencyKey = key) ∧
        db.nextSequence (platform.uuid intentId) = sequence) →
      Follows postgres (Ends platform call) (Replays platform call)
        (f (contributionRow platform intentId input key sequence)) (held ++ [.contribution (platform.uuid input.id)])
        (made ++ [.insertContribution (contributionRow platform intentId input key sequence)]) next) :
    Follows postgres (Ends platform call) (Replays platform call)
      (insertContribution platform intentId input key >>= f) held made fact := by
  refine Follows.query fun db hdb => ?_
  have hcontributions : (postgres.after made db).contributionsOf (platform.uuid intentId) =
      db.contributionsOf (platform.uuid intentId) :=
    after_contributionsOf fun change hchange h => by rw [hmade change hchange] at h; cases h
  have hid : (postgres.after made db).contribution? (platform.uuid input.id) =
      db.contribution? (platform.uuid input.id) := after_contribution? hmade
  rw [nextSequence_of hcontributions, hcontributions, hid]
  split_ifs with hviolated
  · exact .inl ⟨.database, rfl, .refused .database, hreplays db hdb _ _⟩
  · obtain ⟨hfresh, hkey⟩ := not_or.mp hviolated
    have hnone : db.contribution? (platform.uuid input.id) = none := Option.not_isSome_iff_eq_none.mp hfresh
    have hkeyless := (not_or.mp hkey).1
    have hnext : postgres.Stable (held ++ [.contribution (platform.uuid input.id)]) fun db' => fact db' ∧
        db'.contribution? (platform.uuid input.id) = none ∧
        db'.contributionsOf (platform.uuid intentId) = db.contributionsOf (platform.uuid intentId) :=
      (hstable.mono (List.subset_append_left _ _)).and
        ((stable_contribution (List.mem_append_right _ (List.mem_singleton.mpr rfl)) none).and
          (stable_contributionsOf (List.mem_append_left _ hintent) _))
    refine .inr ⟨_, rfl, ?_, fun outcome _ => hreplays db hdb _ outcome, _, ⟨hdb, hnone, rfl⟩, hnext,
      hrest _ _ hnext ?_⟩
    · intro change hchange l hl
      obtain rfl := List.mem_singleton.mp hchange
      rcases List.mem_cons.mp hl with rfl | hl
      · exact List.mem_append_right _ (List.mem_singleton.mpr rfl)
      · obtain rfl := List.mem_singleton.mp hl
        exact List.mem_append_left _ hintent
    · rintro db' ⟨hdb', hnone', hsame⟩
      exact ⟨hdb', hnone', by rw [hsame]; exact hkeyless, nextSequence_of hsame⟩

theorem createdBefore_ends {input : CreateIntent}
    (h : createdBefore platform call.subjectId input db = .ok answer) : answer.effective = false := by
  rw [createdBefore] at h
  split at h
  · split_ifs at h
    cases h
    rfl
  · cases h

theorem follows_create {input : CreateIntent} (hcommand : call.command = .create input) :
    Follows postgres (Ends platform call) (Replays platform call)
      (create platform call.subjectId input call.randomUUID) [] [] fun _ => True := by
  have hreplays : ∀ {db held changes outcome}, Replays platform call db held changes outcome ↔
      ((db.intent? (platform.uuid input.id)).isSome →
        changes = [] ∧ outcome = createdBefore platform call.subjectId input db) := by
    intro db held changes outcome
    rw [Replays, hcommand]
  refine Follows.query fun db _ => .inr ?_
  have hid : (input.row platform call.subjectId).id = platform.uuid input.id := rfl
  cases hfound : (postgres.after [] db).intent? (platform.uuid input.id) with
  | some row =>
    simp only [hid, hfound, Option.isSome_some, Option.isNone_some, if_true]
    refine ⟨false, rfl, fun _ h => absurd h List.not_mem_nil, fun _ h => (by cases h), fun _ => True, trivial,
      Engine.Stable.trivial _, Follows.reading fun db' _ => ?_⟩
    show (∃ error, (Body.ofExcept (createdBefore platform call.subjectId input db') >>= Body.done) = _ ∧ _) ∨ _
    cases hanswer : createdBefore platform call.subjectId input db' with
    | error error => exact .inl ⟨error, rfl, .refused error, hreplays.mpr fun _ => ⟨rfl, hanswer.symm⟩⟩
    | ok answer =>
      refine .inr ⟨answer, hanswer, fun outcome houtcome => hreplays.mpr fun _ => ⟨rfl, ?_⟩, fun _ => True, trivial,
        Engine.Stable.trivial _, Follows.done fun _ _ => .repeated (createdBefore_ends hanswer)⟩
      cases houtcome
      exact hanswer.symm
  | none =>
    simp only [hid, hfound, Option.isSome_none, Option.isNone_none, Bool.false_eq_true, if_false]
    refine ⟨true, rfl, ?_, fun _ h => (by cases h), fun db => db.intent? (platform.uuid input.id) = none, hfound,
      stable_intent (List.mem_singleton.mpr rfl) none, ?_⟩
    · intro change hchange
      obtain rfl := List.mem_singleton.mp hchange
      exact fun l hl => hl
    · refine follows_insertContribution (List.mem_singleton.mpr rfl) ?_
        (stable_intent (List.mem_singleton.mpr rfl) none) ?_ fun sequence next _ hnext => Follows.done ?_
      · intro change hchange
        obtain rfl := List.mem_singleton.mp hchange
        rfl
      · exact fun db' hnone changes outcome => hreplays.mpr fun h => by rw [hnone] at h; cases h
      · intro db' hdb'
        obtain ⟨hnone, hfresh, hkey, rfl⟩ := hnext db' hdb'
        exact .done (.created hcommand hnone hfresh hkey)

/-! ## Appends -/

theorem live?_eq {id : String} (h : db.live? subjectId id = some row) :
    db.intent? id = some row ∧ row.ownerSubjectId = subjectId ∧ row.state.live = true ∧ row.id = id := by
  obtain ⟨howned, hlive⟩ := Option.filter_eq_some_iff.mp h
  obtain ⟨hfound, howner⟩ := Option.filter_eq_some_iff.mp howned
  exact ⟨hfound, of_decide_eq_true howner, hlive, (lookup_some hfound).2⟩

theorem live?_of {id : String} (hfound : db.intent? id = some row)
    (howner : row.ownerSubjectId = subjectId) (hlive : row.state.live = true) :
    db.live? subjectId id = some row :=
  Option.filter_eq_some_iff.mpr ⟨Option.filter_eq_some_iff.mpr ⟨hfound, decide_eq_true howner⟩, hlive⟩

theorem sameContribution?_mem {id : String} {limit : ℕ} {row : ContributionRow}
    (h : db.sameContribution? platform intentId id limit = some row) :
    row ∈ db.sameContributions platform intentId id := by
  rcases Option.or_eq_some_iff.mp h with hpicked | ⟨-, hhead⟩
  · exact List.mem_of_getElem? hpicked
  · exact List.mem_of_mem_head? hhead

theorem repeatedContribution_ends {input : ContributionInput} {row : ContributionRow} (h : repeatedContribution platform intentId input row = .ok answer) :
    answer.effective = false := by
  rw [repeatedContribution] at h
  split_ifs at h
  cases h
  rfl

theorem follows_bumpVersion (hlock : .intent row.id ∈ held)
    (hid : row.id = platform.uuid intentId) (hmade : ∀ change ∈ made, change.sets ≠ some row.id)
    (hstable : postgres.Stable held fact) (hfound : ∀ db, fact db → db.intent? row.id = some row)
    (hreplays : ∀ db, fact db → ∀ changes outcome, Replays platform call db held changes outcome)
    {f : Transaction Answer}
    (hrest : Follows postgres (Ends platform call) (Replays platform call) f (held ++ [.intent row.id])
      (made ++ [.setIntent row.bumped]) fact) : Follows postgres (Ends platform call) (Replays platform call)
      (bumpVersion platform intentId >>= fun _ => f) held made fact := by
  refine Follows.query fun db hdb => .inr ?_
  have hview : (postgres.after made db).intent? (platform.uuid intentId) = some row := by
    rw [← hid, after_intent? hmade]
    exact hfound db hdb
  simp only [hview]
  refine ⟨true, rfl, ?_, fun outcome _ => hreplays db hdb _ outcome, fact, hdb,
    hstable.mono (List.subset_append_left _ _), hrest⟩
  intro change hchange l hl
  obtain rfl := List.mem_singleton.mp hchange
  obtain rfl := List.mem_singleton.mp hl
  exact List.mem_append_left _ hlock

theorem follows_append {input : ContributionInput} (hcommand : call.command = .append intentId input) :
    Follows postgres (Ends platform call) (Replays platform call)
      (append platform call.subjectId intentId input call.limit) [] [] fun _ => True := by
  have hreplays : ∀ {db held changes outcome}, Replays platform call db held changes outcome ↔
      ((db.contribution? (platform.uuid input.id)).isSome → .missedContribution (platform.uuid input.id) ∈ held ∨
          changes = [] ∧ (db.live? call.subjectId (platform.uuid intentId) = none ∨
            ∃ row ∈ db.sameContributions platform intentId input.id,
              outcome = repeatedContribution platform intentId input row)) := by
    intro db held changes outcome
    rw [Replays, hcommand]
  refine Follows.query fun db _ => ?_
  show (∃ error, (Body.ofExcept (if (db.live? call.subjectId (platform.uuid intentId)).isSome then _ else _) >>=
    _) = _ ∧ _) ∨ ∃ b, (if (db.live? call.subjectId (platform.uuid intentId)).isSome then _ else _) = _ ∧ _ ∧ _ ∧
      ∃ next : Db → Prop, next db ∧ postgres.Stable
        ([] ++ ((db.live? call.subjectId (platform.uuid intentId)).map fun row => Lock.intent row.id).toList) next ∧
        Follows _ _ _ _
          ([] ++ ((db.live? call.subjectId (platform.uuid intentId)).map fun row => Lock.intent row.id).toList) _ next
  cases hlive : db.live? call.subjectId (platform.uuid intentId) with
  | none =>
    exact .inl ⟨intentNotFound, rfl, .refused _, hreplays.mpr fun _ => .inr ⟨rfl, .inl hlive⟩⟩
  | some row =>
    obtain ⟨hfound, howner, hstate, hid⟩ := live?_eq hlive
    refine .inr ⟨(), rfl, fun _ h => absurd h List.not_mem_nil, fun _ h => (by cases h),
      fun db => db.intent? row.id = some row, hid ▸ hfound, stable_intent (List.mem_singleton.mpr rfl) _, ?_⟩
    refine Follows.query fun db' hrow => .inr ?_
    have hview : postgres.after [] db' = db' := rfl
    cases hsame : db'.sameContribution? platform intentId input.id call.limit with
    | some other =>
      simp only [List.append_nil, hview, hsame, Option.isSome_some, if_true]
      refine ⟨some other, rfl, fun _ h => absurd h List.not_mem_nil, fun outcome houtcome => ?_,
        fun db => db.intent? row.id = some row, hrow, stable_intent (List.mem_singleton.mpr rfl) _, ?_⟩
      · refine hreplays.mpr fun _ => .inr ⟨rfl, .inr ⟨other, sameContribution?_mem hsame, ?_⟩⟩
        rw [Body.outcome?_ofExcept] at houtcome
        exact (Option.some.inj houtcome).symm
      · exact Follows.ofExcept (fun answer hanswer _ _ => .repeated (repeatedContribution_ends hanswer))
          fun error _ _ _ => .refused error
    | none =>
      simp only [List.append_nil, hview, hsame, Option.isSome_none, Bool.false_eq_true, if_false]
      have hmissed : ∀ {held db changes outcome}, .missedContribution (platform.uuid input.id) ∈ held →
          Replays platform call db held changes outcome := fun h => hreplays.mpr fun _ => .inl h
      have hlock : Lock.intent (platform.uuid intentId) ∈ ([.intent row.id,
          .missedContribution (platform.uuid input.id)] : List Lock) := by rw [hid]; exact List.mem_cons_self
      refine ⟨none, rfl, fun _ h => absurd h List.not_mem_nil, fun _ h => (by cases h),
        fun db => db.intent? row.id = some row, hrow, stable_intent (List.mem_cons_self) _, ?_⟩
      refine follows_insertContribution hlock (fun _ h => absurd h List.not_mem_nil)
        (stable_intent List.mem_cons_self _) (fun _ _ _ _ => hmissed (by simp)) fun sequence next hnextStable hnext => ?_
      refine follows_bumpVersion (by simp) hid ?_ hnextStable (fun db h => (hnext db h).1)
        (fun _ _ _ _ => hmissed (by simp)) ?_
      · intro change hchange
        obtain rfl := List.mem_singleton.mp hchange
        exact fun h => by cases h
      · refine Follows.done fun db' hdb' => ?_
        obtain ⟨hrow', hfresh, hkey, rfl⟩ := hnext db' hdb'
        exact .done (.appended hcommand (live?_of (hid ▸ hrow') howner hstate) hfresh hkey)

/-! ## Updates -/

theorem Sets.id {command : Command} {row' : IntentRow}
    (h : Sets platform command intentId version row row') : row'.id = row.id := by
  cases h <;> rfl

theorem expected?_eq (h : db.expected? platform subjectId intentId version = some row) :
    db.intent? (platform.uuid intentId) = some row ∧ row.ownerSubjectId = subjectId ∧ row.version = version ∧
      row.id = platform.uuid intentId := by
  obtain ⟨howned, hversion⟩ := Option.filter_eq_some_iff.mp h
  obtain ⟨hfound, howner⟩ := Option.filter_eq_some_iff.mp howned
  exact ⟨hfound, of_decide_eq_true howner, of_decide_eq_true hversion, (lookup_some hfound).2⟩

theorem expected?_of (hfound : db.intent? (platform.uuid intentId) = some row) (howner : row.ownerSubjectId = subjectId)
    (hversion : row.version = version) : db.expected? platform subjectId intentId version = some row :=
  Option.filter_eq_some_iff.mpr ⟨Option.filter_eq_some_iff.mpr ⟨hfound, decide_eq_true howner⟩, decide_eq_true hversion⟩

theorem follows_set {test : IntentRow → Bool} {updated : IntentRow → IntentRow}
    (hsets : ∀ row, test row = true → Sets platform call.command intentId version row (updated row))
    (heffective : answer.effective = true)
    (hreplays : ∀ db held changes outcome, Replays platform call db held changes outcome) :
    Follows postgres (Ends platform call) (Replays platform call)
      (updateIntent (fun db => (db.expected? platform call.subjectId intentId version).filter test) updated >>=
        oneRow answer) [] [] fun _ => True := by
  refine Follows.query fun db _ => .inr ?_
  have hview : postgres.after [] db = db := rfl
  cases hfound : (db.expected? platform call.subjectId intentId version).filter test with
  | none =>
    simp only [hview, hfound]
    exact ⟨false, rfl, fun _ h => absurd h List.not_mem_nil, fun outcome _ => hreplays db _ _ outcome,
      fun _ => True, trivial, Engine.Stable.trivial _, refuses⟩
  | some row =>
    obtain ⟨hexpected, htest⟩ := Option.filter_eq_some_iff.mp hfound
    obtain ⟨hrow, howner, hversion, hid⟩ := expected?_eq hexpected
    have hset := hsets row htest
    simp only [hview, hfound]
    refine ⟨true, rfl, ?_, fun outcome _ => hreplays db _ _ outcome,
      fun db => db.intent? (platform.uuid intentId) = some row, hrow,
      stable_intent (hid ▸ List.mem_singleton.mpr rfl) _, Follows.done fun db' hrow' => ?_⟩
    · intro change hchange l hl
      obtain rfl := List.mem_singleton.mp hchange
      rw [List.mem_singleton.mp hl, hset.id]
      exact List.mem_singleton.mpr rfl
    · exact .done (.set hset (expected?_of hrow' howner hversion) heffective)

theorem follows_update {input : UpdateIntent} (hcommand : call.command = .update intentId input) :
    Follows postgres (Ends platform call) (Replays platform call)
      (update platform call.subjectId intentId input) [] [] fun _ => True :=
  follows_set (fun row hlive => by rw [hcommand]; exact .update hlive) rfl
    fun db held changes outcome => by rw [Replays, hcommand]; trivial

theorem activeState?_eq (h : row.activeState?.isSome = true) :
    row.state = .active (row.activeState?.getD .working) := by
  unfold IntentRow.activeState? at h ⊢
  cases hstate : row.state with
  | active state => rfl
  | archive => rw [hstate] at h; cases h
  | merged => rw [hstate] at h; cases h
  | deleted => rw [hstate] at h; cases h

theorem follows_archiveOrRestore {input : VersionCommand} {restore : Bool}
    (hcommand : call.command = .archiveOrRestore intentId input restore) :
    Follows postgres (Ends platform call) (Replays platform call)
      (archiveOrRestore platform call.subjectId intentId input restore) [] [] fun _ => True := by
  have hreplays : ∀ db held changes outcome, Replays platform call db held changes outcome := by
    intro db held changes outcome
    rw [Replays, hcommand]
    trivial
  rw [archiveOrRestore]
  split_ifs with hid hrestore
  · exact refuses
  · subst hrestore
    exact follows_set (fun row harchive => by rw [hcommand]; exact .restore (of_decide_eq_true harchive)) rfl hreplays
  · obtain rfl : restore = false := Bool.eq_false_iff.mpr hrestore
    exact follows_set (fun row hactive => by rw [hcommand]; exact .archive (activeState?_eq hactive)) rfl hreplays

theorem follows_tombstone {input : VersionCommand} (hcommand : call.command = .tombstone intentId input) :
    Follows postgres (Ends platform call) (Replays platform call)
      (tombstone platform call.subjectId intentId input) [] [] fun _ => True := by
  rw [tombstone]
  split_ifs with hid
  · exact refuses
  · exact follows_set (fun row hlive => by rw [hcommand]; exact .tombstone hlive) rfl
      fun db held changes outcome => by rw [Replays, hcommand]; trivial

/-! ## Merges -/

variable {f : List IntentRow → Transaction Answer} {commandId : String}

theorem lockIntents_outcome? {outcome : Except IntentError Answer}
    (h : (lockIntents subjectId ids >>= f).outcome? = some outcome) : ∃ rows, (f rows).outcome? = some outcome := by
  cases ids with
  | nil => exact ⟨[], h⟩
  | cons id ids => cases h

theorem follows_lockIntents (hstable : postgres.Stable held fact)
    (hsettles : ∀ rows outcome, (f rows).outcome? = some outcome → ∃ message, outcome = .error (.conflict message))
    (hreplays : ∀ db held' changes message, held ⊆ held' →
      Replays platform call db held' changes (.error (.conflict message)))
    (hrest : ∀ (rows : List IntentRow) (held' : List Lock) (next : Db → Prop), held ⊆ held' →
      (rows.map IntentRow.id).Sublist ids →
      (∀ row ∈ rows, row.ownerSubjectId = call.subjectId ∧ .intent row.id ∈ held') →
      postgres.Stable held' next → (∀ db, next db → fact db ∧ ∀ row ∈ rows, db.intent? row.id = some row) →
      Follows postgres (Ends platform call) (Replays platform call) (f rows) held' [] next) :
    Follows postgres (Ends platform call) (Replays platform call) (lockIntents call.subjectId ids >>= f)
      held [] fact := by
  induction ids generalizing f held fact with
  | nil =>
    exact hrest [] held fact (List.Subset.refl _) List.Sublist.slnil (fun _ h => absurd h List.not_mem_nil) hstable
      fun db hdb => ⟨hdb, fun _ h => absurd h List.not_mem_nil⟩
  | cons id ids ih =>
    have hunfold : (lockIntents call.subjectId (id :: ids) >>= f) = (lockIntent call.subjectId id >>= fun row =>
        lockIntents call.subjectId ids >>= fun rows => f (row.toList ++ rows)) := by
      rw [lockIntents, Body.bind_assoc]
      exact congrArg (lockIntent call.subjectId id >>= ·) (funext fun row => Body.bind_assoc _ _ _)
    rw [hunfold]
    refine Follows.query fun db hdb => .inr ?_
    have hview : postgres.after [] db = db := rfl
    have hlater : ∀ {held' : List Lock}, held ⊆ held' → ∀ db held'' changes message, held' ⊆ held'' →
        Replays platform call db held'' changes (.error (.conflict message)) :=
      fun hsub db held'' changes message hsub' => hreplays db held'' changes message (List.Subset.trans hsub hsub')
    have hgood : ∀ {g : List IntentRow → List IntentRow} {changes : List Change} {outcome},
        (lockIntents call.subjectId ids >>= fun rows => f (g rows)).outcome? = some outcome →
          Replays platform call db held changes outcome := by
      intro g changes outcome houtcome
      obtain ⟨rows, hrows⟩ := lockIntents_outcome? houtcome
      obtain ⟨message, rfl⟩ := hsettles (g rows) outcome hrows
      exact hreplays db held changes message (List.Subset.refl _)
    cases howned : db.owned? call.subjectId id with
    | none =>
      simp only [hview, howned, Option.isSome_none, Bool.false_eq_true, if_false, List.append_nil]
      refine ⟨none, rfl, fun _ h => absurd h List.not_mem_nil,
        fun outcome houtcome => hgood houtcome, fact, hdb, hstable,
        ih hstable (fun rows => hsettles rows) hreplays ?_⟩
      intro rows held' next hsub hsublist
      exact hrest rows held' next hsub (hsublist.cons id)
    | some row =>
      obtain ⟨hfound, howner⟩ := Option.filter_eq_some_iff.mp howned
      obtain rfl : row.id = id := (lookup_some hfound).2
      simp only [hview, howned, Option.isSome_some, if_true, List.append_nil]
      have hnext : postgres.Stable (held ++ [.intent row.id]) fun db => fact db ∧ db.intent? row.id = some row :=
        (hstable.mono (List.subset_append_left _ _)).and
          (stable_intent (List.mem_append_right _ (List.mem_singleton.mpr rfl)) _)
      refine ⟨some row, rfl, fun _ h => absurd h List.not_mem_nil,
        fun outcome houtcome => hgood houtcome, _, ⟨hdb, hfound⟩, hnext,
        ih hnext (fun rows => hsettles (row :: rows)) (hlater (List.subset_append_left _ _)) ?_⟩
      intro rows held' next hsub hsublist hrows hstable' himp
      refine hrest (row :: rows) held' next (List.Subset.trans (List.subset_append_left _ _) hsub)
        (hsublist.cons_cons _) ?_ hstable' ?_
      · intro other hother
        rcases List.mem_cons.mp hother with rfl | hother
        · exact ⟨of_decide_eq_true howner, hsub (List.mem_append_right _ (List.mem_singleton.mpr rfl))⟩
        · exact hrows other hother
      · intro db' hdb'
        obtain ⟨⟨hfact, hrow⟩, hothers⟩ := himp db' hdb'
        refine ⟨hfact, fun other hother => ?_⟩
        rcases List.mem_cons.mp hother with rfl | hother
        · exact hrow
        · exact hothers other hother

theorem exists_rows {rows : List IntentRow} (h : ∀ id ∈ ids, id ∈ rows.map IntentRow.id) :
    ∃ found : List IntentRow, found.map IntentRow.id = ids ∧ ∀ row ∈ found, row ∈ rows := by
  induction ids with
  | nil => exact ⟨[], rfl, fun _ h => absurd h List.not_mem_nil⟩
  | cons id ids ih =>
    obtain ⟨found, hfound, hrows⟩ := ih fun other hother => h other (List.mem_cons_of_mem _ hother)
    obtain ⟨row, hrow, hid⟩ := List.mem_map.mp (h id List.mem_cons_self)
    refine ⟨row :: found, by rw [List.map_cons, hid, hfound], fun other hother => ?_⟩
    rcases List.mem_cons.mp hother with rfl | hother
    · exact hrow
    · exact hrows other hother

theorem mem_sourceIds {id : String} : id ∈ input.sourceIds ↔ id ∈ input.sources.map VersionCommand.id := mem_sortBy

theorem MergeCommand.Valid.nodup (h : input.Valid targetId) : (targetId :: input.sourceIds).Nodup :=
  List.nodup_cons.mpr ⟨fun hmem => h.1 (.inr (mem_sourceIds.1 hmem)), (sortBy_perm _ _).nodup_iff.mpr h.2⟩

theorem mem_of_lookup {entries : List (String × ℕ)} {id : String}
    (h : entries.lookup id = some version) : id ∈ entries.map Prod.fst := by
  induction entries with
  | nil => cases h
  | cons entry entries ih =>
    rw [List.lookup_cons] at h
    by_cases hid : id = entry.1
    · exact List.mem_map.mpr ⟨entry, List.mem_cons_self, hid.symm⟩
    · rw [beq_false_of_ne hid] at h
      rw [List.map_cons]
      exact List.mem_cons_of_mem _ (ih h)

theorem MergeCommand.Fits.rows {rows : List IntentRow}
    (h : input.Fits targetId rows) (hvalid : input.Valid targetId) (hnodup : (rows.map IntentRow.id).Nodup)
    (hlength : rows.length = input.sourceIds.length + 1) :
    ∃ target ∈ rows, ∃ sources : List IntentRow, (∀ row ∈ sources, row ∈ rows) ∧ target.id = targetId ∧
      target.version = input.expectedVersion ∧ target.state.live = true ∧
      sources.map IntentRow.id = input.sourceIds ∧
      ∀ row ∈ sources, input.sourceVersions.lookup row.id = some row.version ∧ row.state.live = true := by
  obtain ⟨⟨target, htarget, hversion, hlive⟩, hothers⟩ := h
  have htargetId : target.id = targetId := by
    have hfound := List.find?_some htarget
    exact of_decide_eq_true hfound
  have hsub : rows.map IntentRow.id ⊆ targetId :: input.sourceIds := by
    intro id hid
    obtain ⟨row, hrow, rfl⟩ := List.mem_map.mp hid
    by_cases hsame : row.id = targetId
    · exact hsame ▸ List.mem_cons_self
    · have hkey := mem_of_lookup (hothers row hrow hsame).1
      rw [MergeCommand.sourceVersions, List.map_map] at hkey
      exact List.mem_cons_of_mem _ (mem_sourceIds.2 hkey)
  have hperm : (rows.map IntentRow.id).Perm (targetId :: input.sourceIds) :=
    (hnodup.subperm hsub).perm_of_length_le (by rw [List.length_map, List.length_cons, hlength])
  have hlocked : ∀ id ∈ input.sourceIds, id ∈ rows.map IntentRow.id :=
    fun id hid => hperm.mem_iff.mpr (List.mem_cons_of_mem _ hid)
  obtain ⟨sources, hsources, hrows⟩ := exists_rows hlocked
  refine ⟨target, List.mem_of_find?_eq_some htarget, sources, hrows, htargetId, hversion, hlive, hsources, ?_⟩
  intro row hrow
  refine hothers row (hrows row hrow) fun hsame => ?_
  have hmem : row.id ∈ input.sourceIds := hsources ▸ List.mem_map_of_mem hrow
  exact (List.nodup_cons.mp hvalid.nodup).1 (hsame ▸ hmem)

theorem follows_mergeSources {f : Transaction Answer} (htarget : platform.uuid targetId = targetId)
    (hids : ∀ row ∈ sources, platform.uuid row.id = row.id) (hnodup : (sources.map IntentRow.id).Nodup)
    (hheld : ∀ row ∈ sources, .intent row.id ∈ held)
    (hmade : ∀ row ∈ sources, ∀ change ∈ made, change.sets ≠ some row.id) (hstable : postgres.Stable held fact)
    (hfact : ∀ db, fact db → ∀ row ∈ sources, db.intent? row.id = some row)
    (hreplays : ∀ db held' changes outcome, fact db → held ⊆ held' → Replays platform call db held' changes outcome)
    (hrest : ∀ held', held ⊆ held' → postgres.Stable held' fact →
      Follows postgres (Ends platform call) (Replays platform call) f held'
        (made ++ sources.flatMap (sourceChanges platform targetId commandId)) fact) :
    Follows postgres (Ends platform call) (Replays platform call)
      ((sources.map IntentRow.id).forM (mergeSource platform targetId commandId) >>= fun _ => f) held made fact := by
  induction sources generalizing held made with
  | nil =>
    have hdone := hrest held (List.Subset.refl _) hstable
    rw [List.flatMap_nil, List.append_nil] at hdone
    exact hdone
  | cons row sources ih =>
    have hunfold : ((row :: sources).map IntentRow.id).forM (mergeSource platform targetId commandId) >>= (fun _ => f) =
        (insertRelation ⟨platform.uuid targetId, platform.uuid row.id, platform.uuid commandId⟩ >>= fun _ =>
          updateIntent (fun db => db.intent? (platform.uuid row.id))
            (fun row => row.mergedInto (platform.uuid targetId)) >>= fun _ =>
          (sources.map IntentRow.id).forM (mergeSource platform targetId commandId) >>= fun _ => f) := by
      show ((mergeSource platform targetId commandId row.id >>= fun _ =>
        (sources.map IntentRow.id).forM (mergeSource platform targetId commandId)) >>= fun _ => f) = _
      rw [Body.bind_assoc, mergeSource, Body.bind_assoc]
      exact congrArg (insertRelation _ >>= ·) (funext fun _ => Body.bind_assoc _ _ _)
    rw [hunfold, htarget, hids row List.mem_cons_self]
    have hlock : Lock.intent row.id ∈ held := hheld row List.mem_cons_self
    refine Follows.query fun db hdb => ?_
    rw [List.append_nil]
    split_ifs with hviolated
    · exact .inl ⟨.database, rfl, .refused .database, hreplays db held _ _ hdb (List.Subset.refl _)⟩
    · refine .inr ⟨(), rfl, ?_, fun outcome _ => hreplays db held _ outcome hdb (List.Subset.refl _), fact, hdb, hstable,
        Follows.query fun db' hdb' => .inr ?_⟩
      · intro change hchange l hl
        obtain rfl := List.mem_singleton.mp hchange
        obtain rfl := List.mem_singleton.mp hl
        exact hlock
      have hview : (postgres.after (made ++ [.insertRelation ⟨targetId, row.id, platform.uuid commandId⟩]) db').intent?
          row.id = some row := by
        rw [after_intent?]
        · exact hfact db' hdb' row List.mem_cons_self
        · intro change hchange
          rcases List.mem_append.mp hchange with hold | hnew
          · exact hmade row List.mem_cons_self change hold
          · obtain rfl := List.mem_singleton.mp hnew
            exact fun h => by cases h
      simp only [hview]
      refine ⟨true, rfl, ?_, fun outcome _ => hreplays db' held _ outcome hdb' (List.Subset.refl _), fact, hdb',
        hstable.mono (List.subset_append_left _ _), ih (fun other hother => hids other (List.mem_cons_of_mem _ hother))
          (List.nodup_cons.mp hnodup).2
          (fun other hother => List.mem_append_left _ (hheld other (List.mem_cons_of_mem _ hother))) ?_
          (hstable.mono (List.subset_append_left _ _))
          (fun db hdb other hother => hfact db hdb other (List.mem_cons_of_mem _ hother))
          (fun db held' changes outcome hdb hsub => hreplays db held' changes outcome hdb
            (List.Subset.trans (List.subset_append_left _ _) hsub)) ?_⟩
      · intro change hchange l hl
        obtain rfl := List.mem_singleton.mp hchange
        obtain rfl := List.mem_singleton.mp hl
        exact List.mem_append_left _ hlock
      · intro other hother change hchange
        have hne : row.id ≠ other.id := fun hsame =>
          (List.nodup_cons.mp hnodup).1 (hsame ▸ List.mem_map_of_mem hother)
        rcases List.mem_append.mp hchange with hold | hnew
        · rcases List.mem_append.mp hold with hold | hnew
          · exact hmade other (List.mem_cons_of_mem _ hother) change hold
          · obtain rfl := List.mem_singleton.mp hnew
            exact fun h => by cases h
        · obtain rfl := List.mem_singleton.mp hnew
          exact fun h => hne (Option.some.inj h)
      · intro held' hsub hstable'
        have hdone := hrest held' (List.Subset.trans (List.subset_append_left _ _) hsub) hstable'
        rw [List.flatMap_cons] at hdone
        rw [List.append_assoc made, List.append_assoc]
        exact hdone

theorem sets_sourceChanges {change : Change}
    (h : change ∈ sources.flatMap (sourceChanges platform targetId commandId)) :
    change.contributes = none ∧ ∀ id, change.sets = some id → id ∈ sources.map IntentRow.id := by
  obtain ⟨row, hrow, hchange⟩ := List.mem_flatMap.mp h
  rcases List.mem_cons.mp hchange with rfl | hchange
  · exact ⟨rfl, fun id hid => by cases hid⟩
  · obtain rfl := List.mem_singleton.mp hchange
    refine ⟨rfl, fun id hid => ?_⟩
    cases hid
    exact List.mem_map.mpr ⟨row, hrow, rfl⟩

theorem detail?_id {detail : IntentDetail}
    (h : db.detail? platform subjectId intentId = some detail) : detail.intent.id = platform.uuid intentId := by
  obtain ⟨row, hrow, rfl⟩ := Option.map_eq_some_iff.mp h
  exact (lookup_some (Option.filter_eq_some_iff.mp (Option.filter_eq_some_iff.mp hrow).1).1).2

theorem follows_writeMerge {target : IntentRow} (hcommand : call.command = .merge targetId input)
    (hvalid : input.Valid targetId) (htarget : target.id = targetId) (hsources : sources.map IntentRow.id = input.sourceIds)
    (hids : ∀ row ∈ target :: sources, platform.uuid row.id = row.id ∧ .intent row.id ∈ held ∧
      row.ownerSubjectId = call.subjectId ∧ row.state.live = true)
    (hversion : target.version = input.expectedVersion)
    (hversions : ∀ row ∈ sources, input.sourceVersions.lookup row.id = some row.version)
    (hmissed : .missedCommand (platform.uuid input.commandId) ∈ held) (hstable : postgres.Stable held fact)
    (hfact : ∀ db, fact db → ∀ row ∈ target :: sources, db.intent? row.id = some row) :
    Follows postgres (Ends platform call) (Replays platform call)
      (writeMerge platform call.subjectId targetId input call.randomUUID) held [] fact := by
  have hfits : ∀ db, fact db → db.fits call.subjectId targetId input = true := by
    intro db hdb
    have hlive : ∀ row ∈ target :: sources, db.live? call.subjectId row.id = some row := fun row hrow =>
      live?_of (hfact db hdb row hrow) (hids row hrow).2.2.1 (hids row hrow).2.2.2
    rw [Db.fits, ← htarget, hlive target List.mem_cons_self, Option.any_some, decide_eq_true hversion, Bool.true_and,
      List.all_eq_true]
    intro id hid
    obtain ⟨row, hrow, rfl⟩ := List.mem_map.mp (hsources.symm ▸ hid : id ∈ sources.map IntentRow.id)
    rw [hlive row (List.mem_cons_of_mem _ hrow), Option.any_some, decide_eq_true (hversions row hrow)]
  have hreplays : ∀ db (held' : List Lock) changes outcome, fact db → held ⊆ held' →
      Replays platform call db held' changes outcome := by
    intro db held' changes outcome hdb hsub
    rw [Replays, hcommand]
    exact fun row _ => .inl ⟨hsub hmissed, .inr (hfits db hdb)⟩
  have hcanonical : platform.uuid targetId = targetId := htarget ▸ (hids target List.mem_cons_self).1
  have hlock : Lock.intent targetId ∈ held := htarget ▸ (hids target List.mem_cons_self).2.1
  have hsourceIds : ∀ row ∈ sources, platform.uuid row.id = row.id ∧ .intent row.id ∈ held :=
    fun row hrow => ⟨(hids row (List.mem_cons_of_mem _ hrow)).1, (hids row (List.mem_cons_of_mem _ hrow)).2.1⟩
  have hnodup := List.nodup_cons.mp hvalid.nodup
  refine Follows.query fun db hdb => ?_
  split_ifs with hviolated
  · exact .inl ⟨.database, rfl, .refused .database, hreplays db held _ _ hdb (List.Subset.refl _)⟩
  have hnone : db.command? (platform.uuid input.commandId) = none :=
    Option.not_isSome_iff_eq_none.mp (not_or.mp hviolated).1
  have hnext : postgres.Stable (held ++ [.command (platform.uuid input.commandId)]) fun db =>
      fact db ∧ db.command? (platform.uuid input.commandId) = none :=
    (hstable.mono (List.subset_append_left _ _)).and
      (stable_command (List.mem_append_right _ (List.mem_singleton.mpr rfl)) none)
  refine .inr ⟨(), rfl, ?_, fun outcome _ => hreplays db held _ outcome hdb (List.Subset.refl _), _, ⟨hdb, hnone⟩,
    hnext, ?_⟩
  · intro change hchange l hl
    obtain rfl := List.mem_singleton.mp hchange
    obtain rfl := List.mem_singleton.mp hl
    exact List.mem_append_right _ (List.mem_singleton.mpr rfl)
  rw [← hsources]
  have hlater : ∀ db (held' : List Lock) changes outcome, fact db ∧ db.command? (platform.uuid input.commandId) = none →
      held ++ [.command (platform.uuid input.commandId)] ⊆ held' → Replays platform call db held' changes outcome :=
    fun db held' changes outcome hdb hsub =>
      hreplays db held' changes outcome hdb.1 (List.Subset.trans (List.subset_append_left _ _) hsub)
  refine follows_mergeSources hcanonical (fun row hrow => (hsourceIds row hrow).1) (hsources ▸ hnodup.2)
    (fun row hrow => List.mem_append_left _ (hsourceIds row hrow).2) ?_ hnext
    (fun db hdb row hrow => hfact db hdb.1 row (List.mem_cons_of_mem _ hrow)) hlater ?_
  · intro row hrow change hchange
    obtain rfl := List.mem_singleton.mp hchange
    exact fun h => by cases h
  intro held' hsub hstable'
  have hheld : Lock.intent targetId ∈ held' := hsub (List.mem_append_left _ hlock)
  refine follows_insertContribution (hcanonical.symm ▸ hheld) ?_ hstable'
    (fun db hdb changes outcome => hlater db held' changes outcome hdb hsub) fun sequence next hstable'' himp => ?_
  · intro change hchange
    rcases List.mem_append.mp hchange with hfirst | hsource
    · obtain rfl := List.mem_singleton.mp hfirst
      rfl
    · exact (sets_sourceChanges hsource).1
  refine follows_bumpVersion (htarget ▸ List.mem_append_left _ hheld) (htarget.trans hcanonical.symm) ?_ hstable''
    (fun db hdb => hfact db (himp db hdb).1.1 target List.mem_cons_self)
    (fun db hdb changes outcome =>
      hlater db _ changes outcome (himp db hdb).1 (List.Subset.trans hsub (List.subset_append_left _ _))) ?_
  · intro change hchange hsets
    rcases List.mem_append.mp hchange with hold | hnew
    · rcases List.mem_append.mp hold with hfirst | hsource
      · obtain rfl := List.mem_singleton.mp hfirst
        cases hsets
      · have hmem := (sets_sourceChanges hsource).2 target.id hsets
        rw [htarget, hsources] at hmem
        exact hnodup.1 hmem
    · obtain rfl := List.mem_singleton.mp hnew
      cases hsets
  refine Follows.reading fun db hdb => ?_
  have hgood : ∀ changes outcome, Replays platform call db
      (held' ++ [.contribution (platform.uuid call.randomUUID)] ++ [.intent target.id]) changes outcome := by
    intro changes outcome
    refine hlater db _ changes outcome (himp db hdb).1 (List.Subset.trans hsub ?_)
    exact List.Subset.trans (List.subset_append_left _ _) (List.subset_append_left _ _)
  split
  · rename_i detail hdetail
    refine .inr ⟨detail, rfl, fun outcome _ => hgood _ outcome, next, hdb, hstable''.mono (List.subset_append_left _ _),
      Follows.done fun db' hdb' => ?_⟩
    obtain ⟨⟨hrows, hfresh⟩, hcontribution, hkey, rfl⟩ := himp db' hdb'
    have hjoins : ∀ row ∈ target :: sources, Joins db' call.subjectId row row.version := fun row hrow =>
      ⟨hfact db' hrows row hrow, (hids row hrow).2.2.1, (hids row hrow).2.2.2, rfl⟩
    have hcommit : Commits platform call db' (.merged detail)
        (mergeChanges platform input call.randomUUID (db'.nextSequence targetId) target sources) :=
      .merged hcommand htarget hcanonical hsources hvalid (hversion ▸ hjoins target List.mem_cons_self)
        (fun row hrow => ⟨row.version, hversions row hrow, hjoins row (List.mem_cons_of_mem _ hrow)⟩) hfresh
        hcontribution (hcanonical ▸ hkey) ((detail?_id hdetail).trans hcanonical)
    have hchanges : [] ++ [Change.insertCommand (input.row platform targetId)] ++
        sources.flatMap (sourceChanges platform targetId input.commandId) ++
        [.insertContribution (contributionRow platform targetId (mergedContribution input call.randomUUID)
          input.commandId (db'.nextSequence (platform.uuid targetId)))] ++ [.setIntent target.bumped] =
        mergeChanges platform input call.randomUUID (db'.nextSequence targetId) target sources := by
      rw [hcanonical, mergeChanges, htarget, List.append_assoc, List.append_assoc]
      rfl
    have hend := Ends.done hcommit
    rw [← hchanges] at hend
    exact hend
  · exact .inl ⟨intentNotFound, rfl, .refused _, hgood _ _⟩

theorem canonical_of_mergeable {id : String}
    (h : id ∈ db.mergeable platform subjectId targetId input) : platform.uuid id = id := by
  obtain ⟨text, -, rfl⟩ := List.mem_map.mp (List.mem_dedup.mp (List.mem_filter.mp h).1)
  exact platform.uuid_uuid text

theorem follows_mergeIntents (hcommand : call.command = .merge targetId input) (hvalid : input.Valid targetId)
    (hmissed : .missedCommand (platform.uuid input.commandId) ∈ held) (hstable : postgres.Stable held fact) :
    Follows postgres (Ends platform call) (Replays platform call)
      (mergeIntents platform call.subjectId targetId input call.randomUUID) held [] fact := by
  have hreplays : ∀ db (held' : List Lock) changes message, held ⊆ held' →
      Replays platform call db held' changes (.error (.conflict message)) := by
    intro db held' changes message hsub
    rw [Replays, hcommand]
    exact fun row _ => .inl ⟨hsub hmissed, .inl ⟨message, rfl⟩⟩
  have hsettles : ∀ (rows : List IntentRow) (outcome : Except IntentError Answer),
      (if rows.length ≠ input.sourceIds.length + 1 then
        Body.fail (.conflict "One or more intents do not exist.")
      else if ¬input.Fits targetId rows then Body.fail stateChanged
      else writeMerge platform call.subjectId targetId input call.randomUUID : Transaction Answer).outcome? =
        some outcome → ∃ message, outcome = .error (.conflict message) := by
    intro rows outcome houtcome
    split_ifs at houtcome
    · cases houtcome
      exact ⟨_, rfl⟩
    · cases houtcome
    · cases houtcome
      exact ⟨_, rfl⟩
  refine Follows.reading fun db hdb => .inr ⟨_, rfl, fun outcome houtcome => ?_, fact, hdb, hstable,
    follows_lockIntents hstable hsettles hreplays ?_⟩
  · obtain ⟨rows, hrows⟩ := lockIntents_outcome? houtcome
    obtain ⟨message, rfl⟩ := hsettles rows outcome hrows
    exact hreplays db held _ message (List.Subset.refl _)
  intro rows held' next hsub hsublist hrows hstable' himp
  have hcanonical : ∀ row ∈ rows, platform.uuid row.id = row.id := fun row hrow =>
    canonical_of_mergeable (hsublist.subset (List.mem_map_of_mem hrow))
  have hnodup : (rows.map IntentRow.id).Nodup := ((List.nodup_dedup _).filter _).sublist hsublist
  split_ifs with hlength hfits
  · exact refuses
  · obtain ⟨target, htarget, sources, hsources, hid, hversion, hlive, hsourceIds, hversions⟩ :=
      hfits.rows hvalid hnodup (not_not.mp hlength)
    refine follows_writeMerge hcommand hvalid hid hsourceIds ?_ hversion (fun row hrow => (hversions row hrow).1)
      (hsub hmissed) hstable' fun db hdb row hrow => ?_
    · intro row hrow
      rcases List.mem_cons.mp hrow with rfl | hrow
      · exact ⟨hcanonical row htarget, (hrows row htarget).2, (hrows row htarget).1, hlive⟩
      · have hmem := hsources row hrow
        exact ⟨hcanonical row hmem, (hrows row hmem).2, (hrows row hmem).1, (hversions row hrow).2⟩
    · rcases List.mem_cons.mp hrow with rfl | hrow
      · exact (himp db hdb).2 row htarget
      · exact (himp db hdb).2 row (hsources row hrow)
  · exact refuses

theorem command?_grows {id : String} {row : MergeCommandRow} (h : db.command? id = some row)
    (change : Change) : (change.apply db).command? id = some row := by
  cases change with
  | insertCommand other => exact lookup_grown h [other]
  | insertIntent other => exact h
  | setIntent other => exact h
  | insertContribution other => exact h
  | insertRelation other => exact h

theorem follows_merge (hcommand : call.command = .merge targetId input) :
    Follows postgres (Ends platform call) (Replays platform call)
      (merge platform call.subjectId targetId input call.randomUUID) [] [] fun _ => True := by
  have hreplays : ∀ {db held changes outcome}, Replays platform call db held changes outcome ↔
      ∀ row, db.command? (platform.uuid input.commandId) = some row →
        .missedCommand (platform.uuid input.commandId) ∈ held ∧
            ((∃ message, outcome = .error (.conflict message)) ∨ db.fits call.subjectId targetId input = true) ∨
          changes = [] ∧ ((∃ message, outcome = .error (.conflict message)) ∧ ¬input.Valid targetId ∨
            input.Valid targetId ∧ outcome = mergedBefore platform call.subjectId targetId input row db) := by
    intro db held changes outcome
    rw [Replays, hcommand]
  rw [merge]
  split_ifs with hpath hunique
  · exact refuses
  · have hvalid : input.Valid targetId := ⟨hpath, hunique⟩
    refine Follows.query fun db _ => .inr ?_
    have hview : postgres.after [] db = db := rfl
    cases hrow : db.command? (platform.uuid input.commandId) with
    | none =>
      simp only [hview, hrow, Option.isSome_none, Bool.false_eq_true, if_false]
      refine ⟨none, rfl, fun _ h => absurd h List.not_mem_nil, fun outcome _ => hreplays.mpr fun row hsome => ?_,
        fun _ => True, trivial, Engine.Stable.trivial _,
        follows_mergeIntents hcommand hvalid (List.mem_singleton.mpr rfl) (Engine.Stable.trivial _)⟩
      rw [hrow] at hsome
      cases hsome
    | some row =>
      simp only [hview, hrow, Option.isSome_some, if_true]
      refine ⟨some row, rfl, fun _ h => absurd h List.not_mem_nil, ?_,
        fun db => db.command? (platform.uuid input.commandId) = some row, hrow, ?_, ?_⟩
      · intro outcome houtcome
        refine hreplays.mpr fun other hother => .inr ⟨rfl, .inr ⟨hvalid, ?_⟩⟩
        obtain rfl : row = other := Option.some.inj (hrow.symm.trans hother)
        dsimp only at houtcome
        split_ifs at houtcome with hrepeats
        · cases houtcome
        · rw [mergedBefore, if_pos hrepeats]
          exact (Option.some.inj houtcome).symm
      · exact fun db' change _ hfound => command?_grows hfound change
      · dsimp only
        split_ifs with hrepeats
        · refine Follows.reading fun db' hfound => ?_
          have hreplay : ∀ {outcome}, outcome = mergedBefore platform call.subjectId targetId input row db' →
              Replays platform call db' [] [] outcome := by
            intro outcome houtcome
            refine hreplays.mpr fun other hother => .inr ⟨rfl, .inr ⟨hvalid, ?_⟩⟩
            obtain rfl : row = other := Option.some.inj (hfound.symm.trans hother)
            exact houtcome
          rw [mergedBefore, if_neg (not_not.mpr hrepeats)] at hreplay
          cases hdetail : db'.detail? platform call.subjectId targetId with
          | none =>
            rw [hdetail] at hreplay
            refine .inl ⟨intentNotFound, ?_, .refused _, hreplay rfl⟩
            show (Body.ofExcept (match db'.detail? platform call.subjectId targetId with
              | some detail => Except.ok detail
              | none => .error intentNotFound) >>= _) = _
            rw [hdetail]
            rfl
          | some detail =>
            rw [hdetail] at hreplay
            refine .inr ⟨detail, ?_, fun outcome houtcome => ?_, fun _ => True, trivial,
              Engine.Stable.trivial _, Follows.done fun _ _ => .repeated rfl⟩
            · show (match db'.detail? platform call.subjectId targetId with
                | some detail => Except.ok detail
                | none => .error intentNotFound) = _
              rw [hdetail]
            · cases houtcome
              exact hreplay rfl
        · exact refuses
  · exact refuses

theorem transaction_specified (platform : IntentPlatform) :
    Specified postgres (transaction platform) (Ends platform) (Replays platform) := by
  have hfollows : ∀ call, Follows postgres (Ends platform call) (Replays platform call) (transaction platform call)
      [] [] fun _ => True := by
    intro call
    rw [transaction]
    split
    · exact follows_create ‹_›
    · exact follows_append ‹_›
    · exact follows_update ‹_›
    · exact follows_archiveOrRestore ‹_›
    · exact follows_tombstone ‹_›
    · exact follows_merge ‹_›
  refine ⟨fun call => (hfollows call).proves, fun call => (hfollows call).answers, ?_⟩
  intro call outcome houtcome db
  rw [transaction] at houtcome
  cases hcommand : call.command with
  | create input =>
    rw [hcommand] at houtcome
    cases houtcome
  | append intentId input =>
    rw [hcommand] at houtcome
    cases houtcome
  | update intentId input =>
    rw [hcommand] at houtcome
    cases houtcome
  | archiveOrRestore intentId input restore =>
    rw [Replays, hcommand]
    trivial
  | tombstone intentId input =>
    rw [Replays, hcommand]
    trivial
  | merge targetId input =>
    rw [hcommand] at houtcome
    dsimp only at houtcome
    rw [merge] at houtcome
    rw [Replays, hcommand]
    refine fun row _ => .inr ⟨rfl, .inl ?_⟩
    split_ifs at houtcome with hpath hunique
    · cases houtcome
      exact ⟨⟨_, rfl⟩, fun hvalid => hvalid.1 hpath⟩
    · cases houtcome
    · cases houtcome
      exact ⟨⟨_, rfl⟩, fun hvalid => hunique hvalid.2⟩

end Bodies

end AvenOS.IntentService
