import AvenOS.IntentService.IntentHistory

/-! # Commands that are sent again

What creates, appends and merges leave in the tables for good, and what the same command, or another one under
its id, is answered from then on. -/
namespace AvenOS.IntentService
open Actors (JsValue)
open KeyedTable LabelledRun StableSort Transactions

/-! ## What is asked of answers -/

section Asked
variable (platform : IntentPlatform)

def Command.sameId : Command → Command → Bool
  | .create one, .create other => platform.uuid one.id = platform.uuid other.id
  | .append _ one, .append _ other => platform.uuid one.id = platform.uuid other.id
  | .merge _ one, .merge _ other => platform.uuid one.commandId = platform.uuid other.commandId
  | _, _ => false

def Command.sameContent : Command → Command → Bool
  | .create one, .create other => one.content platform = other.content platform
  | .append intentId one, .append intentId' other =>
    platform.uuid intentId = platform.uuid intentId' && one.contributorKind = other.contributorKind &&
      one.kind = other.kind && one.text = other.text && platform.isDeepStrictEqual one.payload other.payload
  | .merge targetId one, .merge targetId' other =>
    targetId = targetId' && one.id = other.id && one.expectedVersion = other.expectedVersion &&
      one.sourceVersions.isPerm other.sourceVersions
  | _, _ => false

def Answer.names : Answer → Answer → Prop
  | .existing detail, .created id => detail.intent.id = id
  | .repeated row, .appended row' => row = row'
  | .mergedBefore detail, .merged detail' => detail.intent.id = detail'.intent.id
  | _, _ => False

/-- What is asked of a step that settles the answer to a command whose id is that of a committed one of the same
subject. -/
def RetryAnswered (s : Store) (action : Action Call) : Prop :=
  ∀ settlement, s.settled postgres (transaction platform) action = some settlement →
    ∀ call answer, (call, .ok answer) ∈ s.journal → answer.effective = true →
      call.subjectId = settlement.call.subjectId →
      call.command.sameId platform settlement.call.command = true →
        (settlement.call.command = call.command →
          settlement.changes = [] ∧ ∃ again, settlement.outcome = .ok again ∧ again.names answer) ∧
        (call.command.sameContent platform settlement.call.command = false →
          ∃ message, settlement.outcome = .error (.conflict message))

/-- The condition under which a command whose id is that of a committed one is answered so. A create finds the
intent with its own columns exactly where it was created with them. An append finds its intent live and has seen
the committed contribution, whose payload reads back as it was; the intent is named as the database spells it. A
merge has seen the committed command, and its target is not deleted; a different merge that has not seen it does
not fit the intents. -/
def Undisturbed (s : Store) (held : List Lock) (committed call : Call) : Bool :=
  match committed.command, call.command with
  | .create one, .create other =>
    (s.db.detail? platform call.subjectId other.id).any (fun detail => detail.intent.content = other.content platform) ==
      decide (one.content platform = other.content platform)
  | .append intentId one, .append intentId' other =>
    .missedContribution (platform.uuid other.id) ∉ held &&
      (s.db.live? call.subjectId (platform.uuid intentId')).isSome &&
      platform.isDeepStrictEqual (platform.jsonb one.payload) one.payload &&
      (Command.sameContent platform (.append intentId one) (.append intentId' other) = false ∨
        platform.uuid intentId' = intentId')
  | .merge targetId one, .merge targetId' other =>
    if Command.sameContent platform (.merge targetId one) (.merge targetId' other) then
      .missedCommand (platform.uuid other.commandId) ∉ held && (s.db.detail? platform call.subjectId targetId').isSome
    else
      .missedCommand (platform.uuid other.commandId) ∉ held || !s.db.fits call.subjectId targetId' other
  | _, _ => true

/-- The steps of runs in which commands are sent again undisturbed. -/
def retriesUndisturbed (s : Store) (action : Action Call) : Bool :=
  (s.settled postgres (transaction platform) action).all fun settlement =>
    s.journal.all fun entry =>
      match entry.2 with
      | .ok answer =>
        !(answer.effective && entry.1.subjectId = settlement.call.subjectId &&
            entry.1.command.sameId platform settlement.call.command) ||
          Undisturbed platform s settlement.held entry.1 settlement.call
      | .error _ => true

end Asked

/-! ## What is left for good -/

/-- A contribution tells who has added it: those of contributors have the id of their key. -/
structure ContributionsSound (platform : IntentPlatform) (db : Db) : Prop where
  ids : Keyed ContributionRow.id db.contributions
  keys : ∀ row ∈ db.contributions, ∀ other ∈ db.contributions, row.intentId = other.intentId →
    row.idempotencyKey = other.idempotencyKey → row = other
  given : ∀ row ∈ db.contributions, row.contributorKind = .system ∨ row.id = platform.uuid row.idempotencyKey

def Left (platform : IntentPlatform) (db : Db) (call : Call) (answer : Answer) : Prop :=
  match call.command with
  | .create input => answer = .created (platform.uuid input.id) ∧
    ∃ row, db.intent? (platform.uuid input.id) = some row ∧ row.ownerSubjectId = call.subjectId
  | .append intentId input => ∃ sequence,
    answer = .appended (contributionRow platform intentId input.contribution input.id sequence) ∧
      contributionRow platform intentId input.contribution input.id sequence ∈ db.contributions
  | .merge targetId input => input.Valid targetId ∧ platform.uuid targetId = targetId ∧
    (∃ detail, answer = .merged detail ∧ detail.intent.id = targetId) ∧
      db.command? (platform.uuid input.commandId) = some (input.row platform targetId)
  | _ => True

structure Traced (platform : IntentPlatform) (db : Db) (journal : List (Call × Except IntentError Answer)) :
    Prop where
  contributions : ContributionsSound platform db
  left : ∀ call answer, (call, .ok answer) ∈ journal → answer.effective = true → Left platform db call answer

section Traces
variable {platform : IntentPlatform} {call : Call} {db : Db} {answer : Answer} {changes : List Change}
  {journal : List (Call × Except IntentError Answer)}

def Change.contribution? : Change → Option ContributionRow
  | insertContribution row => some row
  | _ => none

variable (changes db) in
theorem after_contributions : (postgres.after changes db).contributions =
    db.contributions ++ changes.filterMap Change.contribution? := by
  induction changes generalizing db with
  | nil => exact (List.append_nil _).symm
  | cons change changes ih =>
    rw [postgres.after_cons, ih]
    cases change with
    | insertContribution row => exact List.append_assoc db.contributions [row] _
    | insertIntent row => rfl
    | setIntent row => rfl
    | insertCommand row => rfl
    | insertRelation row => rfl

theorem after_command? {id : String} {row : MergeCommandRow} (h : db.command? id = some row) :
    (postgres.after changes db).command? id = some row := by
  induction changes generalizing db with
  | nil => exact h
  | cons change changes ih => exact ih (command?_grows h change)

structure NewContribution (platform : IntentPlatform) (db : Db) (row : ContributionRow) : Prop where
  id : db.contribution? row.id = none
  key : ¬(db.contributionsOf row.intentId).any (·.idempotencyKey = row.idempotencyKey)
  given : row.contributorKind = .system ∨ row.id = platform.uuid row.idempotencyKey

theorem mergeChanges_contribution {input : MergeCommand} {randomUUID : String} {sequence : ℕ} {target : IntentRow}
    {sources : List IntentRow} :
    (mergeChanges platform input randomUUID sequence target sources).filterMap Change.contribution? =
      [contributionRow platform target.id (mergedContribution input randomUUID) input.commandId sequence] := by
  have hsources : (sources.flatMap (sourceChanges platform target.id input.commandId)).filterMap
      Change.contribution? = [] := by
    refine List.filterMap_eq_nil_iff.mpr fun change hchange => ?_
    have hnone := (sets_sourceChanges hchange).1
    cases change with
    | insertContribution row => cases hnone
    | insertIntent row => rfl
    | setIntent row => rfl
    | insertCommand row => rfl
    | insertRelation row => rfl
  rw [mergeChanges, List.filterMap_cons_none rfl, List.filterMap_append, hsources]
  rfl

theorem Commits.contributions (h : Commits platform call db answer changes) :
    ∀ row ∈ changes.filterMap Change.contribution?,
      changes.filterMap Change.contribution? = [row] ∧ NewContribution platform db row := by
  intro row hrow
  cases h with
  | created hcommand hnew hfresh hkey =>
    obtain rfl := List.mem_singleton.mp hrow
    exact ⟨rfl, hfresh, hkey, .inl rfl⟩
  | appended hcommand hlive hfresh hkey =>
    obtain rfl := List.mem_singleton.mp hrow
    exact ⟨rfl, hfresh, hkey, .inr rfl⟩
  | set hsets hexpected heffective => cases hrow
  | merged hcommand htarget hcanonical hsources hvalid hjoins hjoin hfresh hcontribution hkey hdetail =>
    subst htarget
    rw [mergeChanges_contribution] at hrow ⊢
    obtain rfl := List.mem_singleton.mp hrow
    refine ⟨rfl, hcontribution, ?_, .inl rfl⟩
    rw [contributionRow, hcanonical]
    exact hkey

theorem ContributionsSound.step (h : ContributionsSound platform db) (hcommits : Commits platform call db answer changes) :
    ContributionsSound platform (postgres.after changes db) := by
  have hcontributions := after_contributions db changes
  cases hadded : changes.filterMap Change.contribution? with
  | nil =>
    rw [hadded, List.append_nil] at hcontributions
    exact ⟨hcontributions ▸ h.ids, hcontributions ▸ h.keys, hcontributions ▸ h.given⟩
  | cons row rest =>
    obtain ⟨hsingle, hid, hkey, hgiven⟩ := hcommits.contributions row (hadded ▸ List.mem_cons_self)
    rw [hsingle] at hcontributions
    have hnew : ∀ other ∈ db.contributions, other.intentId = row.intentId →
        other.idempotencyKey ≠ row.idempotencyKey := by
      intro other hother hintent hsame
      exact hkey (List.any_eq_true.mpr ⟨other, List.mem_filter.mpr ⟨hother, decide_eq_true hintent⟩,
        decide_eq_true hsame⟩)
    refine ⟨?_, ?_, ?_⟩
    · rw [hcontributions]
      exact h.ids.concat fun other hother => lookup_none hid hother
    · rw [hcontributions]
      intro one hone other hother hintent hsame
      rcases List.mem_append.mp hone with hold | hlast
      · rcases List.mem_append.mp hother with hold' | hlast'
        · exact h.keys one hold other hold' hintent hsame
        · rw [List.mem_singleton.mp hlast'] at hintent hsame
          exact absurd hsame (hnew one hold hintent)
      · rcases List.mem_append.mp hother with hold' | hlast'
        · rw [List.mem_singleton.mp hlast] at hintent hsame
          exact absurd hsame.symm (hnew other hold' hintent.symm)
        · exact (List.mem_singleton.mp hlast).trans (List.mem_singleton.mp hlast').symm
    · rw [hcontributions]
      intro other hother
      rcases List.mem_append.mp hother with hother | hother
      · exact h.given other hother
      · obtain rfl := List.mem_singleton.mp hother
        exact hgiven

theorem Left.kept {other : Call} {answer' : Answer} (h : Left platform db other answer')
    (hcommits : Commits platform call db answer changes) : Left platform (postgres.after changes db) other answer' := by
  unfold Left at h ⊢
  split
  · rename_i input hcommand
    rw [hcommand] at h
    obtain ⟨hanswer, row, hrow, howner⟩ := h
    obtain ⟨row', hrow', howner'⟩ := (hcommits.moves _).owner hrow
    exact ⟨hanswer, row', hrow', howner'.trans howner⟩
  · rename_i intentId input hcommand
    rw [hcommand] at h
    obtain ⟨sequence, hanswer, hrow⟩ := h
    refine ⟨sequence, hanswer, ?_⟩
    rw [after_contributions]
    exact List.mem_append_left _ hrow
  · rename_i targetId input hcommand
    rw [hcommand] at h
    obtain ⟨hvalid, hcanonical, hdetail, hrow⟩ := h
    exact ⟨hvalid, hcanonical, hdetail, after_command? hrow⟩
  · trivial

theorem Commits.left (h : Commits platform call db answer changes) :
    Left platform (postgres.after changes db) call answer := by
  unfold Left
  cases h with
  | @created input hcommand hnew hfresh hkey =>
    rw [hcommand]
    exact ⟨rfl, _, insertIntent_same (input.row platform call.subjectId) hnew, rfl⟩
  | appended hcommand hlive hfresh hkey =>
    rw [hcommand]
    exact ⟨_, rfl, by rw [after_contributions]; exact List.mem_append_right _ List.mem_cons_self⟩
  | set hsets hexpected heffective =>
    generalize call.command = command at hsets
    cases hsets <;> trivial
  | @merged targetId input target sources detail hcommand htarget hcanonical hsources hvalid hjoins hjoin hfresh
      hcontribution hkey hdetail =>
    rw [hcommand]
    refine ⟨hvalid, hcanonical, ⟨detail, rfl, hdetail⟩, ?_⟩
    subst htarget
    rw [mergeChanges, postgres.after_cons]
    have hnew : ∀ other ∈ db.mergeCommands, other.commandId ≠ (input.row platform target.id).commandId :=
      fun other hother => lookup_none hfresh hother
    have hinserted : ((Change.insertCommand (input.row platform target.id)).apply db).command?
        (platform.uuid input.commandId) = some (input.row platform target.id) :=
      (lookup_concat_new hnew).trans (if_pos rfl)
    exact after_command? hinserted

theorem traced_empty : Traced platform Db.empty [] :=
  ⟨⟨Keyed.nil, fun _ h => absurd h List.not_mem_nil, fun _ h => absurd h List.not_mem_nil⟩,
    fun _ _ h => absurd h List.not_mem_nil⟩

theorem Traced.same (h : Traced platform db journal) {outcome : Except IntentError Answer}
    (hsame : ∀ answer, outcome = .ok answer → answer.effective = false) :
    Traced platform db (journal ++ [(call, outcome)]) := by
  refine ⟨h.contributions, fun other answer hentry heffective => ?_⟩
  rcases List.mem_append.mp hentry with hold | hlast
  · exact h.left other answer hold heffective
  · obtain ⟨-, houtcome⟩ := Prod.mk.inj (List.mem_singleton.mp hlast)
    rw [hsame answer houtcome.symm] at heffective
    cases heffective

theorem Traced.step (h : Traced platform db journal) (hcommits : Commits platform call db answer changes) :
    Traced platform (postgres.after changes db) (journal ++ [(call, .ok answer)]) := by
  refine ⟨h.contributions.step hcommits, fun other answer' hentry heffective => ?_⟩
  rcases List.mem_append.mp hentry with hold | hlast
  · exact (h.left other answer' hold heffective).kept hcommits
  · obtain ⟨rfl, houtcome⟩ := Prod.mk.inj (List.mem_singleton.mp hlast)
    cases houtcome
    exact hcommits.left

theorem traced_run {before after : Db × List (Call × Except IntentError Answer)}
    (hrun : Relation.ReflTransGen (SerialStep postgres (Ends platform)) before after)
    (h : Traced platform before.1 before.2) : Traced platform after.1 after.2 := by
  induction hrun with
  | refl => exact h
  | tail _ hstep ih =>
    cases hstep with
    | call hpost =>
      cases hpost with
      | refused error => exact ih.same fun _ h => by cases h
      | repeated hrepeat =>
        refine ih.same fun other hother => ?_
        cases hother
        exact hrepeat
      | done hcommits => exact ih.step hcommits
    | ambient change hneeds => cases change <;> cases hneeds

end Traces

/-! ## Replays -/

section Retries
variable {platform : IntentPlatform} {s : Store} {call committed : Call} {answer : Answer} {held : List Lock}
  {changes : List Change} {outcome : Except IntentError Answer}

/-- The answer to the same command names what the first one did, and another content is refused. -/
def Retried (platform : IntentPlatform) (committed call : Call) (answer : Answer) (changes : List Change)
    (outcome : Except IntentError Answer) : Prop :=
  (call.command = committed.command → changes = [] ∧ ∃ again, outcome = .ok again ∧ again.names answer) ∧
    (committed.command.sameContent platform call.command = false → ∃ message, outcome = .error (.conflict message))

theorem mem_sameContributions {intentId id : String} {row : ContributionRow}
    (h : row ∈ s.db.sameContributions platform intentId id) : row ∈ s.db.contributions ∧
      (row.id = platform.uuid id ∨ row.intentId = platform.uuid intentId ∧ row.idempotencyKey = id) := by
  obtain ⟨hrow, hsame⟩ := List.mem_filter.mp h
  refine ⟨hrow, ?_⟩
  rcases Bool.or_eq_true _ _ ▸ hsame with hid | hkey
  · exact .inl (of_decide_eq_true hid)
  · obtain ⟨hintent, hkey⟩ := Bool.and_eq_true _ _ ▸ hkey
    exact .inr ⟨of_decide_eq_true hintent, of_decide_eq_true hkey⟩

variable (hleft : Left platform s.db committed answer) (hreplays : Replays platform call s.db held changes outcome)
  (hundisturbed : Undisturbed platform s held committed call = true)
include hleft hreplays hundisturbed

theorem retry_create {one other : CreateIntent} (hcommitted : committed.command = .create one)
    (hcommand : call.command = .create other) (hid : platform.uuid one.id = platform.uuid other.id) :
    Retried platform committed call answer changes outcome := by
  rw [Left, hcommitted] at hleft
  obtain ⟨rfl, row, hrow, -⟩ := hleft
  rw [Replays, hcommand] at hreplays
  obtain ⟨hchanges, houtcome⟩ := hreplays (by rw [← hid, hrow]; rfl)
  rw [Undisturbed, hcommitted, hcommand, beq_iff_eq] at hundisturbed
  rw [Retried, hcommitted, hcommand]
  constructor
  · intro hsame
    cases hsame
    rw [decide_eq_true rfl, Option.any_eq_true] at hundisturbed
    obtain ⟨detail, hdetail, hcontent⟩ := hundisturbed
    refine ⟨hchanges, .existing detail, ?_, detail?_id hdetail⟩
    rw [houtcome, createdBefore, hdetail]
    exact if_pos (of_decide_eq_true hcontent)
  · intro hdifferent
    have hcontent : decide (one.content platform = other.content platform) = false := hdifferent
    rw [hcontent] at hundisturbed
    rw [houtcome, createdBefore]
    cases hdetail : s.db.detail? platform call.subjectId other.id with
    | none => exact ⟨_, rfl⟩
    | some detail =>
      rw [hdetail, Option.any_some] at hundisturbed
      exact ⟨_, if_neg (of_decide_eq_false hundisturbed)⟩

theorem retry_append {intentId intentId' : String} {one other : ContributionInput}
    (hcommitted : committed.command = .append intentId one) (hcommand : call.command = .append intentId' other)
    (hcontributions : ContributionsSound platform s.db) (hid : platform.uuid one.id = platform.uuid other.id) :
    Retried platform committed call answer changes outcome := by
  rw [Left, hcommitted] at hleft
  obtain ⟨sequence, rfl, hrow⟩ := hleft
  rw [Replays, hcommand] at hreplays
  rw [Undisturbed, hcommitted, hcommand] at hundisturbed
  dsimp only at hundisturbed
  simp only [Bool.and_eq_true, decide_eq_true_eq] at hundisturbed
  obtain ⟨⟨⟨hlooked, hlive⟩, hpayload⟩, hcanonical⟩ := hundisturbed
  have hpresent : (s.db.contribution? (platform.uuid other.id)).isSome = true := by
    rw [← hid]
    exact Option.isSome_iff_exists.mpr ⟨_, hcontributions.ids.lookup hrow⟩
  obtain ⟨hchanges, found, hfound, houtcome⟩ : changes = [] ∧
      ∃ row ∈ s.db.sameContributions platform intentId' other.id,
        outcome = repeatedContribution platform intentId' other row := by
    rcases hreplays hpresent with hmissed | ⟨hchanges, hdead | hfound⟩
    · exact absurd hmissed hlooked
    · rw [hdead] at hlive
      cases hlive
    · exact ⟨hchanges, hfound⟩
  obtain ⟨hmem, hwhich⟩ := mem_sameContributions hfound
  rw [Retried, hcommitted, hcommand]
  constructor
  · intro hsame
    cases hsame
    have hrefl : Command.sameContent platform (.append intentId one) (.append intentId one) = true := by
      simp [Command.sameContent, platform.equivalence.refl]
    have hspelled : platform.uuid intentId = intentId :=
      hcanonical.resolve_left (by rw [hrefl]; exact fun h => by cases h)
    have hthis : found = contributionRow platform intentId one.contribution one.id sequence := by
      rcases hwhich with hsameId | ⟨hintent, hkey⟩
      · exact hcontributions.ids.eq hmem hrow hsameId
      · exact hcontributions.keys found hmem _ hrow hintent hkey
    refine ⟨hchanges, .repeated found, ?_, hthis⟩
    rw [houtcome, repeatedContribution, hthis]
    exact if_pos ⟨hspelled, rfl, rfl, rfl, hpayload⟩
  · intro hdifferent
    refine ⟨"Contribution ID conflicts with another request.", ?_⟩
    rw [houtcome, repeatedContribution]
    refine if_neg fun hsame => ?_
    obtain ⟨hintent, hkind, hkind', htext, hdeep⟩ := hsame
    have hthis : found = contributionRow platform intentId one.contribution one.id sequence := by
      refine hcontributions.ids.eq hmem hrow ?_
      rcases hwhich with hsameId | ⟨-, hkey⟩
      · exact hsameId.trans hid.symm
      · rcases hcontributions.given found hmem with hsystem | hgiven
        · rw [hsystem] at hkind
          cases hkind
        · rw [hgiven, hkey]
          exact hid.symm
    rw [hthis] at hintent hkind hkind' htext hdeep
    have hintents : platform.uuid intentId = platform.uuid intentId' := by
      rw [← hintent]
      exact (platform.uuid_uuid intentId).symm
    have hpayloads : platform.isDeepStrictEqual one.payload other.payload = true :=
      platform.equivalence.trans (platform.equivalence.symm hpayload) hdeep
    have hkinds : one.contributorKind = other.contributorKind := Contributor.kind.inj hkind
    have hkind'' : one.kind = other.kind := hkind'
    have htexts : one.text = other.text := htext
    have hsameContent : Command.sameContent platform (.append intentId one) (.append intentId' other) = true := by
      simp [Command.sameContent, hintents, hkinds, hkind'', htexts, hpayloads]
    rw [hsameContent] at hdifferent
    cases hdifferent

theorem retry_merge {targetId targetId' : String} {one other : MergeCommand}
    (hcommitted : committed.command = .merge targetId one) (hcommand : call.command = .merge targetId' other)
    (hid : platform.uuid one.commandId = platform.uuid other.commandId) :
    Retried platform committed call answer changes outcome := by
  rw [Left, hcommitted] at hleft
  obtain ⟨hvalid, hcanonical, ⟨first, rfl, hfirst⟩, hrow⟩ := hleft
  rw [Replays, hcommand] at hreplays
  rw [Undisturbed, hcommitted, hcommand] at hundisturbed
  dsimp only at hundisturbed
  rw [hid] at hrow
  have hanswered := hreplays _ hrow
  rw [Retried, hcommitted, hcommand]
  constructor
  · intro hsame
    cases hsame
    have hrefl : Command.sameContent platform (.merge targetId one) (.merge targetId one) = true := by
      simp [Command.sameContent, List.isPerm_iff]
    rw [if_pos hrefl, Bool.and_eq_true, decide_eq_true_eq] at hundisturbed
    obtain ⟨hlooked, hdetail⟩ := hundisturbed
    obtain ⟨detail, hdetail⟩ := Option.isSome_iff_exists.mp hdetail
    have hrepeats : (one.row platform targetId).Repeats targetId one :=
      ⟨hcanonical, rfl, List.isPerm_iff.mpr (List.Perm.refl _)⟩
    rcases hanswered with ⟨hmissed, -⟩ | ⟨hchanges, ⟨-, hinvalid⟩ | ⟨-, houtcome⟩⟩
    · exact absurd hmissed hlooked
    · exact absurd hvalid hinvalid
    · refine ⟨hchanges, .mergedBefore detail, ?_, ((detail?_id hdetail).trans hcanonical).trans hfirst.symm⟩
      rw [houtcome, mergedBefore, if_neg (not_not.mpr hrepeats), hdetail]
  · intro hdifferent
    have hnot : Command.sameContent platform (.merge targetId one) (.merge targetId' other) = false := hdifferent
    rw [hnot] at hundisturbed
    rcases hanswered with ⟨hmissed, hconflict | hfits⟩ | ⟨-, ⟨hconflict, -⟩ | ⟨hvalid', houtcome⟩⟩
    · exact hconflict
    · simp [hmissed, hfits] at hundisturbed
    · exact hconflict
    · refine ⟨_, houtcome.trans (if_pos fun hrepeats => ?_)⟩
      obtain ⟨htarget, hversion, hsources⟩ := hrepeats
      have htargets : targetId = targetId' := hcanonical.symm.trans htarget
      have hids : one.id = other.id := by
        rw [not_not.mp (not_or.mp hvalid.1).1, not_not.mp (not_or.mp hvalid'.1).1, htargets]
      have hversions : one.expectedVersion = other.expectedVersion := hversion
      have hperm : one.sourceVersions.isPerm other.sourceVersions = true := hsources
      have hsame : Command.sameContent platform (.merge targetId one) (.merge targetId' other) = true := by
        simp only [Command.sameContent, htargets, hids, hversions, hperm, decide_true, Bool.and_true]
      rw [hsame] at hnot
      cases hnot

theorem retry_answered (hcontributions : ContributionsSound platform s.db)
    (hid : committed.command.sameId platform call.command = true) :
    Retried platform committed call answer changes outcome := by
  generalize hcommitted : committed.command = one at hid
  generalize hcommand : call.command = other at hid
  unfold Command.sameId at hid
  split at hid
  · exact retry_create hleft hreplays hundisturbed hcommitted hcommand (of_decide_eq_true hid)
  · exact retry_append hleft hreplays hundisturbed hcommitted hcommand hcontributions (of_decide_eq_true hid)
  · exact retry_merge hleft hreplays hundisturbed hcommitted hcommand (of_decide_eq_true hid)
  · cases hid

end Retries

/-! ## Runs -/

def RetriesAnswered (platform : IntentPlatform) (actions : List (Action Call)) : Prop :=
  ∀ before action after s, actions = before ++ action :: after →
    run (storeStep platform) Store.idle before = some s → RetryAnswered platform s action

theorem retry_step {platform : IntentPlatform} {actions : List (Action Call)} {action : Action Call} {s s' : Store}
    (hrun : run (storeStep platform) Store.idle actions = some s) (hstep : storeStep platform s action = some s')
    (hundisturbed : retriesUndisturbed platform s action = true) : RetryAnswered platform s action := by
  obtain ⟨hsound, hserial⟩ := (System.Sound.idle Db.empty).run (transaction_specified platform) hrun
  have htraced := traced_run hserial traced_empty
  obtain ⟨-, -, hgood⟩ := hsound.step (transaction_specified platform) hstep
  intro settlement hsettled call answer hcommitted heffective hsubject hid
  rw [retriesUndisturbed, hsettled, Option.all_some, List.all_eq_true] at hundisturbed
  have hcondition := hundisturbed _ hcommitted
  simp only [heffective, hsubject, hid, decide_true, Bool.and_self, Bool.not_true, Bool.false_or] at hcondition
  exact retry_answered (htraced.left call answer hcommitted heffective) (hgood settlement hsettled) hcondition
    htraced.contributions hid

/-- In a run in which nothing disturbs what is sent again, it is answered as it was and changes nothing. -/
theorem commands_retried (platform : IntentPlatform) (actions : List (Action Call)) (s : Store)
    (hundisturbed : along (storeStep platform) (retriesUndisturbed platform) Store.idle actions = true)
    (hrun : run (storeStep platform) Store.idle actions = some s) : RetriesAnswered platform actions := by
  intro before action after w hsplit hbefore
  subst hsplit
  have hfrom := along_split hundisturbed hbefore
  rw [run_append, hbefore, Option.bind_some] at hrun
  obtain ⟨next, hnext, -⟩ := run_cons hrun
  exact retry_step hbefore hnext (along_cons hfrom).1

/-- A create, an append and a merge are each sent twice. -/
def retriedRun : List (Action Call) :=
  sends 0 (plainCreate "a" "One") "c1" 2 ++ [.commit 0] ++ sends 1 (plainCreate "a" "One") "c2" 2 ++ [.commit 1] ++
    sends 2 (plainAppend "a" "c3") "" 4 ++ [.commit 2] ++ sends 3 (plainAppend "a" "c3") "" 2 ++ [.commit 3] ++
    sends 4 (plainCreate "b" "Two") "c4" 2 ++ [.commit 4] ++
    sends 5 (.merge "b" ⟨"b", 1, "m", [⟨"a", 2⟩]⟩) "c5" 10 ++ [.commit 5] ++
    sends 6 (.merge "b" ⟨"b", 1, "m", [⟨"a", 2⟩]⟩) "c6" 2

theorem commands_retried_twice :
    ∃ s, run (storeStep plainPlatform) Store.idle retriedRun = some s ∧ RetriesAnswered plainPlatform retriedRun := by
  have hrun : (run (storeStep plainPlatform) Store.idle retriedRun).isSome = true := by decide +kernel
  obtain ⟨s, hs⟩ := Option.isSome_iff_exists.mp hrun
  exact ⟨s, hs, commands_retried plainPlatform retriedRun s (by decide +kernel) hs⟩

def Command.created? : Command → Option CreateIntent
  | .create input => some input
  | _ => none

theorem Command.created?_eq {command : Command} {input : CreateIntent} (h : command.created? = some input) :
    command = .create input := by
  cases command <;> cases h
  rfl

/-- An intent is created and its title changed. -/
def retitledRun : List (Action Call) :=
  sends 0 (plainCreate "a" "One") "c1" 2 ++ [.commit 0] ++
    sends 1 (.update "a" ⟨1, some "Other", none, none, none, false, none, none⟩) "" 1 ++ [.commit 1] ++
    sends 2 (plainCreate "a" "One") "c2" 1

/-- A create that is sent again after the title has changed is refused. -/
theorem retitled_create_refused :
    (∃ s, run (storeStep plainPlatform) Store.idle (retitledRun ++ [.advance 2]) = some s) ∧
      ¬RetriesAnswered plainPlatform (retitledRun ++ [.advance 2]) := by
  have hrun : (run (storeStep plainPlatform) Store.idle (retitledRun ++ [.advance 2])).isSome = true := by
    decide +kernel
  refine ⟨Option.isSome_iff_exists.mp hrun, fun h => ?_⟩
  have hprobe : (run (storeStep plainPlatform) Store.idle retitledRun).any (fun w =>
      (w.settled postgres (transaction plainPlatform) (.advance 2)).any fun settlement =>
        w.journal.head?.any fun entry =>
          settlement.call.command.created? = some ⟨"a", "One", "intent", "Conversation", none, none⟩ &&
            entry.1.command.created? = some ⟨"a", "One", "intent", "Conversation", none, none⟩ &&
            entry.1.subjectId = settlement.call.subjectId &&
            (match entry.2 with | .ok answer => answer.effective | .error _ => false) &&
            (match settlement.outcome with | .ok _ => false | .error _ => true)) = true := by decide +kernel
  obtain ⟨w, hw, hw'⟩ := (Option.any_eq_true _ _).mp hprobe
  obtain ⟨settlement, hsettled, hw''⟩ := (Option.any_eq_true _ _).mp hw'
  obtain ⟨⟨call, outcome⟩, hentry, hall⟩ := (Option.any_eq_true _ _).mp hw''
  simp only [Bool.and_eq_true, decide_eq_true_eq] at hall
  obtain ⟨⟨⟨⟨hcommand, hcommitted⟩, hsubject⟩, heffective⟩, hfailed⟩ := hall
  have hsame := (Command.created?_eq hcommand).trans (Command.created?_eq hcommitted).symm
  cases outcome with
  | error error => cases heffective
  | ok answer =>
    have hanswered := h retitledRun (.advance 2) [] w rfl hw settlement hsettled call answer
      (List.mem_of_mem_head? hentry) heffective hsubject
      (by rw [Command.created?_eq hcommand, Command.created?_eq hcommitted]; decide)
    obtain ⟨-, again, houtcome, -⟩ := hanswered.1 hsame
    rw [houtcome] at hfailed
    cases hfailed

end AvenOS.IntentService
