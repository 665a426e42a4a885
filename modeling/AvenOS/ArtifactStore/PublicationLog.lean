import AvenOS.ArtifactStore.GraphRun

/-! # The log of a scope

The publications of a scope are numbered without a gap, in the order in which they were committed. -/
namespace AvenOS.ArtifactStore
open Transactions KeyedTable

def StoreEvent.prepared? : StoreEvent → Option PreparedPublication
  | .published prepared => some prepared
  | .uploaded .. => none

def CommittedAs (prepared : PreparedPublication) (row : PublicationRow) : Prop :=
  ∃ now epoch sequence, row = publicationRow prepared (publicationResult now epoch sequence prepared)

def Db.sequences (db : Db) (scopeId : Uuid) : List ℤ :=
  (db.publications.filter fun row => row.scopeId = scopeId).map PublicationRow.scopeSequence

/-- The table of publications is what was committed, the earliest first, and each scope counts its own. -/
structure Logged (db : Db) (events : List StoreEvent) : Prop where
  committed : List.Forall₂ CommittedAs (events.filterMap StoreEvent.prepared?).reverse db.publications
  numbered : ∀ scope ∈ db.scopes, ∃ n : ℕ, scope.nextSequence = n ∧
    db.sequences scope.id = (List.range' 1 n).map Nat.cast

section Run
variable {kernel : Kernel} {catalogs : TypeCatalog → Prop} {start db last : Db} {past : List Db}
  {events added : List StoreEvent} {prepared again : PreparedPublication}

theorem Logged.same (h : Logged db events) (hsame : SameGraph db last)
    (hnone : ∀ prepared, .published prepared ∉ added) : Logged last (added ++ events) := by
  have hadded : added.filterMap StoreEvent.prepared? = [] := by
    refine List.filterMap_eq_nil_iff.mpr fun event hevent => ?_
    cases event with
    | published prepared => exact absurd hevent (hnone prepared)
    | uploaded => rfl
  refine ⟨?_, fun scope hscope => ?_⟩
  · rw [List.filterMap_append, hadded, hsame.publications]
    exact h.committed
  · rw [Db.sequences, hsame.publications]
    exact h.numbered scope (hsame.scopes ▸ hscope)

theorem sequences_concat (row : PublicationRow) (hpublications : last.publications = db.publications ++ [row])
    (scopeId : Uuid) : last.sequences scopeId =
      db.sequences scopeId ++ if row.scopeId = scopeId then [row.scopeSequence] else [] := by
  rw [Db.sequences, hpublications, List.filter_append, List.map_append, ← Db.sequences, List.filter_singleton]
  by_cases hscope : row.scopeId = scopeId <;> simp [hscope]

theorem Logged.counted (h : Logged db events) {scope other : ScopeRow} (hscope : scope ∈ db.scopes)
    (hother : other ∈ db.scopes) (hid : scope.id = other.id) : scope.nextSequence = other.nextSequence := by
  obtain ⟨n, hn, hsequences⟩ := h.numbered scope hscope
  obtain ⟨m, hm, hsequences'⟩ := h.numbered other hother
  rw [hid, hsequences'] at hsequences
  have hlength := congrArg List.length hsequences
  rw [List.length_map, List.length_map, List.length_range', List.length_range'] at hlength
  rw [hn, hm, hlength]

theorem Commits.logged (h : Commits kernel catalogs past db prepared last) (hlogged : Logged db events) :
    Logged last ([.published prepared] ++ events) := by
  cases h with
  | @intro _ now epoch _ _ prepared _ recorded last result _ _ _ _ hrecorded hconsumed =>
    have hsame := hconsumed.sameGraph
    obtain ⟨found, hfound, hresult⟩ := hrecorded.sequence
    have hpublications := hsame.publications.trans hrecorded.grown.publications
    refine ⟨?_, fun scope hscope => ?_⟩
    · rw [hpublications, List.filterMap_append, List.reverse_append]
      exact List.rel_append hlogged.committed (.cons ⟨now, epoch, _, by rw [hresult]⟩ .nil)
    · rw [hsame.scopes, hrecorded.grown.scopes] at hscope
      obtain ⟨old, hold, rfl⟩ := List.mem_map.mp hscope
      obtain ⟨n, hn, hsequences⟩ := hlogged.numbered old hold
      rw [sequences_concat _ hpublications, ScopeRow.set]
      by_cases hscope : old.id = prepared.submission.intent.scopeId
      · have hid : found.id = prepared.submission.intent.scopeId := by
          have hwanted := List.find?_some hfound
          exact of_decide_eq_true hwanted
        have hnext := hlogged.counted hold (List.mem_of_find?_eq_some hfound) (hscope.trans hid.symm)
        have hsequence : result.scopeSequence = ((n + 1 : ℕ) : ℤ) := by
          rw [hresult, publicationResult, ← hnext, hn]
          rfl
        refine ⟨n + 1, ?_, ?_⟩
        · rw [if_pos hscope]
          exact hsequence
        · rw [if_pos hscope, hsequences, List.range'_1_concat, List.map_append]
          refine congrArg _ ((if_pos hscope.symm).trans ?_)
          rw [publicationRow, hsequence, Nat.add_comm]
          rfl
      · rw [if_neg hscope, if_neg fun heq => hscope heq.symm, List.append_nil]
        exact ⟨n, hn, hsequences⟩

theorem StoreRun.logged (hblank : start.Blank) (hrun : StoreRun kernel catalogs start db past events) :
    Logged db events := by
  induction hrun with
  | start => exact ⟨by simp [hblank.publications], fun scope hscope =>
      ⟨0, hblank.scopes scope hscope, by simp [Db.sequences, hblank.publications]⟩⟩
  | step _ hstep ih =>
    rcases hstep.commits with ⟨hsame, hnone⟩ | ⟨prepared, rfl, hcommits⟩
    · exact ih.same hsame hnone
    · exact hcommits.logged ih

theorem publish_again (hgraph : Graph catalogs db) {row : PublicationRow} (hrow : row ∈ db.publications)
    (hid : publicationKey row = (again.submission.intent.scopeId, again.submission.intent.publicationId))
    {now : Timestamp} {epoch : Uuid} {admission : UploadAdmission} {result : PublicationResult}
    (h : (publish now epoch again admission).run postgres db = .ok (result, last)) :
    last = db ∧ result = { row.resultMapping with replayed := true } ∧ again.context.publisher = row.publisher ∧
      again.publicationRequestSha256 = row.publicationRequestSha256 := by
  have hfound : db.publication? again.submission.intent.scopeId again.submission.intent.publicationId = some row := by
    rw [publication?_lookup, ← hid]
    exact hgraph.publications.lookup hrow
  obtain ⟨-, -, hpublished⟩ := publish_ok h
  cases hpublished with
  | replayed hother hpublisher hdigest =>
    obtain rfl := Option.some.inj (hother.symm.trans hfound)
    exact ⟨rfl, rfl, hpublisher.symm, hdigest.symm⟩
  | committed hnone => exact absurd (hnone.symm.trans hfound) (Option.some_ne_none _).symm

end Run

/-- In every state of every run the publications are those that were committed and each scope has numbered its own 1, 2, 3
and so on; what is accepted under the identifier of one of them is the same request, changes nothing and gets its answer. -/
theorem publications_logged {kernel : Kernel} {catalogs : TypeCatalog → Prop} {start db : Db} {past : List Db}
    {events : List StoreEvent} (hblank : start.Blank) (hrun : StoreRun kernel catalogs start db past events) :
    Logged db events ∧ ∀ prepared, .published prepared ∈ events → ∃ row ∈ db.publications, CommittedAs prepared row ∧
      ∀ again : PreparedPublication, again.submission.intent.scopeId = prepared.submission.intent.scopeId →
        again.submission.intent.publicationId = prepared.submission.intent.publicationId →
        ∀ now epoch admission result last, (publish now epoch again admission).run postgres db = .ok (result, last) →
          last = db ∧ result = { row.resultMapping with replayed := true } ∧
          again.context.publisher = prepared.context.publisher ∧
          again.publicationRequestSha256 = prepared.publicationRequestSha256 := by
  have hlogged := hrun.logged hblank
  refine ⟨hlogged, fun prepared hevent => ?_⟩
  have hmem : prepared ∈ (events.filterMap StoreEvent.prepared?).reverse :=
    List.mem_reverse.mpr (List.mem_filterMap.mpr ⟨_, hevent, rfl⟩)
  obtain ⟨row, hrow, hcommitted⟩ := ExceptLoop.forall₂_right hlogged.committed.flip hmem
  refine ⟨row, hrow, hcommitted, fun again hscope hid now epoch admission result last hpublish => ?_⟩
  obtain ⟨_, _, _, rfl⟩ := hcommitted
  exact publish_again (hrun.graph hblank).1 hrow (Prod.ext hscope.symm hid.symm) hpublish

theorem publications_logged_note : ∃ db past events,
    StoreRun plainKernel (· = ⟨[noteDefinition]⟩) (noteDb [] []) db past events ∧ db.artifacts ≠ [] ∧ Logged db events := by
  obtain ⟨digest, sha256, hprepare⟩ := stray_prepared
  obtain ⟨result, last, hpublish, hartifacts, -⟩ := stray_published digest sha256 [] []
  have hrun : StoreRun plainKernel (· = ⟨[noteDefinition]⟩) (noteDb [] []) last [noteDb [] []]
      ((if result.replayed then [] else [.published (strayPrepared digest sha256)]) ++ []) :=
    .step .start (.publish rfl (fun _ _ h => (by cases h)) hprepare hpublish)
  have hblank : (noteDb [] []).Blank := ⟨by decide, rfl, rfl, rfl, rfl, rfl, rfl, rfl, rfl⟩
  exact ⟨last, _, _, hrun, hartifacts, (publications_logged hblank hrun).1⟩

end AvenOS.ArtifactStore
