import AvenOS.StaticSites.SiteRun

/-! # Rows, listings and tasks

A proof that is on record was found for the binding as it stands, unless a report came too late. A task goes on under its own
hostname alone. -/
namespace AvenOS.StaticSites
open PosixPath KeyedTable

/-! ## Rows -/

/-- Ids and hostnames are unique, and a proof that is on record was found for the binding as it stands. -/
structure RowsHold (verified : List Verification) (rows : List SiteRow) : Prop where
  ids : Keyed SiteRow.id rows
  hostnames : Keyed SiteRow.hostname rows
  proofs : ∀ row ∈ rows, ∀ time, row.verifiedAt = some time → verification (listedBinding row) time ∈ verified

section Rows
variable {verified more : List Verification} {rows rows' : List SiteRow}

theorem RowsHold.mono (h : RowsHold verified rows) (hmore : verified ⊆ more) : RowsHold more rows :=
  ⟨h.ids, h.hostnames, fun row hrow time htime => hmore (h.proofs row hrow time htime)⟩

variable {id tokenHash : String}

variable {row : SiteRow} {subjectId : String} {input : SiteBindingDraft}

theorem conflicts_false {hostname repository artifactRef : String}
    (h : conflicts rows id hostname repository artifactRef = false) (hrow : row ∈ rows) (hid : row.id ≠ id) :
    row.hostname ≠ hostname := by
  have hnot := List.any_eq_false.mp h row hrow
  intro hsame
  exact hnot (by simp [hid, hsame])

theorem RowsHold.concat (h : RowsHold verified rows) (hid : (rows.any fun other => other.id == row.id) = false)
    (hhostname : ∀ other ∈ rows, other.hostname ≠ row.hostname) (hproof : row.verifiedAt = none) :
    RowsHold verified (rows ++ [row]) := by
  have hids : ∀ other ∈ rows, other.id ≠ row.id := fun other hother hsame =>
    List.any_eq_false.mp hid other hother (beq_iff_eq.mpr hsame)
  refine ⟨h.ids.concat hids, h.hostnames.concat hhostname, fun other hother time htime => ?_⟩
  rcases List.mem_append.mp hother with hother | hother
  · exact h.proofs other hother time htime
  · cases List.mem_singleton.mp hother
    rw [hproof] at htime
    cases htime

theorem RowsHold.create (h : RowsHold verified rows) (hcreate : create rows id subjectId tokenHash input = some rows') :
    RowsHold verified rows' := by
  unfold AvenOS.StaticSites.create at hcreate
  split at hcreate
  · cases hcreate
  · rename_i hfree
    cases hcreate
    obtain ⟨hid, hconflict⟩ := Bool.or_eq_false_iff.mp (Bool.eq_false_iff.mpr hfree)
    refine h.concat hid (fun other hother => conflicts_false hconflict hother fun hsame => ?_) rfl
    exact List.any_eq_false.mp hid other hother (beq_iff_eq.mpr hsame)

theorem RowsHold.update (h : RowsHold verified rows) (hupdate : update rows subjectId id tokenHash input = some rows') :
    RowsHold verified rows' := by
  unfold AvenOS.StaticSites.update at hupdate
  split at hupdate
  · cases hupdate
  · rename_i hfree
    cases hupdate
    have hconflict := (Bool.or_eq_false_iff.mp (Bool.eq_false_iff.mpr hfree)).2
    have hkeep : ∀ row : SiteRow, (if ownedBy subjectId id row then editedRow tokenHash input row else row).id = row.id := by
      intro row
      split <;> rfl
    refine ⟨h.ids.map hkeep, ?_, fun row hrow time htime => ?_⟩
    · unfold Keyed
      rw [List.map_map]
      refine List.Nodup.map_on (fun one hone other hother hsame => ?_) h.ids.of_map
      have hother' : ∀ row ∈ rows, ∀ edited ∈ rows, ownedBy subjectId id edited = true → ¬ ownedBy subjectId id row = true →
          row.hostname ≠ input.hostname := by
        intro row hrow edited hedited howned hnot
        refine conflicts_false hconflict hrow fun hid => hnot ?_
        have hedited' : edited.id = id := by
          unfold ownedBy at howned
          simp only [Bool.and_eq_true, beq_iff_eq] at howned
          exact howned.1.1
        rw [h.ids.eq hrow hedited (hid.trans hedited'.symm)]
        exact howned
      simp only [Function.comp_apply] at hsame
      by_cases h1 : ownedBy subjectId id one = true
      · by_cases h2 : ownedBy subjectId id other = true
        · unfold ownedBy at h1 h2
          simp only [Bool.and_eq_true, beq_iff_eq] at h1 h2
          exact h.ids.eq hone hother (h1.1.1.trans h2.1.1.symm)
        · rw [if_pos h1, if_neg h2] at hsame
          exact absurd hsame.symm (hother' other hother one hone h1 h2)
      · by_cases h2 : ownedBy subjectId id other = true
        · rw [if_neg h1, if_pos h2] at hsame
          exact absurd hsame (hother' one hone other hother h2 h1)
        · rw [if_neg h1, if_neg h2] at hsame
          exact h.hostnames.eq hone hother hsame
    · obtain ⟨old, hold, rfl⟩ := List.mem_map.mp hrow
      split at htime
      · cases htime
      · rename_i howned
        rw [if_neg howned]
        exact h.proofs old hold time htime

theorem RowsHold.remove (subjectId id : String) (h : RowsHold verified rows) : RowsHold verified (remove rows subjectId id) :=
  ⟨(List.filter_sublist.map _).nodup h.ids, (List.filter_sublist.map _).nodup h.hostnames,
    fun row hrow => h.proofs row (List.mem_of_mem_filter hrow)⟩

theorem RowsHold.seed {site : SiteBindingDraft} (h : RowsHold verified rows)
    (hseed : seed rows id tokenHash site = some rows') : RowsHold verified rows' := by
  unfold AvenOS.StaticSites.seed at hseed
  split at hseed
  · cases hseed
  · split at hseed
    · split at hseed
      · cases hseed
      · cases hseed
        refine ⟨?_, h.hostnames.modify fun _ => rfl, fun row hrow time htime => ?_⟩
        · unfold Keyed
          rw [KeyedTable.modify, List.map_map, show (SiteRow.id ∘ fun row => if row.hostname = site.hostname then reseededRow site row else row) =
            SiteRow.id from funext fun row => by simp only [Function.comp_apply]; split <;> rfl]
          exact h.ids
        · obtain ⟨old, hold, ⟨-, rfl⟩ | ⟨-, rfl⟩⟩ := mem_modify hrow
          · exact h.proofs old hold time htime
          · exact h.proofs row hold time htime
    · rename_i hnone
      split at hseed
      · cases hseed
      · rename_i hfree
        cases hseed
        exact h.concat (Bool.or_eq_false_iff.mp (Bool.eq_false_iff.mpr hfree)).1 (fun other hother => lookup_none hnone hother) rfl

theorem RowsHold.received {s : Sites} (h : RowsHold s.verified s.rows) {sent : SentReport} (index : ℕ)
    (hid : sent.report.id = sent.binding.id)
    (hreaches : sent.report.dnsVerified = true → ∀ row ∈ s.rows, row.id = sent.report.id →
      row.hostname = sent.binding.hostname ∧ row.verificationTokenHash = sent.binding.verification_token_hash) :
    RowsHold (s.received index sent).verified (s.received index sent).rows := by
  have hgrown : s.verified ⊆ (s.received index sent).verified := by
    dsimp only [Sites.received]
    split
    · exact List.subset_append_left _ _
    · exact List.Subset.refl _
  refine ⟨?_, ?_, ?_⟩
  · dsimp only [Sites.received, report]
    split
    · exact h.ids.modify fun _ => rfl
    · exact h.ids
  · dsimp only [Sites.received, report]
    split
    · unfold Keyed
      rw [KeyedTable.modify, List.map_map, show (SiteRow.hostname ∘ fun row => if row.id = sent.report.id then
        reportedRow s.clock sent.report row else row) = SiteRow.hostname from funext fun row => by
          simp only [Function.comp_apply]; split <;> rfl]
      exact h.hostnames
    · exact h.hostnames
  · intro row hrow time htime
    change row ∈ report s.rows s.clock sent.report at hrow
    unfold report at hrow
    split at hrow
    · rename_i hadmitted
      obtain ⟨old, hold, ⟨hsame, rfl⟩ | ⟨-, rfl⟩⟩ := mem_modify hrow
      · cases hverified : sent.report.dnsVerified with
        | true =>
          dsimp only [reportedRow] at htime
          rw [hverified, if_pos rfl] at htime
          cases htime
          obtain ⟨hhostname, htoken⟩ := hreaches hverified old hold hsame
          have hrecords : s.recordsProof sent.report = true := by
            rw [Sites.recordsProof, hverified, hadmitted, Bool.and_self, Bool.true_and]
            exact List.any_eq_true.mpr ⟨old, hold, beq_iff_eq.mpr hsame⟩
          have hlisted : verification (listedBinding (reportedRow s.clock sent.report old)) s.clock =
              verification sent.binding s.clock := by
            simp only [verification, listedBinding, reportedRow, hsame, hid, hhostname, htoken]
          rw [hlisted]
          dsimp only [Sites.received]
          rw [if_pos hrecords]
          exact List.mem_append_right _ List.mem_cons_self
        | false =>
          dsimp only [reportedRow] at htime
          rw [hverified, if_neg Bool.false_ne_true] at htime
          exact hgrown (h.proofs old hold time htime)
      · exact hgrown (h.proofs row hold time htime)
    · exact hgrown (h.proofs row hrow time htime)

end Rows

/-! ## Listings and tasks -/

/-- Hostnames are unique, and a proof that a listing shows was found for what it lists. -/
structure Listed (verified : List Verification) (bindings : List DirectoryBinding) : Prop where
  hostnames : Keyed DirectoryBinding.hostname bindings
  proofs : ∀ binding ∈ bindings, ∀ time, binding.verified_at = some time → verification binding time ∈ verified

theorem RowsHold.directory {verified : List Verification} {rows : List SiteRow} (platform : SitePlatform)
    (h : RowsHold verified rows) : Listed verified (directory platform rows) := by
  have hperm := StableSort.sortBy_perm (fun row other => platform.collate row.hostname other.hostname)
    (rows.filter fun row => row.desiredStatus == .active)
  refine ⟨?_, fun binding hbinding time htime => ?_⟩
  · unfold Keyed AvenOS.StaticSites.directory
    rw [List.map_map]
    exact (hperm.map _).nodup_iff.mpr ((List.filter_sublist.map _).nodup h.hostnames)
  · obtain ⟨row, hrow, rfl⟩ := List.mem_map.mp hbinding
    exact h.proofs row (List.mem_of_mem_filter (hperm.mem_iff.mp hrow)) time htime

structure Sites.Grown (s s' : Sites) : Prop where
  clock : s.clock ≤ s'.clock
  verified : s.verified ⊆ s'.verified
  released : s.released ⊆ s'.released

theorem Sites.Proved.mono {config : SiteHostConfig} {s s' : Sites} {started : ℕ} {binding : DirectoryBinding}
    (h : s.Proved config started binding) (hgrown : s.Grown s') : s'.Proved config started binding := by
  obtain ⟨checkedAt, verifiedAt, hstarted, hclock, hverified, hgrace⟩ := h
  exact ⟨checkedAt, verifiedAt, hstarted, hclock.trans hgrown.clock, hgrown.verified hverified, hgrace⟩

theorem Listed.mono {verified more : List Verification} {bindings : List DirectoryBinding} (h : Listed verified bindings)
    (hmore : verified ⊆ more) : Listed more bindings :=
  ⟨h.hostnames, fun binding hbinding time htime => hmore (h.proofs binding hbinding time htime)⟩

def Sites.Settled (config : SiteHostConfig) (s : Sites) (active : List ActiveSite) (started : ℕ) (binding : DirectoryBinding) :
    Prop :=
  ∀ site ∈ active, site.hostname = binding.hostname → site.binding.id = binding.id ∧ s.Proved config started binding

/-- A reconciliation under way. -/
structure Sites.Syncing (config : SiteHostConfig) (s : Sites) (active : List ActiveSite) (tasks : List SyncTask) (started : ℕ) :
    Prop where
  begun : started ≤ s.clock
  listed : Listed s.verified (tasks.map SyncTask.binding)
  configured : ∀ site ∈ active, ∃ task ∈ tasks, valid task.binding = true ∧ task.binding.hostname = site.hostname
  proved : ∀ task ∈ tasks, task.progress = .syncing → valid task.binding = true ∧ s.Proved config started task.binding
  settled : ∀ task ∈ tasks, task.progress = .done → s.Settled config active started task.binding

section Tasks
variable {config : SiteHostConfig} {s s' : Sites} {active active' : List ActiveSite} {tasks : List SyncTask} {started : ℕ}

variable {binding : DirectoryBinding} {index : ℕ}

theorem Sites.Settled.mono (h : s.Settled config active started binding) (hgrown : s.Grown s')
    (hactive : ∀ site ∈ active', site ∈ active) : s'.Settled config active' started binding := by
  intro site hsite hhostname
  obtain ⟨hid, hproved⟩ := h site (hactive site hsite) hhostname
  exact ⟨hid, hproved.mono hgrown⟩

theorem Sites.Syncing.mono (h : s.Syncing config active tasks started) (hgrown : s.Grown s') :
    s'.Syncing config active tasks started where
  begun := h.begun.trans hgrown.clock
  listed := h.listed.mono hgrown.verified
  configured := h.configured
  proved := fun task htask hprogress => ⟨(h.proved task htask hprogress).1, (h.proved task htask hprogress).2.mono hgrown⟩
  settled := fun task htask hprogress => (h.settled task htask hprogress).mono hgrown fun _ hsite => hsite

theorem Sites.Syncing.hostnames (h : s.Syncing config active tasks started) :
    Keyed (fun task : SyncTask => task.binding.hostname) tasks := by
  have hkeyed := h.listed.hostnames
  rw [Keyed, List.map_map] at hkeyed
  exact hkeyed

theorem Sites.Syncing.set (h : s.Syncing config active tasks started) (hgrown : s.Grown s') {progress next : Progress} (htask : tasks[index]? = some ⟨binding, progress⟩)
    (hopen : progress ≠ .done) (verifiedAt : Option ℕ)
    (hproof : ∀ time, verifiedAt = some time → verification binding time ∈ s'.verified)
    (hactive : ∀ site ∈ active', site ∈ active ∨ site.hostname = binding.hostname ∧ valid binding = true)
    (hproved : next = .syncing → valid binding = true ∧ s'.Proved config started binding)
    (hsettled : next = .done → s'.Settled config active' started binding) :
    s'.Syncing config active' (tasks.set index ⟨{ binding with verified_at := verifiedAt }, next⟩) started := by
  have hmem := List.mem_of_getElem? htask
  have hlength : index < tasks.length := (List.getElem?_eq_some_iff.mp htask).1
  have hat : tasks[index] = ⟨binding, progress⟩ := (List.getElem?_eq_some_iff.mp htask).2
  refine ⟨h.begun.trans hgrown.clock, ⟨?_, fun other hother time htime => ?_⟩, fun site hsite => ?_, fun task hin hprogress => ?_,
    fun task hin hprogress => ?_⟩
  · have hsame : (tasks.set index ⟨{ binding with verified_at := verifiedAt }, next⟩).map (fun task => task.binding.hostname) =
        tasks.map fun task => task.binding.hostname := by
      rw [List.map_set]
      refine List.ext_getElem (by rw [List.length_set]) fun k hk _ => ?_
      rw [List.getElem_set]
      split
      · rename_i heq
        subst heq
        rw [List.getElem_map, hat]
      · rfl
    rw [Keyed, List.map_map]
    exact hsame ▸ h.hostnames
  · obtain ⟨task, hin, rfl⟩ := List.mem_map.mp hother
    rcases List.mem_or_eq_of_mem_set hin with hin | rfl
    · exact hgrown.verified (h.listed.proofs _ (List.mem_map_of_mem hin) time htime)
    · exact hproof time htime
  · have hset := List.mem_set hlength (a := (⟨{ binding with verified_at := verifiedAt }, next⟩ : SyncTask))
    rcases hactive site hsite with hold | ⟨hhostname, hvalid⟩
    · obtain ⟨task, hin, hvalid, hhostname⟩ := h.configured site hold
      obtain ⟨k, hk, rfl⟩ := List.mem_iff_getElem.mp hin
      by_cases heq : index = k
      · subst heq
        rw [hat] at hvalid hhostname
        exact ⟨_, hset, hvalid, hhostname⟩
      · refine ⟨tasks[k], List.mem_iff_getElem.mpr ⟨k, by rw [List.length_set]; exact hk, ?_⟩, hvalid, hhostname⟩
        rw [List.getElem_set, if_neg heq]
    · exact ⟨_, hset, hvalid, hhostname.symm⟩
  · rcases List.mem_or_eq_of_mem_set hin with hin | rfl
    · exact ⟨(h.proved task hin hprogress).1, (h.proved task hin hprogress).2.mono hgrown⟩
    · exact hproved hprogress
  · rcases List.mem_or_eq_of_mem_set hin with hin | rfl
    · intro site hsite hhostname
      rcases hactive site hsite with hold | ⟨hown, -⟩
      · obtain ⟨hid, hdone⟩ := h.settled task hin hprogress site hold hhostname
        exact ⟨hid, hdone.mono hgrown⟩
      · have hsame := h.hostnames.eq hin hmem (hhostname.symm.trans hown)
        rw [hsame] at hprogress
        exact absurd hprogress hopen
    · exact hsettled hprogress

variable {answers : DnsAnswers} {host : StaticSiteHost}

theorem checkBinding_valid {platform : SitePlatform} (h : checkBinding platform config binding answers = .verified) :
    valid binding = true := by
  unfold checkBinding at h
  split at h
  · cases h
  · rename_i hvalid
    rw [valid, hvalid]
    rfl

theorem mem_setActive {site other : ActiveSite} (h : other ∈ setActive site active) :
    other = site ∨ other ∈ active ∧ other.hostname ≠ site.hostname := by
  unfold setActive at h
  split at h
  · obtain ⟨old, hold, rfl⟩ := List.mem_map.mp h
    split
    · exact .inl rfl
    · rename_i hother
      exact .inr ⟨hold, fun hsame => hother (beq_iff_eq.mpr hsame)⟩
  · rename_i hnone
    rcases List.mem_append.mp h with hold | hnew
    · exact .inr ⟨hold, fun hsame => hnone (List.any_eq_true.mpr ⟨other, hold, beq_iff_eq.mpr hsame⟩)⟩
    · exact .inl (List.mem_singleton.mp hnew)

theorem Sites.Syncing.check (platform : SitePlatform) (h : s.Syncing config host.active tasks started)
    (htask : tasks[index]? = some ⟨binding, .waiting⟩)
    (hown : keptOwn config s.clock binding host.active (checkBinding platform config binding answers) = true) :
    let t := s.checkTask platform config host tasks started index binding answers
    let c := checked config s.clock binding host.active (checkBinding platform config binding answers)
    t.Syncing config c.1 (tasks.set index c.2.1) started := by
  intro t c
  have hlisted : ∀ time, binding.verified_at = some time → verification binding time ∈ s.verified :=
    h.listed.proofs _ (List.mem_map_of_mem (List.mem_of_getElem? htask))
  have hrecent : ∀ time, binding.verified_at = some time → gracePassed config s.clock binding = false →
      s.Proved config started binding := by
    intro time htime hgrace
    refine ⟨s.clock, time, h.begun, Nat.le_refl _, hlisted time htime, ?_⟩
    rw [gracePassed, htime, Option.getD_some] at hgrace
    exact Nat.le_of_not_lt (of_decide_eq_false hgrace)
  have hgrown : s.Grown t := by
    refine ⟨Nat.le_refl _, ?_, List.Subset.refl _⟩
    dsimp only [t, Sites.checkTask]
    split
    · exact List.subset_append_left _ _
    · exact List.Subset.refl _
  cases hcheck : checkBinding platform config binding answers with
  | failed message =>
    rw [hcheck] at hown
    have hc : c = (host.active, ⟨binding, .done⟩, failedReport binding message) := by simp only [c, hcheck, checked]
    rw [hc]
    refine h.set hgrown htask (by decide) binding.verified_at (fun time htime => hgrown.verified (hlisted time htime))
      (fun site hsite => .inl hsite) (fun hnext => by cases hnext) fun _ site hsite hhostname => ?_
    have hsite' := List.all_eq_true.mp hown site hsite
    simp only [hhostname, bne_self_eq_false, Bool.false_or, Bool.and_eq_true, beq_iff_eq, Bool.not_eq_true'] at hsite'
    obtain ⟨⟨hid, hverified⟩, hgrace⟩ := hsite'
    obtain ⟨time, htime⟩ := Option.isSome_iff_exists.mp hverified
    exact ⟨hid, (hrecent time htime hgrace).mono hgrown⟩
  | invalid reason =>
    rw [hcheck] at hown
    have hc : c = (if gracePassed config s.clock binding then deleteActive binding.hostname host.active else host.active,
        ⟨binding, .done⟩, ⟨binding.id, .dnsInvalid, some reason, none, none, false⟩) := by simp only [c, hcheck, checked]
    rw [hc]
    refine h.set hgrown htask (by decide) binding.verified_at (fun time htime => hgrown.verified (hlisted time htime))
      (fun site hsite => .inl ?_) (fun hnext => by cases hnext) fun _ site hsite hhostname => ?_
    · dsimp only at hsite
      split at hsite
      · exact List.mem_of_mem_filter hsite
      · exact hsite
    · dsimp only at hsite
      split at hsite
      · have hother := (List.mem_filter.mp hsite).2
        rw [hhostname, bne_self_eq_false] at hother
        cases hother
      · rename_i hgrace
        have hgrace' := Bool.eq_false_iff.mpr hgrace
        dsimp only [keptOwn] at hown
        rw [hgrace', Bool.false_or] at hown
        have hsite' := List.all_eq_true.mp hown site hsite
        simp only [hhostname, bne_self_eq_false, Bool.false_or, Bool.and_eq_true, beq_iff_eq] at hsite'
        obtain ⟨time, htime⟩ := Option.isSome_iff_exists.mp hsite'.2
        exact ⟨hsite'.1, (hrecent time htime hgrace').mono hgrown⟩
  | verified =>
    have hfound : verification binding s.clock ∈ t.verified := by
      dsimp only [t, Sites.checkTask]
      rw [hcheck, if_pos rfl]
      exact List.mem_append_right _ List.mem_cons_self
    have hc : c = (host.active, ⟨{ binding with verified_at := some s.clock }, .syncing⟩,
        ⟨binding.id, .syncing, none, none, none, true⟩) := by simp only [c, hcheck, checked]
    rw [hc]
    refine h.set hgrown htask (by decide) (some s.clock) (fun time htime => ?_) (fun site hsite => .inl hsite) (fun _ => ?_)
      fun hnext => by cases hnext
    · cases htime
      exact hfound
    · exact ⟨checkBinding_valid hcheck, s.clock, s.clock, h.begun, Nat.le_refl _, hfound,
        by rw [Nat.sub_self]; exact Nat.zero_le _⟩

theorem Sites.Syncing.materialize (h : s.Syncing config host.active tasks started)
    (htask : tasks[index]? = some ⟨binding, .syncing⟩) (outcome : Except String Release)
    (hown : ∀ message, outcome = .error message → ∀ site ∈ host.active, site.hostname = binding.hostname →
      site.binding.id = binding.id) :
    (s.materializeTask config host tasks started index binding outcome).Syncing config (synced config binding host.active outcome).1
      (tasks.set index ⟨binding, .done⟩) started := by
  have hlisted : ∀ time, binding.verified_at = some time → verification binding time ∈ s.verified :=
    h.listed.proofs _ (List.mem_map_of_mem (List.mem_of_getElem? htask))
  obtain ⟨hvalid, hproved⟩ := h.proved _ (List.mem_of_getElem? htask) rfl
  have hgrown : s.Grown (s.materializeTask config host tasks started index binding outcome) := by
    refine ⟨Nat.le_refl _, List.Subset.refl _, ?_⟩
    cases outcome with
    | error message => exact List.Subset.refl _
    | ok release => exact List.subset_append_left _ _
  have hproved' := hproved.mono hgrown
  refine h.set hgrown htask (by decide) binding.verified_at hlisted (fun site hsite => ?_) (fun hnext => by cases hnext)
    fun _ site hsite hhostname => ⟨?_, hproved'⟩
  · cases outcome with
    | error message => exact .inl hsite
    | ok release =>
      rcases mem_setActive hsite with rfl | ⟨hold, -⟩
      · exact .inr ⟨rfl, hvalid⟩
      · exact .inl hold
  · cases outcome with
    | error message => exact hown message rfl site hsite hhostname
    | ok release =>
      rcases mem_setActive hsite with rfl | ⟨-, hother⟩
      · rfl
      · exact absurd hhostname hother

end Tasks

end AvenOS.StaticSites
