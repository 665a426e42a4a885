import AvenOS.StaticSites.SyncTasks

/-! # A hostname is served from its own binding

What every run keeps: every active site is of a release of its binding, and after a reconciliation it is of the binding that
was listed for its hostname. -/
namespace AvenOS.StaticSites
open PosixPath LabelledRun

/-! ## What every run keeps -/

/-- Listings and sites of the dates that a reconciliation goes through. -/
def Sites.Phase (config : SiteHostConfig) (s : Sites) (host : StaticSiteHost) : Prop :=
  match host.reconciling with
  | .idle => True
  | .listed bindings => Listed s.verified bindings
  | .syncing tasks started => s.completed = none ∧ s.Syncing config host.active tasks started
  | .saved tasks started => s.completed = none ∧ s.Syncing config host.active tasks started ∧ allDone tasks = true

def Sites.Released (s : Sites) (sites : List ActiveSite) : Prop := ∀ site ∈ sites, (site.binding.id, site.root) ∈ s.released

def Sites.Reconciled (config : SiteHostConfig) (s : Sites) (done : Reconciliation) (active : List ActiveSite) : Prop :=
  ∀ site ∈ active, ∃ binding ∈ done.bindings, valid binding = true ∧ site.hostname = binding.hostname ∧
    site.binding.id = binding.id ∧ s.Proved config done.started binding

structure Sites.Kept (config : SiteHostConfig) (s : Sites) : Prop where
  rows : RowsHold s.verified s.rows
  reports : ∀ sent ∈ s.reports, sent.report.id = sent.binding.id
  persisted : ∀ sites, s.persisted = some sites → s.Released sites
  active : ∀ host, s.host = some host → s.Released host.active
  phase : ∀ host, s.host = some host → s.Phase config host
  completed : ∀ done host, s.completed = some done → s.host = some host → s.Reconciled config done host.active

section Runs
variable {platform : SitePlatform} {config : SiteHostConfig} {s s' : Sites}

theorem Sites.Kept.start : Sites.Kept config Sites.start where
  rows := ⟨.nil, .nil, fun _ hrow => absurd hrow List.not_mem_nil⟩
  reports := fun _ hsent => absurd hsent List.not_mem_nil
  persisted := fun _ h => by cases h
  active := fun _ h => by cases h
  phase := fun _ h => by cases h
  completed := fun _ _ h => by cases h

theorem Sites.Released.mono {sites : List ActiveSite} (h : s.Released sites) (hgrown : s.Grown s') : s'.Released sites :=
  fun site hsite => hgrown.released (h site hsite)

theorem Sites.Reconciled.mono {done : Reconciliation} {active : List ActiveSite} (h : s.Reconciled config done active)
    (hgrown : s.Grown s') : s'.Reconciled config done active := by
  intro site hsite
  obtain ⟨binding, hbinding, hvalid, hhostname, hid, hproved⟩ := h site hsite
  exact ⟨binding, hbinding, hvalid, hhostname, hid, hproved.mono hgrown⟩

variable {host : StaticSiteHost} {index : ℕ}

theorem Sites.Phase.mono (h : s.Phase config host) (hgrown : s.Grown s') (hcompleted : s'.completed = s.completed) :
    s'.Phase config host := by
  unfold Sites.Phase at h ⊢
  split at h
  · trivial
  · exact h.mono hgrown.verified
  · exact ⟨hcompleted.trans h.1, h.2.mono hgrown⟩
  · exact ⟨hcompleted.trans h.1, h.2.1.mono hgrown, h.2.2⟩

theorem Sites.Kept.outside (h : s.Kept config) (hgrown : s.Grown s') (hhost : s'.host = s.host)
    (hpersisted : s'.persisted = s.persisted) (hcompleted : s'.completed = s.completed)
    (hrows : RowsHold s'.verified s'.rows) (hreports : ∀ sent ∈ s'.reports, sent.report.id = sent.binding.id) :
    s'.Kept config where
  rows := hrows
  reports := hreports
  persisted := fun sites hsites => (h.persisted sites (hpersisted ▸ hsites)).mono hgrown
  active := fun host hin => (h.active host (hhost ▸ hin)).mono hgrown
  phase := fun host hin => (h.phase host (hhost ▸ hin)).mono hgrown hcompleted
  completed := fun done host hdone hin => (h.completed done host (hcompleted ▸ hdone) (hhost ▸ hin)).mono hgrown

theorem Sites.Kept.inside (h : s.Kept config) (hgrown : s.Grown s') (hhost : s'.host = some host)
    (hrows : s'.rows = s.rows) (hreports : ∀ sent ∈ s'.reports, sent.report.id = sent.binding.id)
    (hpersisted : ∀ sites, s'.persisted = some sites → s'.Released sites) (hactive : s'.Released host.active)
    (hphase : s'.Phase config host)
    (hcompleted : ∀ done, s'.completed = some done → s'.Reconciled config done host.active) : s'.Kept config where
  rows := hrows ▸ h.rows.mono hgrown.verified
  reports := hreports
  persisted := hpersisted
  active := fun other hother => by cases hhost.symm.trans hother; exact hactive
  phase := fun other hother => by cases hhost.symm.trans hother; exact hphase
  completed := fun done other hdone hother => by cases hhost.symm.trans hother; exact hcompleted done hdone

theorem booted_released (h : ∀ sites, s.persisted = some sites → s.Released sites) (present : Path → Bool) :
    s.Released (booted config s.persisted present).active := by
  cases hpersisted : s.persisted with
  | none => exact fun site hsite => absurd hsite List.not_mem_nil
  | some sites =>
    refine List.foldlRecOn sites _ (motive := fun active => s.Released active) (fun site hsite => absurd hsite List.not_mem_nil)
      fun active hactive site hsite => ?_
    split
    · intro other hother
      rcases mem_setActive hother with rfl | ⟨hold, -⟩
      · exact h sites hpersisted other hsite
      · exact hactive other hold
    · exact hactive

theorem Sites.Kept.step_rows (h : s.Kept config) {rows : List SiteRow} (hrows : RowsHold s.verified rows) :
    ({ s with rows := rows } : Sites).Kept config :=
  h.outside ⟨Nat.le_refl _, List.Subset.refl _, List.Subset.refl _⟩ rfl rfl rfl hrows h.reports

theorem Sites.Kept.receive (h : s.Kept config) (hown : s.keepsOwn platform config (.receive index) = true)
    (hstep : s.step platform config (.receive index) = some s') : s'.Kept config := by
  obtain ⟨sent, hsent, rfl⟩ := Option.map_eq_some_iff.mp hstep
  dsimp only [Sites.keepsOwn] at hown
  rw [hsent, Option.all_some] at hown
  have hgrown : s.Grown (s.received index sent) := by
    refine ⟨Nat.le_refl _, ?_, List.Subset.refl _⟩
    dsimp only [Sites.received]
    split
    · exact List.subset_append_left _ _
    · exact List.Subset.refl _
  refine h.outside hgrown rfl rfl rfl ?_ fun other hother => h.reports other (List.mem_of_mem_eraseIdx hother)
  refine h.rows.received index (h.reports sent (List.mem_of_getElem? hsent)) fun hverified row hrow hid => ?_
  rw [hverified, Bool.not_true, Bool.false_or] at hown
  have hreached := List.all_eq_true.mp hown row hrow
  simp only [hid, bne_self_eq_false, Bool.false_or, Bool.and_eq_true, beq_iff_eq] at hreached
  exact hreached

theorem Sites.Kept.check (h : s.Kept config) {answers : DnsAnswers}
    (hown : s.keepsOwn platform config (.check index answers) = true)
    (hstep : s.step platform config (.check index answers) = some s') : s'.Kept config := by
  obtain ⟨host, hhost, hstep⟩ := Option.bind_eq_some_iff.mp hstep
  have hphase := h.phase host hhost
  dsimp only [Sites.keepsOwn] at hown
  rw [hhost, Option.all_some] at hown
  split at hstep
  · rename_i tasks started hreconciling
    split at hstep
    · rename_i binding htask
      obtain ⟨-, rfl⟩ := guarded_some hstep
      rw [Sites.Phase, hreconciling] at hphase
      rw [hreconciling] at hown
      dsimp only at hown
      rw [htask, Option.all_some] at hown
      have hsyncing := hphase.2.check platform htask hown
      have hreleased : s.Released (checked config s.clock binding host.active (checkBinding platform config binding answers)).1 := by
        intro site hsite
        refine h.active host hhost site ?_
        revert hsite
        cases checkBinding platform config binding answers with
        | failed message => exact id
        | verified => exact id
        | invalid reason =>
          dsimp only [checked]
          split
          · exact fun hsite => List.mem_of_mem_filter hsite
          · exact id
      refine h.inside ⟨Nat.le_refl _, ?_, List.Subset.refl _⟩ rfl rfl (fun sent hsent => ?_) h.persisted hreleased
        ⟨hphase.1, hsyncing⟩ fun done hdone => ?_
      · dsimp only [Sites.checkTask]
        split
        · exact List.subset_append_left _ _
        · exact List.Subset.refl _
      · rcases List.mem_append.mp hsent with hold | hnew
        · exact h.reports sent hold
        · cases List.mem_singleton.mp hnew
          cases checkBinding platform config binding answers <;> rfl
      · exact absurd (hphase.1.symm.trans hdone) (by simp)
    · cases hstep
  · cases hstep

theorem Sites.Kept.materialize (h : s.Kept config) {outcome : Except String Release}
    (hown : s.keepsOwn platform config (.materialize index outcome) = true)
    (hstep : s.step platform config (.materialize index outcome) = some s') : s'.Kept config := by
  obtain ⟨host, hhost, hstep⟩ := Option.bind_eq_some_iff.mp hstep
  have hphase := h.phase host hhost
  split at hstep
  · rename_i tasks started hreconciling
    split at hstep
    · rename_i binding htask
      cases hstep
      rw [Sites.Phase, hreconciling] at hphase
      have hsyncing := hphase.2.materialize htask outcome fun message houtcome site hsite hhostname => by
        subst houtcome
        dsimp only [Sites.keepsOwn] at hown
        rw [hhost, Option.all_some, hreconciling] at hown
        dsimp only at hown
        rw [htask, Option.all_some] at hown
        have hsite' := List.all_eq_true.mp hown site hsite
        simp only [hhostname, bne_self_eq_false, Bool.false_or, beq_iff_eq] at hsite'
        exact hsite'
      refine h.inside ⟨Nat.le_refl _, List.Subset.refl _, ?_⟩ rfl rfl (fun sent hsent => ?_) (fun sites hsites => ?_) ?_
        ⟨hphase.1, hsyncing⟩ fun done hdone => ?_
      · cases outcome with
        | error message => exact List.Subset.refl _
        | ok release => exact List.subset_append_left _ _
      · rcases List.mem_append.mp hsent with hold | hnew
        · exact h.reports sent hold
        · cases List.mem_singleton.mp hnew
          cases outcome <;> rfl
      · intro site hsite
        have hold := h.persisted sites hsites site hsite
        cases outcome with
        | error message => exact hold
        | ok release => exact List.mem_append_left _ hold
      · intro site hsite
        cases outcome with
        | error message => exact h.active host hhost site hsite
        | ok release =>
          rcases mem_setActive hsite with rfl | ⟨hold, -⟩
          · exact List.mem_append_right _ List.mem_cons_self
          · exact List.mem_append_left _ (h.active host hhost site hold)
      · exact absurd (hphase.1.symm.trans hdone) (by simp)
    · cases hstep
  · cases hstep

theorem Sites.Kept.begin (h : s.Kept config) (hstep : s.step platform config .begin = some s') : s'.Kept config := by
  obtain ⟨host, hhost, hstep⟩ := Option.bind_eq_some_iff.mp hstep
  have hphase := h.phase host hhost
  split at hstep
  · rename_i bindings hreconciling
    cases hstep
    rw [Sites.Phase, hreconciling] at hphase
    have hgrown : s.Grown { s with host := some (beginSync s.clock bindings host), completed := none } :=
      ⟨Nat.le_refl _, List.Subset.refl _, List.Subset.refl _⟩
    refine h.inside hgrown rfl rfl h.reports h.persisted
      (fun site hsite => h.active host hhost site (List.mem_of_mem_filter hsite)) ⟨rfl, Nat.le_refl _, ?_, fun site hsite => ?_,
        fun task htask hprogress => ?_, fun task htask hprogress => ?_⟩ fun done hdone => by cases hdone
    · rw [List.map_map]
      exact (List.map_id' bindings).symm ▸ hphase
    · have hconfigured := List.contains_iff_mem.mp (List.mem_filter.mp hsite).2
      obtain ⟨binding, hbinding, hhostname⟩ := List.mem_map.mp hconfigured
      obtain ⟨hlisted, hvalid⟩ := List.mem_filter.mp hbinding
      exact ⟨⟨binding, .waiting⟩, List.mem_map_of_mem hlisted, hvalid, hhostname⟩
    · obtain ⟨binding, -, rfl⟩ := List.mem_map.mp htask
      cases hprogress
    · obtain ⟨binding, -, rfl⟩ := List.mem_map.mp htask
      cases hprogress
  · cases hstep

theorem Sites.Kept.complete (h : s.Kept config) (hstep : s.step platform config .complete = some s') : s'.Kept config := by
  obtain ⟨host, hhost, hstep⟩ := Option.bind_eq_some_iff.mp hstep
  have hphase := h.phase host hhost
  split at hstep
  · rename_i tasks started hreconciling
    cases hstep
    rw [Sites.Phase, hreconciling] at hphase
    obtain ⟨-, hsyncing, hdone⟩ := hphase
    have hgrown : s.Grown { s with
        host := some { host with ready := true, reconciling := .idle }
        completed := some ⟨tasks.map SyncTask.binding, started⟩ } := ⟨Nat.le_refl _, List.Subset.refl _, List.Subset.refl _⟩
    refine h.inside hgrown rfl rfl h.reports h.persisted (h.active host hhost) trivial fun done hcompleted => ?_
    cases hcompleted
    intro site hsite
    obtain ⟨task, htask, hvalid, hhostname⟩ := hsyncing.configured site hsite
    have hover := beq_iff_eq.mp (List.all_eq_true.mp hdone task htask)
    obtain ⟨hid, hproved⟩ := hsyncing.settled task htask hover site hsite hhostname.symm
    exact ⟨task.binding, List.mem_map_of_mem htask, hvalid, hhostname.symm, hid, hproved⟩
  · cases hstep

theorem Sites.Kept.step {action : SiteAction} (hown : s.keepsOwn platform config action = true) (h : s.Kept config)
    (hstep : s.step platform config action = some s') : s'.Kept config := by
  cases action with
  | tick milliseconds =>
    cases hstep
    exact h.outside ⟨Nat.le_add_right _ _, List.Subset.refl _, List.Subset.refl _⟩ rfl rfl rfl h.rows h.reports
  | create id subjectId tokenHash input =>
    obtain ⟨rows, hrows, rfl⟩ := Option.map_eq_some_iff.mp hstep
    exact h.step_rows (h.rows.create hrows)
  | update subjectId id tokenHash input =>
    obtain ⟨rows, hrows, rfl⟩ := Option.map_eq_some_iff.mp hstep
    exact h.step_rows (h.rows.update hrows)
  | remove subjectId id =>
    cases hstep
    exact h.step_rows (h.rows.remove subjectId id)
  | seed id tokenHash site =>
    obtain ⟨rows, hrows, rfl⟩ := Option.map_eq_some_iff.mp hstep
    exact h.step_rows (h.rows.seed hrows)
  | receive index => exact h.receive hown hstep
  | lose index =>
    cases hstep
    exact h.outside ⟨Nat.le_refl _, List.Subset.refl _, List.Subset.refl _⟩ rfl rfl rfl h.rows
      fun sent hsent => h.reports sent (List.mem_of_mem_eraseIdx hsent)
  | boot present =>
    obtain ⟨-, rfl⟩ := guarded_some hstep
    refine h.inside ⟨Nat.le_refl _, List.Subset.refl _, List.Subset.refl _⟩ rfl rfl h.reports h.persisted
      (booted_released h.persisted present) ?_ fun done hdone => by cases hdone
    dsimp only [Sites.Phase, booted]
    cases s.persisted <;> trivial
  | crash =>
    cases hstep
    exact ⟨h.rows, h.reports, h.persisted, fun _ hhost => (by cases hhost), fun _ hhost => (by cases hhost),
      fun _ _ hdone => (by cases hdone)⟩
  | list =>
    obtain ⟨host, hhost, hstep⟩ := Option.bind_eq_some_iff.mp hstep
    obtain ⟨-, rfl⟩ := guarded_some hstep
    exact h.inside ⟨Nat.le_refl _, List.Subset.refl _, List.Subset.refl _⟩ rfl rfl h.reports h.persisted (h.active host hhost)
      (h.rows.directory platform) fun done hdone => h.completed done host hdone hhost
  | listFails =>
    obtain ⟨host, hhost, hstep⟩ := Option.bind_eq_some_iff.mp hstep
    split at hstep
    · cases hstep
      exact h.inside ⟨Nat.le_refl _, List.Subset.refl _, List.Subset.refl _⟩ rfl rfl h.reports h.persisted (h.active host hhost)
        trivial fun done hdone => h.completed done host hdone hhost
    · cases hstep
  | begin => exact h.begin hstep
  | check index answers => exact h.check hown hstep
  | materialize index outcome => exact h.materialize hown hstep
  | save =>
    obtain ⟨host, hhost, hstep⟩ := Option.bind_eq_some_iff.mp hstep
    have hphase := h.phase host hhost
    split at hstep
    · rename_i tasks started hreconciling
      obtain ⟨hdone, rfl⟩ := guarded_some hstep
      rw [Sites.Phase, hreconciling] at hphase
      refine h.inside ⟨Nat.le_refl _, List.Subset.refl _, List.Subset.refl _⟩ rfl rfl h.reports (fun sites hsites => ?_)
        (h.active host hhost) ⟨hphase.1, hphase.2.mono ⟨Nat.le_refl _, List.Subset.refl _, List.Subset.refl _⟩, hdone⟩
        fun done hcompleted => ?_
      · cases hsites
        exact h.active host hhost
      · exact absurd (hphase.1.symm.trans hcompleted) (by simp)
    · cases hstep
  | saveFails =>
    obtain ⟨host, hhost, hstep⟩ := Option.bind_eq_some_iff.mp hstep
    split at hstep
    · obtain ⟨-, rfl⟩ := guarded_some hstep
      exact h.inside ⟨Nat.le_refl _, List.Subset.refl _, List.Subset.refl _⟩ rfl rfl h.reports h.persisted (h.active host hhost)
        trivial fun done hdone => h.completed done host hdone hhost
    · cases hstep
  | complete => exact h.complete hstep

theorem Sites.Kept.servesOwn (h : s.Kept config) : s.ServesOwn platform config := by
  intro done host hdone hhost disk request file withBody headers hfile
  obtain ⟨site, hsite, hrequest, -, hbelow⟩ := handle_file hfile
  obtain ⟨rest, hrest, hinside⟩ := hbelow.inside
  obtain ⟨binding, hbinding, hvalid, hhostname, hid, hproved⟩ := h.completed done host hdone hhost site hsite
  exact ⟨binding, hbinding, hvalid, hrequest.trans (congrArg some hhostname),
    ⟨site.root, rest, hid ▸ h.active host hhost site hsite, hrest, hinside⟩, hproved⟩

end Runs

/-- In every run in which what a failed synchronisation leaves is the binding's own, a hostname is served from its own
binding. -/
theorem served_from_own_binding (platform : SitePlatform) (config : SiteHostConfig) {actions : List SiteAction} {s : Sites}
    (hown : along (Sites.step platform config) (Sites.keepsOwn platform config) Sites.start actions = true)
    (hrun : run (Sites.step platform config) Sites.start actions = some s) : s.ServesOwn platform config := by
  have hkept := along_invariant (I := Sites.Kept config) (fun s action s' hown h hstep => h.step hown hstep) hown
    Sites.Kept.start hrun
  exact hkept.servesOwn

/-! ## Two owners of one hostname -/

def plainPlatform : SitePlatform where
  sha256Hex text :=
    if text = "site-token-one" then "2eba24529821172069f45ec8331c48595ddef87b6124d566f6a585627526ca89"
    else "9872799c32dab80d51348e6ca9750621c66c34737182073916c5ccac4ae3f2b5"
  toLowerCase text := text.map Char.toLower
  decodeURIComponent text := if text.contains '%' then none else some text
  collate := compare

def hostConfig : SiteHostConfig where
  dataRoot := ["var".toList, "lib".toList, "aven".toList, "static-sites".toList]
  maxConcurrentSyncs := 4
  allowedIpv4 := ["192.0.2.10"]
  allowedIpv6 := []
  dnsGraceMilliseconds := 86400000
  concurrent := by decide

def firstId : String := "00000000-0000-4000-8000-000000000001"

def secondId : String := "00000000-0000-4000-8000-000000000002"

def siteDraft (repository : String) : SiteBindingDraft := ⟨"www.customer.example", repository, "main", "deploy/main"⟩

def createFirst : SiteAction := .create firstId "first" (plainPlatform.sha256Hex "site-token-one") (siteDraft "first/site")

def createSecond : SiteAction := .create secondId "second" (plainPlatform.sha256Hex "site-token-two") (siteDraft "second/site")

def pointsHere (token : String) : DnsAnswers := ⟨.found [[token]], .found ["192.0.2.10"], .missing⟩

def firstRelease : Release :=
  ⟨"1111111111111111111111111111111111111111", "2222222222222222222222222222222222222222"⟩

def firstServed : List SiteAction :=
  [createFirst, .tick 1000000000, .boot fun _ => false, .list, .begin, .check 0 (pointsHere "site-token-one"),
    .materialize 0 (.ok firstRelease), .save, .complete]

/-- The hostname passes to a second owner, whose repository cannot be cloned. -/
def passedOn : List SiteAction :=
  firstServed ++ [.remove "first" firstId, createSecond, .list, .begin, .check 0 (pointsHere "site-token-two"),
    .materialize 0 (.error "repository not found"), .save, .complete]

def homepage : SiteRequest := ⟨"GET", some "www.customer.example".toList, ['/'], none⟩

def SiteResponse.file? : SiteResponse → Option Path
  | .file path _ _ => some path
  | _ => none

def Sites.homepageFile (s : Sites) : Option Path :=
  s.host.bind fun host => (handle plainPlatform host (fun _ => .file) homepage).file?

/-- Its site is served on while its DNS answers fail within the grace period. -/
theorem served_from_own_binding_in_grace : ∃ s, run (Sites.step plainPlatform hostConfig) Sites.start
        (firstServed ++ [.receive 0, .receive 0, .tick 60000, .list, .begin, .check 0 ⟨.missing, .missing, .missing⟩, .save,
          .complete]) = some s ∧ s.homepageFile.isSome = true ∧ s.ServesOwn plainPlatform hostConfig := by
  have hrun : (run (Sites.step plainPlatform hostConfig) Sites.start
      (firstServed ++ [.receive 0, .receive 0, .tick 60000, .list, .begin, .check 0 ⟨.missing, .missing, .missing⟩, .save,
        .complete])).any (fun s => s.homepageFile.isSome) = true := by decide +kernel
  obtain ⟨s, hs, hfile⟩ := (Option.any_eq_true _ _).mp hrun
  exact ⟨s, hs, hfile, served_from_own_binding plainPlatform hostConfig (by decide +kernel) hs⟩

/-- The second owner's hostname is served with the first owner's site. -/
theorem hostname_served_from_other_binding :
    ¬ ∀ (platform : SitePlatform) (config : SiteHostConfig) (actions : List SiteAction) (s : Sites),
      run (Sites.step platform config) Sites.start actions = some s → s.ServesOwn platform config := by
  intro h
  have hrun : (run (Sites.step plainPlatform hostConfig) Sites.start passedOn).any (fun s =>
      s.homepageFile.isSome && s.released.all (fun release => release.1 == firstId) &&
        s.completed.any fun done => done.bindings.all fun binding => binding.id == secondId) = true := by decide +kernel
  obtain ⟨s, hs, hcheck⟩ := (Option.any_eq_true _ _).mp hrun
  simp only [Bool.and_eq_true] at hcheck
  obtain ⟨⟨hfile, hreleased⟩, hcompleted⟩ := hcheck
  obtain ⟨done, hdone, hsecond⟩ := (Option.any_eq_true _ _).mp hcompleted
  obtain ⟨file, hfile⟩ := Option.isSome_iff_exists.mp hfile
  obtain ⟨host, hhost, hresponse⟩ := Option.bind_eq_some_iff.mp hfile
  cases hanswer : handle plainPlatform host (fun _ => Entry.file) homepage with
  | text status body =>
    rw [hanswer] at hresponse
    cases hresponse
  | empty status =>
    rw [hanswer] at hresponse
    cases hresponse
  | file path withBody headers =>
    obtain ⟨binding, hbinding, -, -, ⟨root, rest, hroot, -, -⟩, -⟩ :=
      h plainPlatform hostConfig passedOn s hs done host hdone hhost _ homepage path withBody headers hanswer
    have hfirst := beq_iff_eq.mp (List.all_eq_true.mp hreleased _ hroot)
    have hsecond' := beq_iff_eq.mp (List.all_eq_true.mp hsecond binding hbinding)
    exact absurd (hfirst.symm.trans hsecond') (by decide)

end AvenOS.StaticSites
