import AvenOS.StaticSites.Host

/-! # The directory and the host together

Users and the platform write the directory while the host synchronises. A report is on its way for any time and may be lost;
the host does not wait for it longer than its own time limit. Lookups and repositories answer as they like. -/
namespace AvenOS.StaticSites
open PosixPath LabelledRun

/-- That the proof of a binding was found, by the DNS check of a synchronisation: when the check ended, or when the directory
took down the report on it. -/
structure Verification where
  id : String
  hostname : String
  tokenHash : String
  verifiedAt : ℕ
  deriving DecidableEq, Repr

def verification (binding : DirectoryBinding) (time : ℕ) : Verification :=
  ⟨binding.id, binding.hostname, binding.verification_token_hash, time⟩

/-- A report on its way, and the binding it was written about. -/
structure SentReport where
  report : SiteReport
  binding : DirectoryBinding
  deriving DecidableEq, Repr

/-- What a reconciliation that has ended had listed, and when it began to synchronise. -/
structure Reconciliation where
  bindings : List DirectoryBinding
  started : ℕ
  deriving DecidableEq, Repr

structure Sites where
  clock : ℕ
  rows : List SiteRow
  reports : List SentReport
  /-- `none` while the process is down. -/
  host : Option StaticSiteHost
  /-- The file `active-sites.json`. -/
  persisted : Option (List ActiveSite)
  /-- Every release that was materialized, with the id of its binding. -/
  released : List (String × Path)
  verified : List Verification
  /-- The last reconciliation, while what it left is what is served. -/
  completed : Option Reconciliation
  deriving DecidableEq, Repr

def Sites.start : Sites := ⟨0, [], [], none, none, [], [], none⟩

inductive SiteAction where
  | tick (milliseconds : ℕ)
  | create (id subjectId tokenHash : String) (input : SiteBindingDraft)
  | update (subjectId id tokenHash : String) (input : SiteBindingDraft)
  | remove (subjectId id : String)
  | seed (id tokenHash : String) (site : SiteBindingDraft)
  | receive (index : ℕ)
  | lose (index : ℕ)
  | boot (present : Path → Bool)
  | crash
  | list
  | listFails
  | begin
  | check (index : ℕ) (answers : DnsAnswers)
  | materialize (index : ℕ) (outcome : Except String Release)
  | save
  | saveFails
  | complete

section Step
variable (platform : SitePlatform) (config : SiteHostConfig)

/-- Some row takes down that the proof was found. -/
def Sites.recordsProof (s : Sites) (report : SiteReport) : Bool :=
  report.dnsVerified && reportAdmitted report && s.rows.any fun row => row.id == report.id

def Sites.received (s : Sites) (index : ℕ) (sent : SentReport) : Sites :=
  { s with
    rows := AvenOS.StaticSites.report s.rows s.clock sent.report
    reports := s.reports.eraseIdx index
    verified := if s.recordsProof sent.report then s.verified ++ [verification sent.binding s.clock] else s.verified }

def booted (persisted : Option (List ActiveSite)) (present : Path → Bool) : StaticSiteHost :=
  match persisted with
  | some sites => loadPersistedState config present sites
  | none => ⟨[], false, .idle⟩

/-- The first part of a task. -/
def Sites.checkTask (s : Sites) (host : StaticSiteHost) (tasks : List SyncTask) (started index : ℕ)
    (binding : DirectoryBinding) (answers : DnsAnswers) : Sites :=
  let check := checkBinding platform config binding answers
  let (active, task, report) := checked config s.clock binding host.active check
  { s with
    host := some { host with active := active, reconciling := .syncing (tasks.set index task) started }
    reports := s.reports ++ [⟨report, binding⟩]
    verified := if check = .verified then s.verified ++ [verification binding s.clock] else s.verified }

/-- The second part of a task. -/
def Sites.materializeTask (s : Sites) (host : StaticSiteHost) (tasks : List SyncTask) (started index : ℕ)
    (binding : DirectoryBinding) (outcome : Except String Release) : Sites :=
  let (active, report) := synced config binding host.active outcome
  { s with
    host := some { host with active := active, reconciling := .syncing (tasks.set index ⟨binding, .done⟩) started }
    reports := s.reports ++ [⟨report, binding⟩]
    released := match outcome with
      | .ok release => s.released ++ [(binding.id, release.root config binding)]
      | .error _ => s.released }

def allDone (tasks : List SyncTask) : Bool := tasks.all fun task => task.progress == .done

def Sites.step (s : Sites) : SiteAction → Option Sites
  | .tick milliseconds => some { s with clock := s.clock + milliseconds }
  | .create id subjectId tokenHash input =>
    (create s.rows id subjectId tokenHash input).map fun rows => { s with rows := rows }
  | .update subjectId id tokenHash input =>
    (update s.rows subjectId id tokenHash input).map fun rows => { s with rows := rows }
  | .remove subjectId id => some { s with rows := remove s.rows subjectId id }
  | .seed id tokenHash site => (seed s.rows id tokenHash site).map fun rows => { s with rows := rows }
  | .receive index => (s.reports[index]?).map (s.received index)
  | .lose index => some { s with reports := s.reports.eraseIdx index }
  | .boot present =>
    if s.host = none then some { s with host := some (booted config s.persisted present), completed := none } else none
  | .crash => some { s with host := none, completed := none }
  | .list => do
    let host ← s.host
    if host.reconciling = .idle then
      some { s with host := some { host with reconciling := .listed (directory platform s.rows) } }
    else none
  | .listFails => do
    let host ← s.host
    match host.reconciling with
    | .listed _ => some { s with host := some { host with reconciling := .idle } }
    | _ => none
  | .begin => do
    let host ← s.host
    match host.reconciling with
    | .listed bindings => some { s with host := some (beginSync s.clock bindings host), completed := none }
    | _ => none
  | .check index answers => do
    let host ← s.host
    match host.reconciling with
    | .syncing tasks started =>
      match tasks[index]? with
      | some ⟨binding, .waiting⟩ =>
        if sliceOpen config tasks index then some (s.checkTask platform config host tasks started index binding answers)
        else none
      | _ => none
    | _ => none
  | .materialize index outcome => do
    let host ← s.host
    match host.reconciling with
    | .syncing tasks started =>
      match tasks[index]? with
      | some ⟨binding, .syncing⟩ => some (s.materializeTask config host tasks started index binding outcome)
      | _ => none
    | _ => none
  | .save => do
    let host ← s.host
    match host.reconciling with
    | .syncing tasks started =>
      if allDone tasks then
        some { s with
          host := some { host with reconciling := .saved tasks started }
          persisted := some host.active }
      else none
    | _ => none
  | .saveFails => do
    let host ← s.host
    match host.reconciling with
    | .syncing tasks _ => if allDone tasks then some { s with host := some { host with reconciling := .idle } } else none
    | _ => none
  | .complete => do
    let host ← s.host
    match host.reconciling with
    | .saved tasks started =>
      some { s with
        host := some { host with ready := true, reconciling := .idle }
        completed := some ⟨tasks.map SyncTask.binding, started⟩ }
    | _ => none

/-! ## What is served -/

/-- A proof of the binding was found within the grace period before a check that the reconciliation has made. -/
def Sites.Proved (config : SiteHostConfig) (s : Sites) (started : ℕ) (binding : DirectoryBinding) : Prop :=
  ∃ checkedAt verifiedAt, started ≤ checkedAt ∧ checkedAt ≤ s.clock ∧ verification binding verifiedAt ∈ s.verified ∧
    checkedAt - verifiedAt ≤ config.dnsGraceMilliseconds

/-- After a reconciliation what is served for a hostname is of a release of the binding that was listed for it, and that
binding has proved its hostname. -/
def Sites.ServesOwn (s : Sites) : Prop :=
  ∀ done host, s.completed = some done → s.host = some host →
    ∀ disk request file withBody headers, handle platform host disk request = .file file withBody headers →
      ∃ binding ∈ done.bindings, valid binding = true ∧ requestHostname platform request = some binding.hostname ∧
        (∃ root rest, (binding.id, root) ∈ s.released ∧ file = root ++ rest ∧ ∀ name ∈ rest, Inside name) ∧
        s.Proved config done.started binding

/-! ## When it is -/

/-- What a check finds under its hostname when the proof is not renewed. -/
def keptOwn (now : ℕ) (binding : DirectoryBinding) (active : List ActiveSite) : Check → Bool
  | .failed _ => active.all fun site => site.hostname != binding.hostname ||
      (site.binding.id == binding.id && binding.verified_at.isSome && !gracePassed config now binding)
  | .invalid _ => gracePassed config now binding || active.all fun site => site.hostname != binding.hostname ||
      (site.binding.id == binding.id && binding.verified_at.isSome)
  | .verified => true

/-- A binding that is not synchronised finds under its hostname nothing or its own site, whose proof is recent; a report of a
found proof reaches the binding that it was written about. -/
def Sites.keepsOwn (s : Sites) : SiteAction → Bool
  | .receive index =>
    (s.reports[index]?).all fun sent => !sent.report.dnsVerified || s.rows.all fun row => row.id != sent.report.id ||
      (row.hostname == sent.binding.hostname && row.verificationTokenHash == sent.binding.verification_token_hash)
  | .check index answers =>
    s.host.all fun host =>
      match host.reconciling with
      | .syncing tasks _ => (tasks[index]?).all fun task =>
        keptOwn config s.clock task.binding host.active (checkBinding platform config task.binding answers)
      | _ => true
  | .materialize index (.error _) =>
    s.host.all fun host =>
      match host.reconciling with
      | .syncing tasks _ => (tasks[index]?).all fun task => host.active.all fun site =>
        site.hostname != task.binding.hostname || site.binding.id == task.binding.id
      | _ => true
  | _ => true

end Step

end AvenOS.StaticSites
