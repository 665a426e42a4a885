import AvenOS.StaticSites.Directory
import AvenOS.Foundations.LabelledRun

/-! # The host of the static sites

The host keeps the sites that it serves under their hostnames. A reconciliation lists the directory, forgets the hostnames
that are no longer listed and synchronises the listed bindings, some at a time. The host may stop at any moment and starts
again from the sites that the last reconciliation has saved. -/
namespace AvenOS.StaticSites
open PosixPath LabelledRun

/-! ## Active sites -/

structure ActiveSite where
  binding : DirectoryBinding
  root : Path
  deriving DecidableEq, Repr

def ActiveSite.hostname (site : ActiveSite) : String := site.binding.hostname

def setActive (site : ActiveSite) (active : List ActiveSite) : List ActiveSite :=
  if active.any fun other => other.hostname == site.hostname then
    active.map fun other => if other.hostname == site.hostname then site else other
  else active ++ [site]

def deleteActive (hostname : String) (active : List ActiveSite) : List ActiveSite :=
  active.filter fun site => site.hostname != hostname

def getActive (hostname : String) (active : List ActiveSite) : Option ActiveSite :=
  active.find? fun site => site.hostname == hostname

def releasesRoot (config : SiteHostConfig) (id : String) : Path :=
  config.dataRoot ++ ["bindings".toList, id.toList, "releases".toList]

/-- What `materialize` resolves to. -/
structure Release where
  artifactRevision : String
  sourceRevision : String
  deriving DecidableEq, Repr

def Release.root (config : SiteHostConfig) (binding : DirectoryBinding) (release : Release) : Path :=
  releasesRoot config binding.id ++ [release.artifactRevision.toList]

/-! ## The state of the host -/

inductive Progress where
  | waiting
  | syncing
  | done
  deriving DecidableEq, Repr

/-- One call of `reconcileOne`: not begun, its proof verified, or over. -/
structure SyncTask where
  binding : DirectoryBinding
  progress : Progress
  deriving DecidableEq, Repr

inductive Reconciling where
  | idle
  | listed (bindings : List DirectoryBinding)
  | syncing (tasks : List SyncTask) (started : ℕ)
  | saved (tasks : List SyncTask) (started : ℕ)
  deriving DecidableEq, Repr

structure StaticSiteHost where
  active : List ActiveSite
  ready : Bool
  reconciling : Reconciling
  deriving DecidableEq, Repr

def keepsPersisted (config : SiteHostConfig) (present : Path → Bool) (site : ActiveSite) : Bool :=
  let expectedRoot := releasesRoot config site.binding.id
  valid site.binding && expectedRoot.isPrefixOf site.root && decide (expectedRoot.length < site.root.length) &&
    present (site.root ++ ["index.html".toList])

def loadPersistedState (config : SiteHostConfig) (present : Path → Bool) (sites : List ActiveSite) : StaticSiteHost where
  active := sites.foldl (fun active site => if keepsPersisted config present site then setActive site active else active) []
  ready := true
  reconciling := .idle

/-- The start of `doReconcile` once the directory has answered. -/
def beginSync (now : ℕ) (bindings : List DirectoryBinding) (host : StaticSiteHost) : StaticSiteHost :=
  let configured := (bindings.filter valid).map DirectoryBinding.hostname
  { host with
    active := host.active.filter fun site => configured.contains site.hostname
    reconciling := .syncing (bindings.map fun binding => ⟨binding, .waiting⟩) now }

def sliceOpen (config : SiteHostConfig) (tasks : List SyncTask) (index : ℕ) : Bool :=
  (tasks.take (index / config.maxConcurrentSyncs * config.maxConcurrentSyncs)).all fun task => task.progress == .done

def failedReport (binding : DirectoryBinding) (message : String) : SiteReport :=
  ⟨binding.id, .failed, some message, none, none, false⟩

/-- How the first part of `reconcileOne` ends: it throws, the DNS check fails, or it passes. -/
inductive Check where
  | failed (message : String)
  | invalid (reason : String)
  | verified
  deriving DecidableEq, Repr

def checkBinding (platform : SitePlatform) (config : SiteHostConfig) (binding : DirectoryBinding) (answers : DnsAnswers) : Check :=
  match validateBinding binding with
  | .error message => .failed message
  | .ok () =>
    match verifyDns platform config binding.verification_token_hash binding.verification_mode answers with
    | .error message => .failed message
    | .ok (some reason) => .invalid reason
    | .ok none => .verified

def gracePassed (config : SiteHostConfig) (now : ℕ) (binding : DirectoryBinding) : Bool :=
  config.dnsGraceMilliseconds < now - binding.verified_at.getD 0

def checked (config : SiteHostConfig) (now : ℕ) (binding : DirectoryBinding) (active : List ActiveSite) :
    Check → List ActiveSite × SyncTask × SiteReport
  | .failed message => (active, ⟨binding, .done⟩, failedReport binding message)
  | .invalid reason =>
    (if gracePassed config now binding then deleteActive binding.hostname active else active, ⟨binding, .done⟩,
      ⟨binding.id, .dnsInvalid, some reason, none, none, false⟩)
  | .verified =>
    (active, ⟨{ binding with verified_at := some now }, .syncing⟩, ⟨binding.id, .syncing, none, none, none, true⟩)

/-- The second part of `reconcileOne`, once `materialize` has ended. -/
def synced (config : SiteHostConfig) (binding : DirectoryBinding) (active : List ActiveSite) :
    Except String Release → List ActiveSite × SiteReport
  | .error message => (active, failedReport binding message)
  | .ok release =>
    (setActive ⟨binding, release.root config binding⟩ active,
      ⟨binding.id, .active, none, some release.artifactRevision, some release.sourceRevision, true⟩)

/-! ## Requests -/

structure SiteRequest where
  method : String
  host : Option Text
  pathname : Text
  /-- The search parameter `domain`. -/
  domain : Option Text
  deriving DecidableEq, Repr

inductive Entry where
  | file
  | directory
  | missing
  deriving DecidableEq, Repr

inductive SiteResponse where
  | text (status : ℕ) (body : String)
  | empty (status : ℕ)
  | file (path : Path) (withBody : Bool) (headers : List (String × String))
  deriving DecidableEq, Repr

def contentTypes : List (String × String) :=
  [(".css", "text/css; charset=utf-8"), (".html", "text/html; charset=utf-8"), (".ico", "image/x-icon"),
    (".js", "text/javascript; charset=utf-8"), (".json", "application/json; charset=utf-8"), (".png", "image/png"),
    (".svg", "image/svg+xml"), (".txt", "text/plain; charset=utf-8"), (".webp", "image/webp"), (".woff2", "font/woff2")]

/-- `name.toLowerCase().replace(/\.$/, '')`. -/
def plainHostname (platform : SitePlatform) (name : Text) : String :=
  let lower := platform.toLowerCase name
  String.ofList (if lower.getLast? = some '.' then lower.dropLast else lower)

def requestHostname (platform : SitePlatform) (request : SiteRequest) : Option String :=
  (request.host.map fun host => plainHostname platform (host.takeWhile (· ≠ ':'))).filter fun hostname => hostname ≠ ""

def stripSeparators (path : Text) : Text := path.dropWhile fun c => c == '/' || c == '\\'

def relativeParts (relative : Text) : List Text := relative.splitOnP fun c => c == '/' || c == '\\'

def refusedPath (relative : Text) : Bool :=
  dotdot.isPrefixOf relative || (relativeParts relative).any fun part => part.head? == some '.'

def fileHeaders (platform : SitePlatform) (relative : Text) (file : Path) : List (String × String) :=
  [("content-type", (contentTypes.lookup (String.ofList (platform.toLowerCase (extname file)))).getD "application/octet-stream"),
    ("x-content-type-options", "nosniff"), ("referrer-policy", "strict-origin-when-cross-origin"), ("x-frame-options", "DENY"),
    ("cache-control",
      if "_app/immutable/".toList.isPrefixOf relative then "public, max-age=31536000, immutable"
      else if file.getLast?.any ".html".toList.isSuffixOf then "no-cache" else "public, max-age=3600")]

def indexName : Text := "index.html".toList

def siteFile (disk : Path → Entry) (root : Path) (relative : Text) : Option Path :=
  let name := if relative = [] then indexName else relative
  match disk (join root name) with
  | .directory => some (join root (name ++ '/' :: indexName))
  | .file => some (join root name)
  | .missing => if extname (relative.splitOn '/') = [] then some (join root indexName) else none

def notFound : SiteResponse := .text 404 "Not found"

/-- The part of `handle` that serves a site. -/
def serveSite (platform : SitePlatform) (disk : Path → Entry) (request : SiteRequest) (site : ActiveSite) : SiteResponse :=
  match platform.decodeURIComponent request.pathname with
  | none => .text 400 "Bad request"
  | some pathname =>
    let relative := stripSeparators (normalize pathname)
    if refusedPath relative then notFound
    else match siteFile disk site.root relative with
      | none => notFound
      | some file =>
        if disk file = .file then .file file (request.method ≠ "HEAD") (fileHeaders platform relative file) else notFound

def handle (platform : SitePlatform) (host : StaticSiteHost) (disk : Path → Entry) (request : SiteRequest) : SiteResponse :=
  if request.pathname = "/health/live".toList then .text 200 "ok\n"
  else if request.pathname = "/health/ready".toList then
    if host.ready then .text 200 "ready\n" else .text 503 "not ready\n"
  else if request.pathname = "/internal/caddy/ask".toList then
    let domain := (request.domain.map (plainHostname platform)).filter fun domain => domain ≠ ""
    .empty (if domain.any fun domain => (getActive domain host.active).isSome then 200 else 404)
  else if request.method ≠ "GET" ∧ request.method ≠ "HEAD" then .text 405 "Method not allowed"
  else match (requestHostname platform request).bind fun hostname => getActive hostname host.active with
    | none => notFound
    | some site => serveSite platform disk request site

/-! ## Files below the root -/

variable {relative : Text} {root : Path}

theorem refusedPath_false (h : refusedPath relative = false) :
    ∀ name ∈ relative.splitOn '/', name.head? ≠ some '.' := by
  intro name hname hdot
  rw [List.splitOn_eq_splitOnP] at hname
  obtain ⟨part, hpart, hstart⟩ := head_splitOnP_finer (q := fun c => c == '/' || c == '\\')
    (fun c hc => by simp [hc]) hname hdot (by decide)
  rw [refusedPath, Bool.or_eq_false_iff] at h
  exact List.any_eq_false.mp h.2 part hpart (beq_iff_eq.mpr hstart)

variable {platform : SitePlatform} {host : StaticSiteHost} {disk : Path → Entry} {request : SiteRequest} {file : Path}
  {withBody : Bool} {headers : List (String × String)}

/-- The file is the root with visible names behind it, or such a path with a separator at its end. -/
def Below (root file : Path) : Prop :=
  ∃ rest, (∀ name ∈ rest, Visible name) ∧ (file = root ++ rest ∨ file = root ++ rest ++ [[]])

theorem Below.inside (h : Below root file) : ∃ rest, file = root ++ rest ∧ ∀ name ∈ rest, Inside name := by
  obtain ⟨rest, hvisible, rfl | rfl⟩ := h
  · exact ⟨rest, rfl, fun name hname => (hvisible name hname).inside⟩
  · refine ⟨rest ++ [[]], List.append_assoc _ _ _, fun name hname => ?_⟩
    rcases List.mem_append.mp hname with hname | hname
    · exact (hvisible name hname).inside
    · cases List.mem_singleton.mp hname
      exact ⟨List.cons_ne_nil _ _ |>.symm, List.cons_ne_nil _ _ |>.symm⟩

theorem siteFile_below (hrelative : refusedPath relative = false) (h : siteFile disk root relative = some file) :
    Below root file := by
  have hindex : ∀ name ∈ indexName.splitOn '/', name.head? ≠ some '.' := by decide
  have hname : ∀ name ∈ (if relative = [] then indexName else relative).splitOn '/', name.head? ≠ some '.' := by
    split
    · exact hindex
    · exact refusedPath_false hrelative
  have hfolder : ∀ name ∈ ((if relative = [] then indexName else relative) ++ '/' :: indexName).splitOn '/',
      name.head? ≠ some '.' := by
    rw [List.splitOn_append_cons_self]
    exact fun name hmem => (List.mem_append.mp hmem).elim (hname name) (hindex name)
  unfold siteFile at h
  dsimp only at h
  split at h
  · cases h
    exact join_visible hfolder root
  · cases h
    exact join_visible hname root
  · split at h
    · cases h
      exact join_visible hindex root
    · cases h

theorem serveSite_below {site : ActiveSite} (h : serveSite platform disk request site = .file file withBody headers) :
    disk file = .file ∧ Below site.root file := by
  unfold serveSite at h
  split at h
  · cases h
  · dsimp only at h
    split at h
    · cases h
    · rename_i hrelative
      split at h
      · cases h
      · rename_i found hfound
        split at h
        · rename_i hpresent
          cases h
          exact ⟨hpresent, siteFile_below (Bool.eq_false_iff.mpr hrelative) hfound⟩
        · cases h

theorem handle_file (h : handle platform host disk request = .file file withBody headers) :
    ∃ site ∈ host.active, requestHostname platform request = some site.hostname ∧ disk file = .file ∧
      Below site.root file := by
  unfold handle at h
  split at h
  · cases h
  · split at h
    · split at h <;> cases h
    · split at h
      · cases h
      · split at h
        · cases h
        · split at h
          · cases h
          · rename_i site hsite
            obtain ⟨hostname, hhostname, hactive⟩ := Option.bind_eq_some_iff.mp hsite
            have hkey := List.find?_some hactive
            refine ⟨site, List.mem_of_find?_eq_some hactive, ?_, serveSite_below h⟩
            rw [hhostname, beq_iff_eq.mp hkey]

end AvenOS.StaticSites
