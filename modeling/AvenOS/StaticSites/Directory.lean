import AvenOS.StaticSites.Bindings
import AvenOS.Foundations.JsonStrings
import AvenOS.Foundations.KeyedTable
import AvenOS.Foundations.StableSort

/-! # The directory of sites

The control service keeps one row for each binding. A hostname and a deployment branch belong to one row at a time. What the
host reports about a binding is written to the row with its id, whatever has become of the row since. -/
namespace AvenOS.StaticSites
open KeyedTable

inductive DesiredStatus where
  | active
  | suspended
  deriving DecidableEq, Repr

inductive SiteRuntimeStatus where
  | awaitingDns
  | syncing
  | active
  | dnsInvalid
  | failed
  deriving DecidableEq, Repr

structure SiteRow where
  id : String
  ownerSubjectId : Option String
  systemManaged : Bool
  hostname : String
  repositoryFullName : String
  sourceRef : String
  artifactRef : String
  artifactPath : String
  verificationMode : VerificationMode
  verificationTokenHash : String
  desiredStatus : DesiredStatus
  runtimeStatus : SiteRuntimeStatus
  activeArtifactRevision : Option String
  activeSourceRevision : Option String
  lastError : Option String
  verifiedAt : Option ℕ
  lastDnsCheckAt : Option ℕ
  lastSyncedAt : Option ℕ
  deriving DecidableEq, Repr

structure SiteBindingDraft where
  hostname : String
  repository : String
  sourceBranch : String
  deploymentBranch : String
  deriving DecidableEq, Repr

/-- What the host reports about a binding. -/
structure SiteReport where
  id : String
  status : SiteRuntimeStatus
  error : Option String
  artifactRevision : Option String
  sourceRevision : Option String
  dnsVerified : Bool
  deriving DecidableEq, Repr

def headsRef (branch : String) : String := "refs/heads/" ++ branch

def conflicts (rows : List SiteRow) (id hostname repository artifactRef : String) : Bool :=
  rows.any fun row => row.id != id &&
    (row.hostname == hostname || (row.repositoryFullName == repository && row.artifactRef == artifactRef))

def createdRow (id subjectId tokenHash : String) (input : SiteBindingDraft) : SiteRow where
  id := id
  ownerSubjectId := some subjectId
  systemManaged := false
  hostname := input.hostname
  repositoryFullName := input.repository
  sourceRef := headsRef input.sourceBranch
  artifactRef := headsRef input.deploymentBranch
  artifactPath := "dist"
  verificationMode := .txt
  verificationTokenHash := tokenHash
  desiredStatus := .active
  runtimeStatus := .awaitingDns
  activeArtifactRevision := none
  activeSourceRevision := none
  lastError := none
  verifiedAt := none
  lastDnsCheckAt := none
  lastSyncedAt := none

/-- `persist` without an id. `none` where a unique index refuses the row. -/
def create (rows : List SiteRow) (id subjectId tokenHash : String) (input : SiteBindingDraft) : Option (List SiteRow) :=
  if rows.any (fun row => row.id == id) || conflicts rows id input.hostname input.repository (headsRef input.deploymentBranch)
  then none
  else some (rows ++ [createdRow id subjectId tokenHash input])

def editedRow (tokenHash : String) (input : SiteBindingDraft) (row : SiteRow) : SiteRow :=
  { row with
    hostname := input.hostname
    repositoryFullName := input.repository
    sourceRef := headsRef input.sourceBranch
    artifactRef := headsRef input.deploymentBranch
    verificationTokenHash := tokenHash
    desiredStatus := .active
    runtimeStatus := .awaitingDns
    activeArtifactRevision := none
    activeSourceRevision := none
    lastError := none
    verifiedAt := none
    lastDnsCheckAt := none
    lastSyncedAt := none }

def ownedBy (subjectId id : String) (row : SiteRow) : Bool :=
  row.id == id && row.ownerSubjectId == some subjectId && !row.systemManaged

/-- `persist` with an id. -/
def update (rows : List SiteRow) (subjectId id tokenHash : String) (input : SiteBindingDraft) : Option (List SiteRow) :=
  if !rows.any (ownedBy subjectId id) ||
      conflicts rows id input.hostname input.repository (headsRef input.deploymentBranch) then none
  else some (rows.map fun row => if ownedBy subjectId id row then editedRow tokenHash input row else row)

def remove (rows : List SiteRow) (subjectId id : String) : List SiteRow := rows.filter fun row => !ownedBy subjectId id row

/-- The row a site of the platform gets when its hostname has none. -/
def seededRow (id tokenHash : String) (site : SiteBindingDraft) : SiteRow :=
  { createdRow id "" tokenHash site with ownerSubjectId := none, systemManaged := true, verificationMode := .operator }

/-- The row of its hostname becomes a site of the platform: its id, its token and what is known of its proof stay. -/
def reseededRow (site : SiteBindingDraft) (row : SiteRow) : SiteRow :=
  { row with
    systemManaged := true
    ownerSubjectId := none
    repositoryFullName := site.repository
    sourceRef := headsRef site.sourceBranch
    artifactRef := headsRef site.deploymentBranch
    artifactPath := "dist"
    verificationMode := .operator
    desiredStatus := .active
    runtimeStatus := .awaitingDns
    lastError := none }

/-- One site of `seedSystemSites`. `none` where the operator check or a unique index refuses the row. -/
def seed (rows : List SiteRow) (id tokenHash : String) (site : SiteBindingDraft) : Option (List SiteRow) :=
  if !platformHostname site.hostname then none
  else match lookup SiteRow.hostname site.hostname rows with
    | some row =>
      if conflicts rows row.id site.hostname site.repository (headsRef site.deploymentBranch) then none
      else some (modify SiteRow.hostname site.hostname (reseededRow site) rows)
    | none =>
      if rows.any (fun row => row.id == id) || conflicts rows id site.hostname site.repository (headsRef site.deploymentBranch)
      then none
      else some (rows ++ [seededRow id tokenHash site])

def listedBinding (row : SiteRow) : DirectoryBinding where
  id := row.id
  hostname := row.hostname
  repository_full_name := row.repositoryFullName
  clone_url := "https://github.com/" ++ row.repositoryFullName ++ ".git"
  source_ref := row.sourceRef
  artifact_ref := row.artifactRef
  artifact_path := row.artifactPath
  verification_mode := row.verificationMode
  verification_token_hash := row.verificationTokenHash
  verified_at := row.verifiedAt
  owner_is_admin := row.systemManaged

def directory (platform : SitePlatform) (rows : List SiteRow) : List DirectoryBinding :=
  (StableSort.sortBy (fun row other => platform.collate row.hostname other.hostname)
    (rows.filter fun row => row.desiredStatus == .active)).map listedBinding

def revisionText (revision : String) : Bool := revision.length == 40 && revision.toList.all isLowerHex

/-- What `reportSchema` admits of the reports that the host writes. -/
def reportAdmitted (report : SiteReport) : Bool :=
  report.error.all (fun message => (Json.unitsOf message.toList).length ≤ 1000) && report.artifactRevision.all revisionText &&
    report.sourceRevision.all revisionText

def reportedRow (now : ℕ) (input : SiteReport) (row : SiteRow) : SiteRow :=
  { row with
    runtimeStatus := input.status
    lastError := input.error
    activeArtifactRevision := input.artifactRevision.or row.activeArtifactRevision
    activeSourceRevision := input.sourceRevision.or row.activeSourceRevision
    lastDnsCheckAt := some now
    verifiedAt := if input.dnsVerified then some now else row.verifiedAt
    lastSyncedAt := if input.status = .active then some now else row.lastSyncedAt }

def report (rows : List SiteRow) (now : ℕ) (input : SiteReport) : List SiteRow :=
  if reportAdmitted input then modify SiteRow.id input.id (reportedRow now input) rows else rows

end AvenOS.StaticSites
