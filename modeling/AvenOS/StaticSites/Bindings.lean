import AvenOS.Foundations.PosixPath

/-! # Site bindings and the proof of ownership

A binding of the directory names the repository and the branches of a site and the hash of the token that its owner has to
publish. What the directory answers is checked again before anything is done with it. -/
namespace AvenOS.StaticSites
open PosixPath

inductive VerificationMode where
  | txt
  | operator
  deriving DecidableEq, Repr

structure DirectoryBinding where
  id : String
  hostname : String
  repository_full_name : String
  clone_url : String
  source_ref : String
  artifact_ref : String
  artifact_path : String
  verification_mode : VerificationMode
  verification_token_hash : String
  verified_at : Option ℕ
  owner_is_admin : Bool
  deriving DecidableEq, Repr

/-! ## What a binding may hold -/

def isLowerHex (c : Char) : Bool := c.isDigit || ('a' ≤ c && c ≤ 'f')

def occursIn (part : Text) : Text → Bool
  | [] => part.isEmpty
  | c :: rest => part.isPrefixOf (c :: rest) || occursIn part rest

def hexGroup (length : ℕ) (first : Char → Bool) (group : Text) : Bool :=
  group.length == length && group.all isLowerHex && group.head?.all first

def validId (id : Text) : Bool :=
  match id.splitOn '-' with
  | [one, two, version, variant, last] =>
    hexGroup 8 (fun _ => true) one && hexGroup 4 (fun _ => true) two &&
      hexGroup 4 (fun c => '1' ≤ c && c ≤ '8') version && hexGroup 4 ['8', '9', 'a', 'b'].contains variant &&
      hexGroup 12 (fun _ => true) last
  | _ => false

def hostnameLabel (label : Text) : Bool :=
  0 < label.length && label.length ≤ 63 && label.all (fun c => c.isLower || c.isDigit || c == '-') &&
    label.head? != some '-' && label.getLast? != some '-'

def validHostname (hostname : Text) : Bool :=
  2 ≤ (hostname.splitOn '.').length && (hostname.splitOn '.').all hostnameLabel

/-- The names that the platform keeps for itself. -/
def platformHostname (hostname : String) : Bool := hostname == "aven.ceo" || ".aven.ceo".toList.isSuffixOf hostname.toList

def repositoryPart (part : Text) : Bool :=
  0 < part.length && part.length ≤ 100 && part.all fun c => c.isLower || c.isDigit || c == '_' || c == '.' || c == '-'

def githubRepository (name : Text) : Bool :=
  match name.splitOn '/' with
  | [owner, repository] => repositoryPart owner && repositoryPart repository
  | _ => false

def refCharacter (c : Char) : Bool := c.isAlphanum || c == '.' || c == '_' || c == '-'

/-- What follows `refs/heads/`. Neither `@{` nor a backslash is made of the admitted characters. -/
def gitBranch (branch : Text) : Bool :=
  0 < branch.length && branch.length ≤ 200 && branch.all (fun c => refCharacter c || c == '/') &&
    !(['.', '/', '-'].any fun c => branch.head? == some c) && !(['.', '/'].any fun c => branch.getLast? == some c) &&
    !occursIn ['.', '.'] branch && !occursIn ['/', '/'] branch

def gitRefComponent (component : Text) : Bool :=
  component ≠ [] && component.all refCharacter && component.head? != some '.' && !".lock".toList.isSuffixOf component

def validGitRef (ref : Text) : Bool :=
  "refs/heads/".toList.isPrefixOf ref &&
    let branch := ref.drop "refs/heads/".length
    gitBranch branch && branch != ['@'] && (branch.splitOn '/').all gitRefComponent

def sha256Digest (hash : Text) : Bool := hash.length == 64 && hash.all isLowerHex

/-- The first check of `validateBinding` that a binding does not pass. -/
def validateBinding (binding : DirectoryBinding) : Except String Unit :=
  if !validId binding.id.toList then .error "invalid binding id"
  else if !validHostname binding.hostname.toList || 253 < binding.hostname.length ||
      (platformHostname binding.hostname && !binding.owner_is_admin) then .error "invalid or reserved hostname"
  else if !githubRepository binding.repository_full_name.toList ||
      occursIn ['.', '.'] binding.repository_full_name.toList then .error "invalid GitHub repository"
  else if binding.clone_url ≠ "https://github.com/" ++ binding.repository_full_name ++ ".git" then
    .error "clone URL does not match the GitHub repository"
  else if !validGitRef binding.source_ref.toList then .error "invalid source ref"
  else if !validGitRef binding.artifact_ref.toList ||
      !"refs/heads/deploy/".toList.isPrefixOf binding.artifact_ref.toList then .error "invalid deployment ref"
  else if binding.artifact_path ≠ "dist" then .error "only the dist artifact path is supported"
  else if binding.verification_mode = .operator ∧ !(binding.owner_is_admin && platformHostname binding.hostname) then
    .error "operator verification is restricted to platform-managed aven.ceo sites"
  else if !sha256Digest binding.verification_token_hash.toList then .error "invalid verification token hash"
  else .ok ()

def valid (binding : DirectoryBinding) : Bool := (validateBinding binding).isOk

/-! ## The DNS check -/

/-- What a lookup of a name gives. `missing` stands for the codes ENODATA, ENOTFOUND and ESERVFAIL. -/
inductive Lookup (α : Type) where
  | found (records : List α)
  | missing
  | failed (message : String)
  deriving DecidableEq, Repr

/-- The answers about a hostname: the TXT records of `_aven-site.` and it, its A and its AAAA records. -/
structure DnsAnswers where
  txt : Lookup (List String)
  ipv4 : Lookup String
  ipv6 : Lookup String
  deriving DecidableEq, Repr

def optional {α : Type} : Lookup α → Except String (List α)
  | .found records => .ok records
  | .missing => .ok []
  | .failed message => .error message

/-- What is called and not in the repository, or belongs to the language. -/
structure SitePlatform where
  sha256Hex : String → String
  toLowerCase : Text → Text
  decodeURIComponent : Text → Option Text
  collate : String → String → Ordering

structure SiteHostConfig where
  /-- The names of the folder of the host, from the root on. -/
  dataRoot : Path
  maxConcurrentSyncs : ℕ
  allowedIpv4 : List String
  allowedIpv6 : List String
  dnsGraceMilliseconds : ℕ
  concurrent : 0 < maxConcurrentSyncs

/-- `none` when the check passes, else the reason that it gives. -/
def verifyDns (platform : SitePlatform) (config : SiteHostConfig) (tokenHash : String) (mode : VerificationMode)
    (answers : DnsAnswers) : Except String (Option String) := do
  let records ← if mode = .txt then optional answers.txt else pure []
  if mode = .txt ∧ !records.any fun parts => platform.sha256Hex (String.join parts) == tokenHash then
    return some "TXT ownership verification is missing or invalid"
  let ipv4 ← optional answers.ipv4
  if ipv4.isEmpty || ipv4.any fun address => !config.allowedIpv4.contains address then
    return some "A records must point only to this hosting service"
  let ipv6 ← optional answers.ipv6
  if ipv6.any fun address => !config.allowedIpv6.contains address then
    return some "AAAA records must point only to this hosting service"
  return none

end AvenOS.StaticSites
