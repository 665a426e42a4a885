import AvenOS.Foundations.KeyedTable
import AvenOS.HttpResources.Requests

/-! # The customer vault

Credentials and the bindings that say where each may go. Administration sets secrets and never reads one; a session
finds the one most specific binding of a request and resolves it for one use. -/
namespace AvenOS.HttpResources
open Actors StableSort KeyedTable

/-! ## Bindings -/

inductive Placement
  | localEnvironment
  | serverEnvironment
deriving DecidableEq, Repr

def Placement.text : Placement → String
  | .localEnvironment => "local"
  | .serverEnvironment => "server"

inductive Scheme
  | https
  | http
deriving DecidableEq, Repr

def Scheme.text : Scheme → String
  | .https => "https"
  | .http => "http"

inductive HostKind
  | exact
  | suffix
deriving DecidableEq, Repr

structure HostMatcher where
  kind : HostKind
  value : String
deriving DecidableEq, Repr

inductive CredentialAttachmentRule
  | header (name prefixText : String)
  | cookie (name : String)
  | query (name : String)
deriving DecidableEq, Repr

structure CredentialBinding where
  bindingRef : String
  label : String
  ownerSubjectId : String
  credentialRef : String
  placements : List Placement
  schemes : List Scheme
  host : HostMatcher
  ports : List ℕ
  pathPrefix : String
  methods : List HttpMethod
  purpose : String
  attachment : CredentialAttachmentRule
  enabled : Bool
deriving DecidableEq, Repr

structure StoredCredential where
  credentialRef : String
  ownerSubjectId : String
  label : String
  secret : String
  version : ℕ
  enabled : Bool
deriving DecidableEq, Repr

/-- Two maps, in the order of their insertions. -/
structure VaultState where
  credentials : List StoredCredential
  bindings : List CredentialBinding
  credentialsKeyed : Keyed StoredCredential.credentialRef credentials
  bindingsKeyed : Keyed CredentialBinding.bindingRef bindings

def VaultState.empty : VaultState := ⟨[], [], .nil, .nil⟩

def VaultState.credential (state : VaultState) (credentialRef : String) : Option StoredCredential :=
  lookup StoredCredential.credentialRef credentialRef state.credentials

def VaultState.binding (state : VaultState) (bindingRef : String) : Option CredentialBinding :=
  lookup CredentialBinding.bindingRef bindingRef state.bindings

structure VaultSessionContext where
  tenantId : String
  subjectId : String
  sessionId : String
  executionEnvironment : Placement
deriving DecidableEq, Repr

section Vault
variable (platform : HttpPlatform)

def uuid (value : String) : Parsed String := if platform.isUuid value then .ok value else .error .schema

/-! ## Sessions -/

def assertSessionContext (context : VaultSessionContext) (tenantId : String) : Parsed Unit := do
  let requestedTenantId ← uuid platform context.tenantId
  throwIf (requestedTenantId ≠ tenantId) .vaultTenantMismatch
  let _ ← uuid platform context.subjectId
  let _ ← boundedText 1 256 (.str context.sessionId)
  return ()

def ownedCredential (state : VaultState) (ownerSubjectId credentialRef : String) : Parsed StoredCredential := do
  let subject ← uuid platform ownerSubjectId
  let reference ← uuid platform credentialRef
  match state.credential reference with
  | none => throw .vaultCredentialNotFound
  | some credential => if credential.ownerSubjectId = subject then return credential else throw .vaultCredentialNotFound

def ownedBinding (state : VaultState) (ownerSubjectId bindingRef : String) : Parsed CredentialBinding := do
  let subject ← uuid platform ownerSubjectId
  let reference ← uuid platform bindingRef
  match state.binding reference with
  | none => throw .vaultBindingNotFound
  | some binding => if binding.ownerSubjectId = subject then return binding else throw .vaultBindingNotFound

def hostMatches (matcher : HostMatcher) (hostname : String) : Bool :=
  let candidate := platform.toLowerCase hostname
  match matcher.kind with
  | .exact => candidate == matcher.value
  | .suffix => candidate != matcher.value && endsWith candidate ("." ++ matcher.value)

def pathMatches (pathPrefix pathname : String) : Bool :=
  if pathPrefix = "/" then true
  else if endsWith pathPrefix "/" then startsWith pathname pathPrefix
  else pathname == pathPrefix || startsWith pathname (pathPrefix ++ "/")

def specificity (binding : CredentialBinding) : ℕ :=
  let hostScore := match binding.host.kind with
    | .exact => 1000000
    | .suffix => textLength binding.host.value * 1000
  hostScore + textLength binding.pathPrefix

def portOf (url : Url) : ℕ := url.port.getD (if url.protocol = "https:" then 443 else 80)

/-- The filter of `matchingBindings`. -/
def bindingMatches (state : VaultState) (request : HttpRequestArtifact) (url : Url) (context : VaultSessionContext)
    (binding : CredentialBinding) : Bool :=
  match state.credential binding.credentialRef with
  | none => false
  | some credential =>
    binding.enabled && credential.enabled &&
      binding.ownerSubjectId == context.subjectId && credential.ownerSubjectId == context.subjectId &&
      binding.placements.contains context.executionEnvironment &&
      binding.schemes.any (fun scheme => scheme.text ++ ":" == url.protocol) &&
      binding.ports.contains (portOf url) && binding.methods.contains request.method &&
      some binding.purpose == request.authentication.purpose &&
      hostMatches platform binding.host url.hostname && pathMatches binding.pathPrefix url.pathname

/-- Best first. -/
def byScore (left right : CredentialBinding) : Ordering :=
  (compare (specificity right) (specificity left)).then (platform.localeCompare left.bindingRef right.bindingRef)

def matchingBindings (state : VaultState) (request : HttpRequestArtifact) (context : VaultSessionContext) :
    Parsed (List CredentialBinding) :=
  if request.authentication.mode = .anonymous then .ok []
  else
    match platform.parseUrl request.url with
    | none => .error .urlType
    | some url => .ok (sortBy (byScore platform) (state.bindings.filter (bindingMatches platform state request url context)))

inductive VaultMatch
  | none
  | ambiguous (bindingRefs : List String)
  | matched (binding : CredentialBinding) (credentialRef : String) (secretVersion : ℕ)
deriving DecidableEq, Repr

def normalized (request : HttpRequestArtifact) : Parsed HttpRequestArtifact :=
  if startsWith request.url "http:" then
    match platform.parseUrl request.url with
    | none => .error .urlType
    | some url => parseHttpRequestArtifact platform request.toValue [url.origin]
  else parseHttpRequestArtifact platform request.toValue []

def sessionMatch (tenantId : String) (state : VaultState) (request : HttpRequestArtifact)
    (context : VaultSessionContext) : Parsed VaultMatch := do
  assertSessionContext platform context tenantId
  let request ← normalized platform request
  let candidates ← matchingBindings platform state request context
  match candidates with
  | [] => return .none
  | selected :: _ =>
    let best := candidates.filter fun candidate => specificity candidate = specificity selected
    if 1 < best.length then
      return .ambiguous (sortBy platform.localeCompare (best.map CredentialBinding.bindingRef))
    let credential ← ownedCredential platform state context.subjectId selected.credentialRef
    return .matched selected credential.credentialRef credential.version

/-- A secret for one request. Host only: it goes to the transport and is discarded. -/
structure RequestScopedCredentialAttachment where
  bindingRef : String
  credentialRef : String
  secretVersion : ℕ
  requestDigest : String
  rule : CredentialAttachmentRule
  secret : String
deriving DecidableEq, Repr

structure ResolveInput where
  bindingRef : String
  request : HttpRequestArtifact
  requestDigest : String
  runId : String
  stepId : String
  context : VaultSessionContext
deriving DecidableEq, Repr

/-- `resolveForUse` as far as its own `match`. -/
def resolveMatch (tenantId : String) (state : VaultState) (input : ResolveInput) : Parsed VaultMatch := do
  assertSessionContext platform input.context tenantId
  throwIf (input.runId = "" ∨ input.stepId = "") .vaultInvocationUnbound
  let request ← normalized platform input.request
  throwIf (httpRequestDigest platform request ≠ input.requestDigest) .vaultRequestDigestMismatch
  sessionMatch platform tenantId state request input.context

/-- `resolveForUse` from the answer of its `match` on. The digest is that of the request, which was compared. -/
def resolveSecret (state : VaultState) (input : ResolveInput) (answer : VaultMatch) :
    Parsed RequestScopedCredentialAttachment :=
  match answer with
  | .matched binding credentialRef _ => do
    throwIf (binding.bindingRef ≠ input.bindingRef) .vaultBindingNotUsable
    let credential ← ownedCredential platform state input.context.subjectId credentialRef
    throwIf (credential.enabled = false) .vaultCredentialRevoked
    return ⟨binding.bindingRef, credential.credentialRef, credential.version, input.requestDigest, binding.attachment,
      credential.secret⟩
  | _ => .error .vaultBindingNotUsable

/-! ## Administration -/

def forbiddenAttachmentHeaders : List String :=
  ["connection", "content-length", "forwarded", "host", "if-modified-since", "if-none-match", "proxy-authorization",
    "transfer-encoding", "x-forwarded-for", "x-forwarded-host", "x-forwarded-proto"]

def secretValue (value : String) : Parsed String :=
  if textLength value < 1 ∨ 32 * 1024 < value.utf8ByteSize then .error .vaultSecretInvalid
  else if containsControlCharacter value then .error .vaultSecretInvalid
  else .ok value

def attachmentSchema (attachment : CredentialAttachmentRule) : Parsed Unit :=
  match attachment with
  | .header name prefixText => do
    let _ ← boundedText 1 128 (.str name)
    let _ ← boundedText 0 256 (.str prefixText)
    return ()
  | .cookie name => (boundedText 1 128 (.str name)).map fun _ => ()
  | .query name => (boundedText 1 128 (.str name)).map fun _ => ()

def bounded {α : Type} (most : ℕ) (items : List α) : Parsed Unit :=
  if 1 ≤ items.length ∧ items.length ≤ most then .ok () else .error .schema

/-- `bindingSchema`, which trims the label and the purpose. -/
def bindingSchema (input : CredentialBinding) : Parsed CredentialBinding := do
  let bindingRef ← uuid platform input.bindingRef
  let label ← trimmedText 256 (.str input.label)
  let ownerSubjectId ← uuid platform input.ownerSubjectId
  let credentialRef ← uuid platform input.credentialRef
  bounded 2 input.placements
  bounded 2 input.schemes
  let value ← boundedText 1 253 (.str input.host.value)
  bounded 32 input.ports
  throwIf (input.ports.any fun port => port < 1 || 65535 < port) .schema
  let pathPrefix ← boundedText 1 2048 (.str input.pathPrefix)
  bounded 2 input.methods
  let purpose ← trimmedText 128 (.str input.purpose)
  attachmentSchema input.attachment
  return { input with bindingRef, label, ownerSubjectId, credentialRef, host := ⟨input.host.kind, value⟩, pathPrefix, purpose }

def normalizeAttachment (attachment : CredentialAttachmentRule) : Parsed CredentialAttachmentRule :=
  match attachment with
  | .header name prefixText =>
    let name := platform.toLowerCase name
    if isHttpToken name = false then .error .vaultAttachmentNameInvalid
    else if name ∈ forbiddenAttachmentHeaders then .error .vaultAttachmentHeaderForbidden
    else if containsControlCharacter prefixText then .error .vaultAttachmentPrefixInvalid
    else .ok (.header name prefixText)
  | .cookie name =>
    let name := platform.toLowerCase name
    if isHttpToken name then .ok (.cookie name) else .error .vaultAttachmentNameInvalid
  | .query name =>
    let name := platform.toLowerCase name
    if isHttpToken name then .ok (.query name) else .error .vaultAttachmentNameInvalid

/-- `value.replace(/^\*\./, '')`. -/
def withoutWildcard (value : String) : String :=
  match value.toList with
  | '*' :: '.' :: rest => String.ofList rest
  | _ => value

def normalizeBinding (input : CredentialBinding) : Parsed CredentialBinding := do
  let parsed ← bindingSchema platform input
  let host := withoutWildcard (platform.toLowerCase parsed.host.value)
  throwIf (host.toList.contains ':' ∨ endsWith host ".") .vaultBindingHostInvalid
  match platform.resolveUrl parsed.pathPrefix "https://binding.invalid" with
  | none => throw .urlType
  | some url =>
    throwIf (url.pathname ≠ parsed.pathPrefix ∨ startsWith url.pathname "/" = false) .vaultBindingPathInvalid
    let attachment ← normalizeAttachment platform parsed.attachment
    return { parsed with
      placements := sortBy (fun left right => compare left.text right.text) parsed.placements.eraseDups
      schemes := sortBy (fun left right => compare left.text right.text) parsed.schemes.eraseDups
      host := ⟨parsed.host.kind, host⟩
      ports := sortBy (fun left right => compare left right) parsed.ports.eraseDups
      methods := sortBy (fun left right => compare left.text right.text) parsed.methods.eraseDups
      pathPrefix := url.pathname
      attachment := attachment }

/-- `map.set` of a reference that the map has not. -/
def VaultState.addCredential (state : VaultState) (credential : StoredCredential)
    (hnew : state.credential credential.credentialRef = none) : VaultState :=
  { state with
    credentials := state.credentials ++ [credential]
    credentialsKeyed := state.credentialsKeyed.concat fun _ hother => lookup_none hnew hother }

def VaultState.updateCredential (state : VaultState) (credentialRef : String) (change : StoredCredential → StoredCredential)
    (hchange : ∀ credential, (change credential).credentialRef = credential.credentialRef) : VaultState :=
  { state with
    credentials := modify StoredCredential.credentialRef credentialRef change state.credentials
    credentialsKeyed := state.credentialsKeyed.modify hchange }

def VaultState.setBinding (state : VaultState) (binding : CredentialBinding) : VaultState :=
  if hnew : state.binding binding.bindingRef = none then
    { state with
      bindings := state.bindings ++ [binding]
      bindingsKeyed := state.bindingsKeyed.concat fun _ hother => lookup_none hnew hother }
  else
    { state with
      bindings := modify CredentialBinding.bindingRef binding.bindingRef (fun _ => binding) state.bindings
      bindingsKeyed := state.bindingsKeyed.replace }

def setCredential (state : VaultState) (ownerSubjectId label secret credentialRef : String) : Parsed VaultState := do
  let owner ← uuid platform ownerSubjectId
  let reference ← uuid platform credentialRef
  if hnew : state.credential reference = none then
    let label ← trimmedText 256 (.str label)
    let secret ← secretValue secret
    return state.addCredential ⟨reference, owner, label, secret, 1, true⟩ hnew
  else throw .vaultCredentialExists

def rotateCredential (state : VaultState) (ownerSubjectId credentialRef secret : String) : Parsed VaultState := do
  let credential ← ownedCredential platform state ownerSubjectId credentialRef
  let secret ← secretValue secret
  return state.updateCredential credential.credentialRef
    (fun stored => { stored with secret := secret, version := stored.version + 1, enabled := true }) fun _ => rfl

def revokeCredential (state : VaultState) (ownerSubjectId credentialRef : String) : Parsed VaultState := do
  let credential ← ownedCredential platform state ownerSubjectId credentialRef
  return state.updateCredential credential.credentialRef (fun stored => { stored with enabled := false }) fun _ => rfl

def putBinding (state : VaultState) (input : CredentialBinding) : Parsed VaultState := do
  let binding ← normalizeBinding platform input
  let _ ← ownedCredential platform state binding.ownerSubjectId binding.credentialRef
  match state.binding binding.bindingRef with
  | some existing =>
    throwIf (existing.ownerSubjectId ≠ binding.ownerSubjectId) .vaultBindingNotFound
    return state.setBinding binding
  | none => return state.setBinding binding

def revokeBinding (state : VaultState) (ownerSubjectId bindingRef : String) : Parsed VaultState := do
  let binding ← ownedBinding platform state ownerSubjectId bindingRef
  return state.setBinding { binding with enabled := false }

/-- One call of the administration; a new credential comes with its reference. -/
inductive Administration
  | setCredential (ownerSubjectId label secret credentialRef : String)
  | rotateCredential (ownerSubjectId credentialRef secret : String)
  | revokeCredential (ownerSubjectId credentialRef : String)
  | putBinding (binding : CredentialBinding)
  | revokeBinding (ownerSubjectId bindingRef : String)
deriving DecidableEq, Repr

def administer (state : VaultState) : Administration → Parsed VaultState
  | .setCredential owner label secret reference => setCredential platform state owner label secret reference
  | .rotateCredential owner reference secret => rotateCredential platform state owner reference secret
  | .revokeCredential owner reference => revokeCredential platform state owner reference
  | .putBinding binding => putBinding platform state binding
  | .revokeBinding owner reference => revokeBinding platform state owner reference

def administered (state : VaultState) (call : Administration) : VaultState :=
  match administer platform state call with
  | .ok changed => changed
  | .error _ => state

end Vault
end AvenOS.HttpResources
