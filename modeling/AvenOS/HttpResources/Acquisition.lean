import AvenOS.Foundations.LabelledRun
import AvenOS.HttpResources.Vault

/-! # Acquiring a resource

`acquireHttpResource` from await to await, with the calls of the vault's administration in between. What each
exchange was given is kept with the vaults that were looked at for it. -/
namespace AvenOS.HttpResources
open Actors StableSort LabelledRun

/-! ## Responses -/

structure RetainedHttpResponseHeader where
  name : String
  values : List String
deriving DecidableEq, Repr

inductive HttpCacheDisposition
  | new
  | freshCache
  | revalidated
deriving DecidableEq, Repr

/-- A response artifact without the length of its stored body. -/
structure HttpResponseMetadata where
  requestedUrl : String
  finalUrl : String
  statusCode : ℕ
  networkStatusCode : Option ℕ
  cacheDisposition : HttpCacheDisposition
  representationSourceArtifactId : Option String
  protocol : Option String
  declaredMediaType : Option String
  declaredCharset : Option String
  etag : Option String
  lastModified : Option String
  headers : List RetainedHttpResponseHeader
  redirectCount : ℕ
  capturedAt : String
deriving DecidableEq, Repr

structure HttpResponseCandidate where
  artifactId : String
  payload : HttpResponseMetadata
  bodySha256 : String
  bodyLength : ℕ
  fresh : Bool
deriving DecidableEq, Repr

/-- An answer of the transport; the names of its headers are in lower case. -/
structure HttpTransportExchange where
  status : ℕ
  headers : List (String × String)
  protocol : Option String
deriving DecidableEq, Repr

inductive HttpConditionalValidators
  | ifNoneMatch (etag : String)
  | ifModifiedSince (lastModified : String)
deriving DecidableEq, Repr

/-- The input of `exchange`. -/
structure Exchange where
  request : HttpRequestArtifact
  credential : Option RequestScopedCredentialAttachment
  conditional : Option HttpConditionalValidators
deriving DecidableEq, Repr

structure UsedCredential where
  credentialRef : String
  bindingRef : String
  secretVersion : ℕ
  rule : CredentialAttachmentRule
deriving DecidableEq, Repr

inductive CapturedBody
  | stream (declaredLength : Option ℕ)
  | existing (artifactId sha256 : String) (length : ℕ)
deriving DecidableEq, Repr

inductive AcquiredHttpResource
  | existingResponse (responseArtifactId : String)
  | capture (metadata : HttpResponseMetadata) (body : CapturedBody) (credential : Option UsedCredential)
deriving DecidableEq, Repr

structure HttpAcquisitionContext where
  session : VaultSessionContext
  runId : String
  stepId : String
deriving DecidableEq, Repr

def present (value : String) : Option String := if value = "" then none else some value

section Metadata
variable (platform : HttpPlatform)

def charsetOf (charset : Option String) (parameter : List Char) : Option String :=
  let unquoted (value : List Char) : List Char :=
    let value := if value.head? = some '"' then value.tail else value
    if value.getLast? = some '"' then value.dropLast else value
  match parameter.splitOn '=' with
  | [] => charset
  | name :: rest =>
    if platform.toLowerCase (String.ofList (Text.trimChars name)) = "charset" then
      rest.head?.bind fun value => present (platform.toLowerCase (String.ofList (unquoted (Text.trimChars value))))
    else charset

def declaredContentType (headers : List (String × String)) : Option String × Option String :=
  match (headers.lookup "content-type").bind present with
  | none => (none, none)
  | some value =>
    match value.toList.splitOn ';' with
    | [] => (none, none)
    | mediaType :: parameters =>
      (present (platform.toLowerCase (String.ofList (Text.trimChars mediaType))),
        parameters.foldl (charsetOf platform) none)

/-- Sorted. -/
def retainedNames : List String :=
  ["cache-control", "content-disposition", "content-type", "date", "etag", "expires", "last-modified", "vary"]

def retainedResponseHeaders (headers : List (String × String)) : List RetainedHttpResponseHeader :=
  retainedNames.filterMap fun name =>
    (headers.lookup name).bind fun value =>
      if containsControlCharacter value || 16384 < textLength value then none else some ⟨name, [value]⟩

def mergeRetainedHeaders (prior observed : List RetainedHttpResponseHeader) : List RetainedHttpResponseHeader :=
  let merged : List (String × RetainedHttpResponseHeader) :=
    (prior ++ observed).foldl (fun merged header => assign merged header.name header) []
  sortBy (fun left right => platform.localeCompare left.name right.name) (merged.map Prod.snd)

def responseMetadata (requested finalRequest : HttpRequestArtifact) (exchange : HttpTransportExchange)
    (redirectCount : ℕ) (capturedAt : String) (statusCode : ℕ) (networkStatusCode : Option ℕ)
    (cacheDisposition : HttpCacheDisposition) (representationSourceArtifactId : Option String)
    (fallback : Option HttpResponseMetadata) : HttpResponseMetadata :=
  let declared := declaredContentType platform exchange.headers
  { requestedUrl := requested.url
    finalUrl := finalRequest.url
    statusCode
    networkStatusCode
    cacheDisposition
    representationSourceArtifactId := representationSourceArtifactId.bind present
    protocol := exchange.protocol.bind present
    declaredMediaType := declared.1.or (fallback.bind HttpResponseMetadata.declaredMediaType)
    declaredCharset := declared.2.or (fallback.bind HttpResponseMetadata.declaredCharset)
    etag := (exchange.headers.lookup "etag").or (fallback.bind HttpResponseMetadata.etag)
    lastModified := (exchange.headers.lookup "last-modified").or (fallback.bind HttpResponseMetadata.lastModified)
    headers := mergeRetainedHeaders platform (fallback.elim [] HttpResponseMetadata.headers)
      (retainedResponseHeaders exchange.headers)
    redirectCount
    capturedAt }

/-- Digits that make a safe integer. -/
def contentLength (headers : List (String × String)) : Option ℕ :=
  (headers.lookup "content-length").bind fun raw =>
    if raw ≠ "" ∧ raw.toList.all Char.isDigit then
      let value := raw.toList.foldl (fun value digit => value * 10 + (digit.toNat - '0'.toNat)) 0
      if value < 2 ^ 53 then some value else none
    else none

def isRedirect (status : ℕ) : Bool := [301, 302, 303, 307, 308].contains status

def conditionalValidators (payload : HttpResponseMetadata) : Option HttpConditionalValidators :=
  match payload.etag.bind present with
  | some etag => some (.ifNoneMatch etag)
  | none => (payload.lastModified.bind present).map .ifModifiedSince

end Metadata

/-! ## The call -/

/-- One call, what it is given and the tenant of the vault it asks. -/
structure Acquisition where
  platform : HttpPlatform
  tenantId : String
  allowHttpOrigins : List String
  input : JsValue
  context : HttpAcquisitionContext

/-- What the loop does not change. -/
structure Task where
  request : HttpRequestArtifact
  /-- `lookup.credentialRef`. -/
  credentialRef : Option String
  candidate : Option HttpResponseCandidate

/-- One turn of the loop; `matchedIn` is the vault that its `credentialMatch` saw. -/
structure Round where
  current : HttpRequestArtifact
  answer : VaultMatch
  redirectCount : ℕ
  matchedIn : VaultState

/-- A credential and the vaults that `resolveForUse` saw: at its `match` and at its last read. -/
structure Resolution where
  credential : RequestScopedCredentialAttachment
  chosenIn : VaultState
  readIn : VaultState

structure Made where
  exchange : Exchange
  matchedIn : VaultState
  resolution : Option Resolution
  sentIn : VaultState

inductive Await
  | authorizing
  | resolving (answer : VaultMatch) (chosenIn : VaultState)
  | attaching (resolution : Option Resolution)
  | exchanging (exchange : Exchange)

inductive Phase
  | called
  | finding (request : HttpRequestArtifact) (answer : VaultMatch) (matchedIn : VaultState)
  | looping (task : Task) (round : Round) (await : Await)
  | finished (outcome : Parsed AcquiredHttpResource)

structure World where
  vault : VaultState
  phase : Phase
  journal : List Made

inductive Action
  | administer (call : Administration)
  | enter
  | found (candidate : Option HttpResponseCandidate)
  | findFailed (error : HttpError)
  | authorized
  | denied (error : HttpError)
  | proceed
  | answered (exchange : HttpTransportExchange) (capturedAt : String)
  | exchangeFailed (error : HttpError)

def VaultMatch.credentialRef : VaultMatch → Option String
  | .matched _ credentialRef _ => some credentialRef
  | _ => Option.none

def assertContext (context : HttpAcquisitionContext) : Parsed Unit :=
  if context.runId = "" ∨ context.stepId = "" ∨ context.session.sessionId = "" then .error .sessionContextRequired
  else .ok ()

section Steps
variable (call : Acquisition)

def credentialMatch (vault : VaultState) (request : HttpRequestArtifact) : Parsed VaultMatch :=
  if request.authentication.mode = .anonymous then .ok .none
  else
    match sessionMatch call.platform call.tenantId vault request call.context.session with
    | .error error => .error error
    | .ok (.ambiguous _) => .error .credentialAmbiguous
    | .ok .none => if request.authentication.mode = .mappedRequired then .error .credentialRequired else .ok .none
    | .ok answer => .ok answer

def resolveInput (request : HttpRequestArtifact) (binding : CredentialBinding) : ResolveInput :=
  ⟨binding.bindingRef, request, httpRequestDigest call.platform request, call.context.runId, call.context.stepId,
    call.context.session⟩

/-- From the call to its first await that matters. -/
def entered (vault : VaultState) : Phase :=
  match (do
    assertContext call.context
    let request ← parseHttpRequestArtifact call.platform call.input call.allowHttpOrigins
    let answer ← credentialMatch call vault request
    return (request, answer) : Parsed (HttpRequestArtifact × VaultMatch)) with
  | .error error => .finished (.error error)
  | .ok (request, answer) =>
    if request.freshness = .newCapture then
      .looping ⟨request, answer.credentialRef, none⟩ ⟨request, answer, 0, vault⟩ .authorizing
    else .finding request answer vault

def foundCandidate (request : HttpRequestArtifact) (answer : VaultMatch) (matchedIn : VaultState) :
    Option HttpResponseCandidate → Phase
  | none =>
    if request.freshness = .offlineOnly then .finished (.error .offlineArtifactNotFound)
    else .looping ⟨request, answer.credentialRef, none⟩ ⟨request, answer, 0, matchedIn⟩ .authorizing
  | some candidate =>
    if request.freshness = .offlineOnly ∨ candidate.fresh = true then .finished (.ok (.existingResponse candidate.artifactId))
    else .looping ⟨request, answer.credentialRef, some candidate⟩ ⟨request, answer, 0, matchedIn⟩ .authorizing

/-- `credentialForUse` as far as its first await. -/
def authorizedRound (vault : VaultState) (task : Task) (round : Round) : Phase :=
  match round.answer with
  | .matched binding _ _ =>
    match resolveMatch call.platform call.tenantId vault (resolveInput call round.current binding) with
    | .error error => .finished (.error error)
    | .ok answer => .looping task round (.resolving answer vault)
  | _ => .looping task round (.attaching none)

/-- The rest of `resolveForUse`. -/
def resolvedRound (vault : VaultState) (task : Task) (round : Round) (answer : VaultMatch) (chosenIn : VaultState) :
    Phase :=
  match round.answer with
  | .matched binding _ _ =>
    match resolveSecret call.platform vault (resolveInput call round.current binding) answer with
    | .error error => .finished (.error error)
    | .ok credential => .looping task round (.attaching (some ⟨credential, chosenIn, vault⟩))
  | _ => .looping task round (.attaching none)

/-- What the transport is handed. -/
def exchangeOf (task : Task) (round : Round) (resolution : Option Resolution) : Exchange where
  request := round.current
  credential := resolution.map Resolution.credential
  conditional := task.candidate.bind fun candidate =>
    if candidate.payload.finalUrl = round.current.url then conditionalValidators candidate.payload else none

def usedCredential (credential : Option RequestScopedCredentialAttachment) : Option UsedCredential :=
  credential.map fun credential => ⟨credential.credentialRef, credential.bindingRef, credential.secretVersion, credential.rule⟩

def capture (task : Task) (round : Round) (made : Exchange) (exchange : HttpTransportExchange) (capturedAt : String) :
    AcquiredHttpResource :=
  .capture (responseMetadata call.platform task.request round.current exchange round.redirectCount capturedAt
    exchange.status none .new none none) (.stream (contentLength exchange.headers)) (usedCredential made.credential)

/-- The body of the candidate, for an answer that says it has not changed. -/
def reuse (task : Task) (round : Round) (made : Exchange) (exchange : HttpTransportExchange) (capturedAt : String)
    (candidate : HttpResponseCandidate) : AcquiredHttpResource :=
  .capture (responseMetadata call.platform task.request round.current exchange round.redirectCount capturedAt
    candidate.payload.statusCode (some 304) .revalidated (some candidate.artifactId) (some candidate.payload))
    (.existing candidate.artifactId candidate.bodySha256 candidate.bodyLength) (usedCredential made.credential)

/-- The request that a redirect leads to, matched anew. -/
def redirected (vault : VaultState) (round : Round) (location : String) : Parsed Round :=
  match call.platform.resolveUrl location round.current.url with
  | none => .error .urlType
  | some nextUrl => do
    let current ← parseHttpRequestArtifact call.platform { round.current with url := nextUrl.href }.toValue
      call.allowHttpOrigins
    let answer ← credentialMatch call vault current
    return ⟨current, answer, round.redirectCount + 1, vault⟩

def followed (vault : VaultState) (task : Task) (round : Round) (location : String) : Phase :=
  match redirected call vault round location with
  | .error error => .finished (.error error)
  | .ok next => .looping task next .authorizing

def answeredRound (vault : VaultState) (task : Task) (round : Round) (made : Exchange) (exchange : HttpTransportExchange)
    (capturedAt : String) : Phase :=
  if isRedirect exchange.status ∧ task.request.redirects.mode = .follow then
    if task.request.redirects.maximumHops ≤ round.redirectCount then .finished (.error .redirectLimitExceeded)
    else
      match (exchange.headers.lookup "location").bind present with
      | none => .finished (.ok (capture call task round made exchange capturedAt))
      | some location => followed call vault task round location
  else if exchange.status = 304 then
    match task.candidate with
    | none => .finished (.error .notModifiedWithoutCandidate)
    | some candidate => .finished (.ok (reuse call task round made exchange capturedAt candidate))
  else .finished (.ok (capture call task round made exchange capturedAt))

def step (world : World) : Action → Option World
  | .administer change => some { world with vault := administered call.platform world.vault change }
  | .enter =>
    match world.phase with
    | .called => some { world with phase := entered call world.vault }
    | _ => none
  | .found candidate =>
    match world.phase with
    | .finding request answer matchedIn => some { world with phase := foundCandidate request answer matchedIn candidate }
    | _ => none
  | .findFailed error =>
    match world.phase with
    | .finding _ _ _ => some { world with phase := .finished (.error error) }
    | _ => none
  | .authorized =>
    match world.phase with
    | .looping task round .authorizing => some { world with phase := authorizedRound call world.vault task round }
    | _ => none
  | .denied error =>
    match world.phase with
    | .looping _ _ .authorizing => some { world with phase := .finished (.error error) }
    | _ => none
  | .proceed =>
    match world.phase with
    | .looping task round (.resolving answer chosenIn) =>
      some { world with phase := resolvedRound call world.vault task round answer chosenIn }
    | .looping task round (.attaching resolution) =>
      let exchange := exchangeOf task round resolution
      some { world with
        phase := .looping task round (.exchanging exchange)
        journal := world.journal ++ [⟨exchange, round.matchedIn, resolution, world.vault⟩] }
    | _ => none
  | .answered exchange capturedAt =>
    match world.phase with
    | .looping task round (.exchanging made) =>
      some { world with phase := answeredRound call world.vault task round made exchange capturedAt }
    | _ => none
  | .exchangeFailed error =>
    match world.phase with
    | .looping _ _ (.exchanging _) => some { world with phase := .finished (.error error) }
    | _ => none

end Steps

def World.start (vault : VaultState) : World := ⟨vault, .called, []⟩

/-! ## The fetch transport -/

section Fetch
variable (platform : HttpPlatform)

def applyCredential (url : Url) (headers : List (String × String)) (credential : RequestScopedCredentialAttachment) :
    Option (Url × List (String × String)) :=
  match credential.rule with
  | .header name prefixText => (platform.setHeader headers name (prefixText ++ credential.secret)).map (url, ·)
  | .cookie name => (platform.setHeader headers "cookie" (name ++ "=" ++ credential.secret)).map (url, ·)
  | .query name => some (platform.setQuery url name credential.secret, headers)

def conditionalHeaders (headers : List (String × String)) : Option HttpConditionalValidators →
    Option (List (String × String))
  | none => some headers
  | some (.ifNoneMatch etag) => platform.setHeader headers "if-none-match" etag
  | some (.ifModifiedSince lastModified) => platform.setHeader headers "if-modified-since" lastModified

def fetchHeaders (exchange : Exchange) : Option (List (String × String)) := do
  let headers ← exchange.request.headers.foldlM (fun headers header => platform.setHeader headers header.name header.value) []
  conditionalHeaders platform headers exchange.conditional

/-- What `FetchHttpResourceTransport.exchange` hands to `fetch`. -/
def fetched (exchange : Exchange) : Parsed (Url × List (String × String)) :=
  match platform.parseUrl exchange.request.url with
  | none => .error .urlType
  | some url =>
    match fetchHeaders platform exchange with
    | none => .error (.dependency "TypeError")
    | some headers =>
      match exchange.credential with
      | none => .ok (url, headers)
      | some credential =>
        if credential.requestDigest ≠ httpRequestDigest platform exchange.request then .error .credentialRequestMismatch
        else
          match applyCredential platform url headers credential with
          | none => .error (.dependency "TypeError")
          | some sent => .ok sent

end Fetch
end AvenOS.HttpResources
