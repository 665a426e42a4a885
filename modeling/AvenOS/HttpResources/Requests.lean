import AvenOS.Actors.Portable
import AvenOS.Actors.Text
import AvenOS.Foundations.ExceptLoop
import AvenOS.Foundations.JsonStrings
import AvenOS.Foundations.StableSort

/-! # Request artifacts

The contract of one read-only HTTP request: what `parseHttpRequestArtifact` admits, how it normalizes it and the
digest that names it. URLs and text tables are those of the platform. -/
namespace AvenOS.HttpResources
open Actors StableSort

/-! ## Failures -/

inductive HttpError
  | schema
  | urlType
  | requestUrlInvalid
  | requestUserinfoForbidden
  | requestFragmentForbidden
  | requestSchemeForbidden
  | requestInsecureOriginForbidden
  | requestHeaderForbidden
  | requestHeaderInvalid
  | requestHeaderDuplicate
  | vaultTenantMismatch
  | vaultInvocationUnbound
  | vaultRequestDigestMismatch
  | vaultBindingNotUsable
  | vaultCredentialNotFound
  | vaultCredentialRevoked
  | vaultCredentialExists
  | vaultBindingNotFound
  | vaultBindingHostInvalid
  | vaultBindingPathInvalid
  | vaultAttachmentNameInvalid
  | vaultAttachmentHeaderForbidden
  | vaultAttachmentPrefixInvalid
  | vaultSecretInvalid
  | sessionContextRequired
  | offlineArtifactNotFound
  | redirectLimitExceeded
  | notModifiedWithoutCandidate
  | credentialAmbiguous
  | credentialRequired
  | credentialRequestMismatch
  /-- What a dependency has thrown. -/
  | dependency (message : String)
deriving DecidableEq, Repr

def HttpError.code : HttpError → Option String
  | .schema => none
  | .urlType => none
  | .requestUrlInvalid => some "HTTP_REQUEST_URL_INVALID"
  | .requestUserinfoForbidden => some "HTTP_REQUEST_USERINFO_FORBIDDEN"
  | .requestFragmentForbidden => some "HTTP_REQUEST_FRAGMENT_FORBIDDEN"
  | .requestSchemeForbidden => some "HTTP_REQUEST_SCHEME_FORBIDDEN"
  | .requestInsecureOriginForbidden => some "HTTP_REQUEST_INSECURE_ORIGIN_FORBIDDEN"
  | .requestHeaderForbidden => some "HTTP_REQUEST_HEADER_FORBIDDEN"
  | .requestHeaderInvalid => some "HTTP_REQUEST_HEADER_INVALID"
  | .requestHeaderDuplicate => some "HTTP_REQUEST_HEADER_DUPLICATE"
  | .vaultTenantMismatch => some "VAULT_TENANT_MISMATCH"
  | .vaultInvocationUnbound => some "VAULT_INVOCATION_UNBOUND"
  | .vaultRequestDigestMismatch => some "VAULT_REQUEST_DIGEST_MISMATCH"
  | .vaultBindingNotUsable => some "VAULT_BINDING_NOT_USABLE"
  | .vaultCredentialNotFound => some "VAULT_CREDENTIAL_NOT_FOUND"
  | .vaultCredentialRevoked => some "VAULT_CREDENTIAL_REVOKED"
  | .vaultCredentialExists => some "VAULT_CREDENTIAL_EXISTS"
  | .vaultBindingNotFound => some "VAULT_BINDING_NOT_FOUND"
  | .vaultBindingHostInvalid => some "VAULT_BINDING_HOST_INVALID"
  | .vaultBindingPathInvalid => some "VAULT_BINDING_PATH_INVALID"
  | .vaultAttachmentNameInvalid => some "VAULT_ATTACHMENT_NAME_INVALID"
  | .vaultAttachmentHeaderForbidden => some "VAULT_ATTACHMENT_HEADER_FORBIDDEN"
  | .vaultAttachmentPrefixInvalid => some "VAULT_ATTACHMENT_PREFIX_INVALID"
  | .vaultSecretInvalid => some "VAULT_SECRET_INVALID"
  | .sessionContextRequired => some "HTTP_SESSION_CONTEXT_REQUIRED"
  | .offlineArtifactNotFound => some "HTTP_OFFLINE_ARTIFACT_NOT_FOUND"
  | .redirectLimitExceeded => some "HTTP_REDIRECT_LIMIT_EXCEEDED"
  | .notModifiedWithoutCandidate => some "HTTP_304_WITHOUT_CANDIDATE"
  | .credentialAmbiguous => some "HTTP_CREDENTIAL_AMBIGUOUS"
  | .credentialRequired => some "HTTP_CREDENTIAL_REQUIRED"
  | .credentialRequestMismatch => some "HTTP_CREDENTIAL_REQUEST_MISMATCH"
  | .dependency _ => none

/-! ## The platform -/

/-- A parsed URL; `port` is `none` where the URL leaves it to its scheme. -/
structure Url where
  href : String
  protocol : String
  username : String
  password : String
  hostname : String
  port : Option ℕ
  pathname : String
  hash : String
  origin : String
deriving DecidableEq, Repr

/-- `/^[!#$%&'*+.^_|~0-9A-Za-z-]+$/`, and the back quote. -/
def isHttpToken (value : String) : Bool :=
  value ≠ "" && value.toList.all fun c =>
    c.isAlphanum || c.toNat = 0x60 || c ∈ ['!', '#', '$', '%', '&', Char.ofNat 0x27, '*', '+', '.', '^', '_', '|', '~', '-']

/-- The tables of the runtime: URLs, letter case, collation, number text and SHA-256. A URL is read back from its own
text, the host of a web URL is in lower case, and lowering a token again changes nothing. -/
structure HttpPlatform where
  parseUrl : String → Option Url
  /-- `new URL(text, base)`. -/
  resolveUrl : String → String → Option Url
  setHostname : Url → String → Url
  setQuery : Url → String → String → Url
  /-- `Headers.prototype.set`; `none` where the name or the value is refused. -/
  setHeader : List (String × String) → String → String → Option (List (String × String))
  toLowerCase : String → String
  localeCompare : String → String → Ordering
  localeConsistent : Std.TransCmp localeCompare
  quote : String → String
  numberText : ℚ → String
  sha256Hex : String → String
  isUuid : String → Bool
  href_parses : ∀ text url, parseUrl text = some url → parseUrl url.href = some url
  hostname_lower : ∀ text url, parseUrl text = some url → url.protocol = "https:" ∨ url.protocol = "http:" →
    setHostname url (toLowerCase url.hostname) = url
  lower_token : ∀ text, isHttpToken (toLowerCase text) = true → toLowerCase (toLowerCase text) = toLowerCase text

instance (platform : HttpPlatform) : Std.TransCmp platform.localeCompare := platform.localeConsistent

/-- `value.length`: a string counts UTF-16 code units. -/
def textLength (value : String) : ℕ := (Json.unitsOf value.toList).length

def startsWith (value start : String) : Bool := start.toList.isPrefixOf value.toList

def endsWith (value ending : String) : Bool := ending.toList.isSuffixOf value.toList

def containsControlCharacter (value : String) : Bool := value.toList.any fun c => c.toNat ≤ 0x1f || c.toNat = 0x7f

/-! ## Artifacts -/

inductive HttpMethod
  | get
  | head
deriving DecidableEq, Repr

def HttpMethod.text : HttpMethod → String
  | .get => "GET"
  | .head => "HEAD"

inductive HttpAuthenticationMode
  | anonymous
  | mappedRequired
  | mappedIfPresent
deriving DecidableEq, Repr

def HttpAuthenticationMode.text : HttpAuthenticationMode → String
  | .anonymous => "anonymous"
  | .mappedRequired => "mapped-required"
  | .mappedIfPresent => "mapped-if-present"

def authenticationModes : List HttpAuthenticationMode := [.anonymous, .mappedRequired, .mappedIfPresent]

inductive HttpFreshness
  | revalidate
  | offlineOnly
  | newCapture
deriving DecidableEq, Repr

def HttpFreshness.text : HttpFreshness → String
  | .revalidate => "revalidate"
  | .offlineOnly => "offline-only"
  | .newCapture => "new-capture"

inductive RedirectMode
  | follow
  | manual
deriving DecidableEq, Repr

def RedirectMode.text : RedirectMode → String
  | .follow => "follow"
  | .manual => "manual"

structure HttpRequestHeader where
  name : String
  value : String
deriving DecidableEq, Repr

structure HttpAuthentication where
  mode : HttpAuthenticationMode
  purpose : Option String
deriving DecidableEq, Repr

structure HttpRedirects where
  mode : RedirectMode
  maximumHops : ℕ
deriving DecidableEq, Repr

structure HttpRequestArtifact where
  method : HttpMethod
  url : String
  headers : List HttpRequestHeader
  authentication : HttpAuthentication
  redirects : HttpRedirects
  freshness : HttpFreshness
deriving DecidableEq, Repr

def HttpRequestHeader.toValue (header : HttpRequestHeader) : JsValue :=
  .obj [("name", .str header.name), ("value", .str header.value)]

def HttpAuthentication.toValue (authentication : HttpAuthentication) : JsValue :=
  match authentication.purpose with
  | none => .obj [("mode", .str authentication.mode.text)]
  | some purpose => .obj [("mode", .str authentication.mode.text), ("purpose", .str purpose)]

def HttpRedirects.toValue (redirects : HttpRedirects) : JsValue :=
  .obj [("mode", .str redirects.mode.text), ("maximumHops", .num redirects.maximumHops)]

def HttpRequestArtifact.toValue (request : HttpRequestArtifact) : JsValue :=
  .obj [("method", .str request.method.text), ("url", .str request.url),
    ("headers", .arr (request.headers.map HttpRequestHeader.toValue)),
    ("authentication", request.authentication.toValue), ("redirects", request.redirects.toValue),
    ("freshness", .str request.freshness.text)]

/-! ## The schema -/

abbrev Parsed (α : Type) := Except HttpError α

def throwIf (condition : Prop) [Decidable condition] (error : HttpError) : Parsed Unit :=
  if condition then .error error else .ok ()

theorem throwIf_ok {condition : Prop} [Decidable condition] {error : HttpError} (h : throwIf condition error = .ok ()) :
    ¬ condition := by
  intro hcondition
  rw [throwIf, if_pos hcondition] at h
  cases h

def strictObject (names : List String) : JsValue → Parsed Record
  | .obj fields => if fields.all fun field => field.1 ∈ names then .ok fields else .error .schema
  | _ => .error .schema

def requiredField {α : Type} (fields : Record) (name : String) (parse : JsValue → Parsed α) : Parsed α :=
  match fields.lookup name with
  | some value => parse value
  | none => .error .schema

def defaultedField {α : Type} (fields : Record) (name : String) (value : α) (parse : JsValue → Parsed α) : Parsed α :=
  match fields.lookup name with
  | some value => parse value
  | none => .ok value

def optionalField {α : Type} (fields : Record) (name : String) (parse : JsValue → Parsed α) : Parsed (Option α) :=
  match fields.lookup name with
  | some value => (parse value).map some
  | none => .ok none

/-- `z.string().min(least).max(most)`. -/
def boundedText (least most : ℕ) : JsValue → Parsed String
  | .str value => if least ≤ textLength value ∧ textLength value ≤ most then .ok value else .error .schema
  | _ => .error .schema

/-- `z.string().trim().min(1).max(most)`. -/
def trimmedText (most : ℕ) : JsValue → Parsed String
  | .str value => boundedText 1 most (.str (Text.trim value))
  | _ => .error .schema

/-- `z.enum`. -/
def oneOf {α : Type} (options : List α) (text : α → String) : JsValue → Parsed α
  | .str value =>
    match options.find? fun option => text option = value with
    | some option => .ok option
    | none => .error .schema
  | _ => .error .schema

/-- `z.number().int().min(0).max(most)`. -/
def boundedCount (most : ℕ) : JsValue → Parsed ℕ
  | .num value => if value.den = 1 ∧ 0 ≤ value ∧ value ≤ most then .ok value.num.toNat else .error .schema
  | _ => .error .schema

def boundedList {α : Type} (most : ℕ) (parse : JsValue → Parsed α) : JsValue → Parsed (List α)
  | .arr items => if items.length ≤ most then items.mapM parse else .error .schema
  | _ => .error .schema

def requestHeaderSchema (value : JsValue) : Parsed HttpRequestHeader := do
  let fields ← strictObject ["name", "value"] value
  let name ← requiredField fields "name" (boundedText 1 128)
  let text ← requiredField fields "value" (boundedText 0 8192)
  return ⟨name, text⟩

/-- A mapped mode needs a purpose, and the anonymous one has none. -/
def authenticationSchema (value : JsValue) : Parsed HttpAuthentication := do
  let fields ← strictObject ["mode", "purpose"] value
  let mode ← defaultedField fields "mode" .anonymous
    (oneOf authenticationModes HttpAuthenticationMode.text)
  let purpose ← optionalField fields "purpose" (trimmedText 128)
  if mode = .anonymous ↔ purpose = none then return ⟨mode, purpose⟩ else throw .schema

def redirectsSchema (value : JsValue) : Parsed HttpRedirects := do
  let fields ← strictObject ["mode", "maximumHops"] value
  let mode ← defaultedField fields "mode" .follow (oneOf [RedirectMode.follow, .manual] RedirectMode.text)
  let maximumHops ← defaultedField fields "maximumHops" 5 (boundedCount 10)
  return ⟨mode, maximumHops⟩

def requestSchema (value : JsValue) : Parsed HttpRequestArtifact := do
  let fields ← strictObject ["method", "url", "headers", "authentication", "redirects", "freshness"] value
  let method ← requiredField fields "method" (oneOf [HttpMethod.get, .head] HttpMethod.text)
  let url ← requiredField fields "url" (boundedText 1 8192)
  let headers ← defaultedField fields "headers" [] (boundedList 64 requestHeaderSchema)
  let authentication ← defaultedField fields "authentication" ⟨.anonymous, none⟩ authenticationSchema
  let redirects ← defaultedField fields "redirects" ⟨.follow, 5⟩ redirectsSchema
  let freshness ← defaultedField fields "freshness" .revalidate
    (oneOf [HttpFreshness.revalidate, .offlineOnly, .newCapture] HttpFreshness.text)
  return ⟨method, url, headers, authentication, redirects, freshness⟩

/-! ## Normal requests -/

def forbiddenRequestHeaders : List String :=
  ["authorization", "connection", "content-length", "cookie", "forwarded", "host", "if-modified-since",
    "if-none-match", "keep-alive", "proxy-authorization", "te", "trailer", "transfer-encoding", "upgrade",
    "x-forwarded-for", "x-forwarded-host", "x-forwarded-proto"]

section Parse
variable (platform : HttpPlatform)

/-- The loop over the headers, with the names it has met. -/
def normalHeaders : List String → List HttpRequestHeader → Parsed (List HttpRequestHeader)
  | _, [] => .ok []
  | names, header :: headers =>
    let name := platform.toLowerCase header.name
    if isHttpToken name = false ∨ name ∈ forbiddenRequestHeaders then .error .requestHeaderForbidden
    else if containsControlCharacter header.value then .error .requestHeaderInvalid
    else if name ∈ names then .error .requestHeaderDuplicate
    else (normalHeaders (name :: names) headers).map (⟨name, Text.trim header.value⟩ :: ·)

def allowedHttpOrigin (url : Url) (origins : List String) : Bool :=
  origins.any fun origin =>
    match platform.parseUrl origin with
    | some allowed => allowed.origin == url.origin
    | none => false

def checkUrl (url : Url) (allowHttpOrigins : List String) : Parsed Unit :=
  if url.username ≠ "" ∨ url.password ≠ "" then .error .requestUserinfoForbidden
  else if url.hash ≠ "" then .error .requestFragmentForbidden
  else if url.protocol ≠ "https:" ∧ url.protocol ≠ "http:" then .error .requestSchemeForbidden
  else if url.protocol = "http:" ∧ allowedHttpOrigin platform url allowHttpOrigins = false then
    .error .requestInsecureOriginForbidden
  else .ok ()

def parseHttpRequestArtifact (input : JsValue) (allowHttpOrigins : List String) : Parsed HttpRequestArtifact := do
  let parsed ← requestSchema input
  match platform.parseUrl parsed.url with
  | none => throw .requestUrlInvalid
  | some url =>
    checkUrl platform url allowHttpOrigins
    let normal := platform.setHostname url (platform.toLowerCase url.hostname)
    let headers ← normalHeaders platform [] parsed.headers
    return { parsed with
      url := normal.href
      headers := sortBy (fun left right => platform.localeCompare left.name right.name) headers }

/-! ## Digests -/

mutual

def canonicalJson : JsValue → String
  | .null => "null"
  | .bool value => if value then "true" else "false"
  | .num value => platform.numberText value
  | .str value => platform.quote value
  | .arr items => "[" ++ ",".intercalate (canonicalItems items) ++ "]"
  | .obj fields =>
    let sorted := sortBy (fun left right => platform.localeCompare left.1 right.1) (canonicalFields fields)
    "\x7b" ++ ",".intercalate (sorted.map fun field => platform.quote field.1 ++ ":" ++ field.2) ++ "\x7d"
  | .foreign _ => ""

def canonicalItems : List JsValue → List String
  | [] => []
  | item :: items => canonicalJson item :: canonicalItems items

def canonicalFields : List (String × JsValue) → List (String × String)
  | [] => []
  | field :: fields => canonicalField field :: canonicalFields fields

def canonicalField : String × JsValue → String × String
  | (name, value) => (name, canonicalJson value)

end

def httpRequestDigest (request : HttpRequestArtifact) : String :=
  platform.sha256Hex (canonicalJson platform request.toValue)

/-! ## Parsing again -/

def Normal (request : HttpRequestArtifact) : Prop :=
  ∃ input origins, parseHttpRequestArtifact platform input origins = .ok request

/-- A header as the loop leaves it. -/
def NormalHeader (header : HttpRequestHeader) : Prop :=
  platform.toLowerCase header.name = header.name ∧ Text.trim header.value = header.value

variable {platform}

theorem trim_trim (value : String) : Text.trim (Text.trim value) = Text.trim value := by
  simp only [Text.trim, String.toList_ofList, Text.trimChars_trimChars]

variable {names : List String} {headers : List HttpRequestHeader} {most : ℕ} {value : JsValue} {α : Type}
    {a : α} {fields : Record} {request : HttpRequestArtifact}

theorem normalHeaders_normal {normal : List HttpRequestHeader}
    (h : normalHeaders platform names headers = .ok normal) : ∀ header ∈ normal, NormalHeader platform header := by
  induction headers generalizing names normal with
  | nil =>
    cases h
    exact fun header hheader => absurd hheader List.not_mem_nil
  | cons header headers ih =>
    rw [normalHeaders] at h
    split at h
    · cases h
    · rename_i hname
      have htoken : isHttpToken (platform.toLowerCase header.name) = true := by
        cases htest : isHttpToken (platform.toLowerCase header.name) with
        | true => rfl
        | false => exact absurd (.inl htest) hname
      split at h
      · cases h
      · split at h
        · cases h
        · obtain ⟨rest, hrest, rfl⟩ := ExceptLoop.map_eq_ok h
          intro other hother
          rcases List.mem_cons.mp hother with rfl | hother
          · exact ⟨platform.lower_token _ htoken, trim_trim _⟩
          · exact ih hrest other hother

theorem normalHeaders_fixed {again : List HttpRequestHeader} (h : normalHeaders platform names headers = .ok again)
    (hnormal : ∀ header ∈ headers, NormalHeader platform header) : again = headers := by
  induction headers generalizing names again with
  | nil =>
    cases h
    rfl
  | cons header headers ih =>
    rw [normalHeaders] at h
    split at h
    · cases h
    · split at h
      · cases h
      · split at h
        · cases h
        · obtain ⟨rest, hrest, rfl⟩ := ExceptLoop.map_eq_ok h
          obtain ⟨hname, hvalue⟩ := hnormal header List.mem_cons_self
          rw [ih hrest fun other hother => hnormal other (List.mem_cons_of_mem _ hother), hname, hvalue]

/-! ## The schema of an artifact -/

variable {text name : String} {parse : JsValue → Parsed α} {origins : List String}

theorem boundedText_ok {least : ℕ} {value : String} (h : boundedText least most (.str value) = .ok text) :
    text = value := by
  rw [boundedText] at h
  split at h
  · exact (Except.ok.inj h).symm
  · cases h

theorem trimmedText_ok (h : trimmedText most value = .ok text) : Text.trim text = text := by
  cases value with
  | str value =>
    rw [trimmedText] at h
    rw [boundedText_ok h]
    exact trim_trim value
  | _ =>
    rw [trimmedText] at h
    · cases h
    · intro value hvalue
      cases hvalue

theorem oneOf_text {options : List α} {text : α → String} {b : α}
    (hapart : ∀ x ∈ options, text x = text a → x = a) (h : oneOf options text (.str (text a)) = .ok b) : b = a := by
  rw [oneOf] at h
  split at h
  · rename_i option hfound
    cases h
    have htext := List.find?_some hfound
    exact hapart _ (List.mem_of_find?_eq_some hfound) (of_decide_eq_true htext)
  · cases h

theorem boundedCount_ok {n m : ℕ} (h : boundedCount most (.num n) = .ok m) : m = n := by
  rw [boundedCount] at h
  split at h
  · exact (Except.ok.inj h).symm
  · cases h

theorem requiredField_ok (hvalue : fields.lookup name = some value) (h : requiredField fields name parse = .ok a) :
    parse value = .ok a := by
  rw [requiredField, hvalue] at h
  exact h

theorem defaultedField_ok {other : α} (hvalue : fields.lookup name = some value)
    (h : defaultedField fields name other parse = .ok a) : parse value = .ok a := by
  rw [defaultedField, hvalue] at h
  exact h

theorem strictObject_ok {given : Record} (h : strictObject names (.obj fields) = .ok given) : given = fields := by
  rw [strictObject] at h
  split at h
  · exact (Except.ok.inj h).symm
  · cases h

theorem requestHeaderSchema_value {header parsed : HttpRequestHeader}
    (h : requestHeaderSchema header.toValue = .ok parsed) : parsed = header := by
  unfold requestHeaderSchema at h
  obtain ⟨fields, hfields, h⟩ := ExceptLoop.bind_eq_ok h
  rw [strictObject_ok hfields] at h
  obtain ⟨name, hname, h⟩ := ExceptLoop.bind_eq_ok h
  obtain ⟨value, hvalue, h⟩ := ExceptLoop.bind_eq_ok h
  have hname : boundedText 1 128 (.str header.name) = .ok name := requiredField_ok (by simp [List.lookup_cons]) hname
  have hvalue : boundedText 0 8192 (.str header.value) = .ok value := requiredField_ok (by simp [List.lookup_cons]) hvalue
  rw [← Except.ok.inj h, boundedText_ok hname, boundedText_ok hvalue]

theorem authenticationSchema_ok {parsed : HttpAuthentication}
    (h : authenticationSchema value = .ok parsed) : ∀ purpose, parsed.purpose = some purpose → Text.trim purpose = purpose := by
  unfold authenticationSchema at h
  obtain ⟨fields, hfields, h⟩ := ExceptLoop.bind_eq_ok h
  obtain ⟨mode, hmode, h⟩ := ExceptLoop.bind_eq_ok h
  obtain ⟨purpose, hpurpose, h⟩ := ExceptLoop.bind_eq_ok h
  split at h
  · rw [← Except.ok.inj h]
    intro text htext
    dsimp only at htext
    rw [htext, optionalField] at hpurpose
    split at hpurpose
    · obtain ⟨trimmed, htrimmed, hsome⟩ := ExceptLoop.map_eq_ok hpurpose
      cases hsome
      exact trimmedText_ok htrimmed
    · cases hpurpose
  · cases h

theorem authenticationMode_apart {mode other : HttpAuthenticationMode} (h : mode.text = other.text) : mode = other := by
  cases mode <;> cases other <;> first | rfl | exact absurd h (by decide)

theorem authenticationSchema_value {authentication parsed : HttpAuthentication}
    (h : authenticationSchema authentication.toValue = .ok parsed) :
    parsed = ⟨authentication.mode, authentication.purpose.map Text.trim⟩ := by
  obtain ⟨mode, purpose⟩ := authentication
  have hfields : ∃ fields, authenticationSchema (HttpAuthentication.toValue ⟨mode, purpose⟩) = authenticationSchema (.obj fields) ∧
      fields.lookup "mode" = some (.str mode.text) ∧ fields.lookup "purpose" = purpose.map JsValue.str := by
    cases purpose <;> exact ⟨_, rfl, by simp [List.lookup_cons], by simp [List.lookup_cons]⟩
  obtain ⟨given, hgiven, hlookup, hpurposes⟩ := hfields
  rw [hgiven] at h
  unfold authenticationSchema at h
  obtain ⟨fields, hfields, h⟩ := ExceptLoop.bind_eq_ok h
  rw [strictObject_ok hfields] at h
  obtain ⟨parsedMode, hmode, h⟩ := ExceptLoop.bind_eq_ok h
  obtain ⟨parsedPurpose, hpurpose, h⟩ := ExceptLoop.bind_eq_ok h
  have hmode : oneOf authenticationModes HttpAuthenticationMode.text (.str mode.text) = .ok parsedMode :=
    defaultedField_ok hlookup hmode
  have hsame : parsedMode = mode := oneOf_text (fun _ _ => authenticationMode_apart) hmode
  have htrimmed : parsedPurpose = purpose.map Text.trim := by
    rw [optionalField, hpurposes] at hpurpose
    cases purpose with
    | none => exact (Except.ok.inj hpurpose).symm
    | some purpose =>
      obtain ⟨trimmed, htrimmed, hsome⟩ := ExceptLoop.map_eq_ok hpurpose
      rw [trimmedText] at htrimmed
      rw [← hsome, boundedText_ok htrimmed]
      rfl
  split at h
  · rw [← Except.ok.inj h, hsame, htrimmed]
  · cases h

theorem redirectMode_apart {mode other : RedirectMode} (h : mode.text = other.text) : mode = other := by
  cases mode <;> cases other <;> first | rfl | exact absurd h (by decide)

theorem redirectsSchema_value {redirects parsed : HttpRedirects} (h : redirectsSchema redirects.toValue = .ok parsed) :
    parsed = redirects := by
  unfold redirectsSchema at h
  obtain ⟨fields, hfields, h⟩ := ExceptLoop.bind_eq_ok h
  rw [strictObject_ok hfields] at h
  obtain ⟨mode, hmode, h⟩ := ExceptLoop.bind_eq_ok h
  obtain ⟨hops, hhops, h⟩ := ExceptLoop.bind_eq_ok h
  have hmode : oneOf [RedirectMode.follow, .manual] RedirectMode.text (.str redirects.mode.text) = .ok mode :=
    defaultedField_ok (by simp [List.lookup_cons]) hmode
  have hhops : boundedCount 10 (.num redirects.maximumHops) = .ok hops :=
    defaultedField_ok (by simp [List.lookup_cons]) hhops
  rw [← Except.ok.inj h, oneOf_text (fun _ _ => redirectMode_apart) hmode, boundedCount_ok hhops]

theorem headersSchema_value {parsed : List HttpRequestHeader}
    (h : boundedList 64 requestHeaderSchema (.arr (headers.map HttpRequestHeader.toValue)) = .ok parsed) :
    parsed = headers := by
  rw [boundedList] at h
  split at h
  · rename_i hlength
    have hall := ExceptLoop.mapM_ok h
    rw [List.forall₂_map_left_iff] at hall
    have heq : List.Forall₂ (fun header other => other = header) headers parsed :=
      hall.imp fun _ _ => requestHeaderSchema_value
    clear h hall hlength
    induction heq with
    | nil => rfl
    | cons hhead _ ih => rw [hhead, ih]
  · cases h

theorem method_apart {method other : HttpMethod} (h : method.text = other.text) : method = other := by
  cases method <;> cases other <;> first | rfl | exact absurd h (by decide)

theorem freshness_apart {freshness other : HttpFreshness} (h : freshness.text = other.text) : freshness = other := by
  cases freshness <;> cases other <;> first | rfl | exact absurd h (by decide)

theorem requestSchema_value {parsed : HttpRequestArtifact} (h : requestSchema request.toValue = .ok parsed) :
    parsed = { request with
      authentication := ⟨request.authentication.mode, request.authentication.purpose.map Text.trim⟩ } := by
  unfold requestSchema at h
  obtain ⟨fields, hfields, h⟩ := ExceptLoop.bind_eq_ok h
  rw [strictObject_ok hfields] at h
  obtain ⟨method, hmethod, h⟩ := ExceptLoop.bind_eq_ok h
  obtain ⟨url, hurl, h⟩ := ExceptLoop.bind_eq_ok h
  obtain ⟨headers, hheaders, h⟩ := ExceptLoop.bind_eq_ok h
  obtain ⟨authentication, hauthentication, h⟩ := ExceptLoop.bind_eq_ok h
  obtain ⟨redirects, hredirects, h⟩ := ExceptLoop.bind_eq_ok h
  obtain ⟨freshness, hfreshness, h⟩ := ExceptLoop.bind_eq_ok h
  have hmethod : oneOf [HttpMethod.get, .head] HttpMethod.text (.str request.method.text) = .ok method :=
    requiredField_ok (by simp [List.lookup_cons]) hmethod
  have hurl : boundedText 1 8192 (.str request.url) = .ok url := requiredField_ok (by simp [List.lookup_cons]) hurl
  have hheaders : boundedList 64 requestHeaderSchema (.arr (request.headers.map HttpRequestHeader.toValue)) = .ok headers :=
    defaultedField_ok (by simp [List.lookup_cons]) hheaders
  have hauthentication : authenticationSchema request.authentication.toValue = .ok authentication :=
    defaultedField_ok (by simp [List.lookup_cons]) hauthentication
  have hredirects : redirectsSchema request.redirects.toValue = .ok redirects :=
    defaultedField_ok (by simp [List.lookup_cons]) hredirects
  have hfreshness : oneOf [HttpFreshness.revalidate, .offlineOnly, .newCapture] HttpFreshness.text
      (.str request.freshness.text) = .ok freshness := defaultedField_ok (by simp [List.lookup_cons]) hfreshness
  rw [← Except.ok.inj h, oneOf_text (fun _ _ => method_apart) hmethod, boundedText_ok hurl,
    headersSchema_value hheaders, authenticationSchema_value hauthentication, redirectsSchema_value hredirects,
    oneOf_text (fun _ _ => freshness_apart) hfreshness]

theorem requestSchema_purpose {parsed : HttpRequestArtifact} (h : requestSchema value = .ok parsed) :
    ∀ purpose, parsed.authentication.purpose = some purpose → Text.trim purpose = purpose := by
  unfold requestSchema at h
  obtain ⟨fields, _, h⟩ := ExceptLoop.bind_eq_ok h
  obtain ⟨method, _, h⟩ := ExceptLoop.bind_eq_ok h
  obtain ⟨url, _, h⟩ := ExceptLoop.bind_eq_ok h
  obtain ⟨headers, _, h⟩ := ExceptLoop.bind_eq_ok h
  obtain ⟨authentication, hauthentication, h⟩ := ExceptLoop.bind_eq_ok h
  obtain ⟨redirects, _, h⟩ := ExceptLoop.bind_eq_ok h
  obtain ⟨freshness, _, h⟩ := ExceptLoop.bind_eq_ok h
  rw [← Except.ok.inj h]
  rw [defaultedField] at hauthentication
  split at hauthentication
  · exact authenticationSchema_ok hauthentication
  · cases hauthentication
    exact fun _ hnone => by cases hnone

theorem parse_parts {input : JsValue} (h : parseHttpRequestArtifact platform input origins = .ok request) :
    ∃ parsed url headers, requestSchema input = .ok parsed ∧ platform.parseUrl parsed.url = some url ∧
      normalHeaders platform [] parsed.headers = .ok headers ∧
      request = { parsed with
        url := url.href
        headers := sortBy (fun left right => platform.localeCompare left.name right.name) headers } := by
  unfold parseHttpRequestArtifact at h
  obtain ⟨parsed, hparsed, h⟩ := ExceptLoop.bind_eq_ok h
  split at h
  · cases h
  · rename_i url hurl
    obtain ⟨_, hcheck, h⟩ := ExceptLoop.bind_eq_ok h
    obtain ⟨headers, hheaders, h⟩ := ExceptLoop.bind_eq_ok h
    have hprotocol : url.protocol = "https:" ∨ url.protocol = "http:" := by
      unfold checkUrl at hcheck
      split at hcheck
      · cases hcheck
      · split at hcheck
        · cases hcheck
        · split at hcheck
          · cases hcheck
          · rename_i hscheme
            rw [not_and_or, not_not, not_not] at hscheme
            exact hscheme
    refine ⟨parsed, url, headers, hparsed, hurl, hheaders, ?_⟩
    rw [← Except.ok.inj h, platform.hostname_lower _ url hurl hprotocol]

theorem Normal.parsed {again : HttpRequestArtifact} (hnormal : Normal platform request)
    (h : parseHttpRequestArtifact platform request.toValue origins = .ok again) : again = request := by
  obtain ⟨input, first, hfirst⟩ := hnormal
  obtain ⟨parsed, url, headers, hparsed, hurl, hheaders, rfl⟩ := parse_parts hfirst
  obtain ⟨reparsed, sameUrl, sameHeaders, hreparsed, hsame, hfixed, rfl⟩ := parse_parts h
  have hpurpose : parsed.authentication.purpose.map Text.trim = parsed.authentication.purpose := by
    cases hp : parsed.authentication.purpose with
    | none => rfl
    | some purpose => rw [Option.map_some, requestSchema_purpose hparsed purpose hp]
  rw [requestSchema_value hreparsed] at hsame hfixed ⊢
  rw [Option.some.inj (hsame.symm.trans (platform.href_parses _ _ hurl))]
  have hstable := normalHeaders_fixed hfixed fun header hheader =>
    normalHeaders_normal hheaders header (mem_sortBy.1 hheader)
  have hsorted : Std.TransCmp fun left right : HttpRequestHeader => platform.localeCompare left.name right.name :=
    transCmp_on platform.localeCompare HttpRequestHeader.name
  rw [hstable, sortBy_sortBy, hpurpose]

end Parse
end AvenOS.HttpResources
