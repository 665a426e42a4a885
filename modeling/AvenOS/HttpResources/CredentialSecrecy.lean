import AvenOS.HttpResources.CredentialRouting

/-! # Secrets that no request is bound to

Two vaults that differ only in secrets are told apart by nothing but an attachment of such a secret. Where no binding
of such a secret matches the request of the moment, two calls make the same exchanges. -/
namespace AvenOS.HttpResources
open Actors StableSort LabelledRun KeyedTable ExceptLoop

/-! ## Vaults alike -/

section Alike
variable (secret : String → Prop)

/-- Two versions of a credential that may differ in a secret that is hidden. -/
structure SameBut (credential other : StoredCredential) : Prop where
  same : other = { credential with secret := other.secret }
  shown : ¬ secret credential.credentialRef → other.secret = credential.secret

structure Alike (state other : VaultState) : Prop where
  bindings : other.bindings = state.bindings
  credentials : List.Forall₂ (SameBut secret) state.credentials other.credentials

variable {secret} {state other : VaultState} {platform : HttpPlatform}

theorem SameBut.refl (credential : StoredCredential) : SameBut secret credential credential := ⟨rfl, fun _ => rfl⟩

variable {a b : StoredCredential}

theorem SameBut.ref (h : SameBut secret a b) : b.credentialRef = a.credentialRef := by
  rw [h.same]

theorem SameBut.owner (h : SameBut secret a b) : b.ownerSubjectId = a.ownerSubjectId := by
  rw [h.same]

theorem SameBut.version (h : SameBut secret a b) : b.version = a.version := by
  rw [h.same]

theorem SameBut.enabled (h : SameBut secret a b) : b.enabled = a.enabled := by
  rw [h.same]

section
variable (h : Alike secret state other)
include h

theorem Alike.credential (ref : String) : state.credential ref = none ∧ other.credential ref = none ∨
      ∃ a b, state.credential ref = some a ∧ other.credential ref = some b ∧ SameBut secret a b := by
  have hrelated : Option.Rel (SameBut secret) (state.credential ref) (other.credential ref) :=
    lookup_related h.credentials fun _ _ => SameBut.ref
  generalize state.credential ref = found at hrelated
  generalize other.credential ref = found' at hrelated
  cases hrelated with
  | none => exact .inl ⟨rfl, rfl⟩
  | some hsame => exact .inr ⟨_, _, rfl, rfl, hsame⟩

theorem Alike.binding (ref : String) : other.binding ref = state.binding ref := by
  rw [VaultState.binding, VaultState.binding, h.bindings]

theorem Alike.ownedCredential (owner ref : String) :
    Agree (SameBut secret) (ownedCredential platform state owner ref) (ownedCredential platform other owner ref) := by
  unfold HttpResources.ownedCredential
  refine Agree.then fun subject => Agree.then fun reference => ?_
  rcases h.credential reference with ⟨hnone, hnone'⟩ | ⟨a, b, ha, hb, hsame⟩
  · rw [hnone, hnone']
    exact .error _
  · rw [ha, hb]
    dsimp only
    rw [hsame.owner]
    split
    · exact .ok hsame
    · exact .error _

theorem Alike.matches (request : HttpRequestArtifact) (url : Url) (context : VaultSessionContext) :
    bindingMatches platform other request url context = bindingMatches platform state request url context := by
  funext binding
  unfold bindingMatches
  rcases h.credential binding.credentialRef with ⟨hnone, hnone'⟩ | ⟨a, b, ha, hb, hsame⟩
  · rw [hnone, hnone']
  · rw [ha, hb]
    dsimp only
    rw [hsame.enabled, hsame.owner]

theorem Alike.sessionMatch (tenantId : String) (request : HttpRequestArtifact) (context : VaultSessionContext) :
    sessionMatch platform tenantId state request context = sessionMatch platform tenantId other request context := by
  apply Agree.eq
  unfold HttpResources.sessionMatch
  refine Agree.then fun _ => Agree.then fun normal => ?_
  have hcandidates : matchingBindings platform state normal context = matchingBindings platform other normal context := by
    unfold matchingBindings
    rw [h.bindings]
    simp only [h.matches]
  rw [hcandidates]
  refine Agree.then fun candidates => ?_
  cases candidates with
  | nil => exact .ok rfl
  | cons selected rest =>
    dsimp only
    split
    · exact .ok rfl
    · exact (h.ownedCredential _ _).bind fun a b hab => by
        rw [hab.ref, hab.version]
        exact .ok rfl

theorem Alike.resolveMatch (tenantId : String) (input : ResolveInput) :
    resolveMatch platform tenantId state input = resolveMatch platform tenantId other input := by
  apply Agree.eq
  unfold HttpResources.resolveMatch
  refine Agree.then fun _ => Agree.then fun _ => Agree.then fun normal => Agree.then fun _ => ?_
  rw [h.sessionMatch]
  exact Agree.refl _

theorem Alike.resolveSecret (input : ResolveInput) (answer : VaultMatch)
    (hshown : ∀ binding ref version, answer = .matched binding ref version → ¬ secret ref) :
    resolveSecret platform state input answer = resolveSecret platform other input answer := by
  apply Agree.eq
  cases answer with
  | none => exact .error _
  | ambiguous bindingRefs => exact .error _
  | matched binding ref version =>
    refine Agree.then fun _ => ?_
    have howned : Agree (SameBut secret) (HttpResources.ownedCredential platform state input.context.subjectId ref)
        (HttpResources.ownedCredential platform other input.context.subjectId ref) := h.ownedCredential _ _
    rcases howned.split with ⟨e, he, he'⟩ | ⟨a, b, ha, hb, hsame⟩
    · rw [he, he']
      exact .error e
    · have href : a.credentialRef = ref := (lookup_some (ownedCredential_ok ha).1).2
      have heq : b = a := by
        rw [hsame.same, hsame.shown (href ▸ hshown binding ref version rfl)]
      rw [ha, hb, heq]
      exact Agree.refl _

theorem Alike.setBinding (binding : CredentialBinding) :
    Alike secret (state.setBinding binding) (other.setBinding binding) := by
  unfold VaultState.setBinding
  by_cases hnew : state.binding binding.bindingRef = none
  · rw [dif_pos hnew, dif_pos ((h.binding _).trans hnew)]
    exact ⟨congrArg (· ++ [binding]) h.bindings, h.credentials⟩
  · rw [dif_neg hnew, dif_neg (h.binding _ ▸ hnew)]
    exact ⟨congrArg (modify CredentialBinding.bindingRef binding.bindingRef fun _ => binding) h.bindings, h.credentials⟩

theorem Alike.administer (change : Administration) :
    Agree (Alike secret) (administer platform state change) (administer platform other change) := by
  cases change with
  | setCredential owner label text ref =>
    unfold HttpResources.administer setCredential
    refine Agree.then fun owner => Agree.then fun reference => ?_
    rcases h.credential reference with ⟨hnone, hnone'⟩ | ⟨a, b, ha, hb, _⟩
    · rw [dif_pos hnone, dif_pos hnone']
      refine Agree.then fun label => Agree.then fun value => .ok ⟨h.bindings, ?_⟩
      exact List.rel_append h.credentials (.cons (.refl _) .nil)
    · rw [dif_neg (ha ▸ Option.some_ne_none a), dif_neg (hb ▸ Option.some_ne_none b)]
      exact .error _
  | rotateCredential owner ref text =>
    refine (h.ownedCredential owner ref).bind fun a b hab => Agree.then fun value => .ok ⟨h.bindings, ?_⟩
    rw [hab.ref]
    refine modify_related h.credentials (fun _ _ => SameBut.ref) fun x y hxy => ⟨?_, fun _ => rfl⟩
    rw [hxy.same]
  | revokeCredential owner ref =>
    refine (h.ownedCredential owner ref).bind fun a b hab => .ok ⟨h.bindings, ?_⟩
    rw [hab.ref]
    refine modify_related h.credentials (fun _ _ => SameBut.ref) fun x y hxy => ⟨?_, hxy.shown⟩
    rw [hxy.same]
  | putBinding input =>
    refine Agree.then fun binding => (h.ownedCredential _ _).bind fun a b hab => ?_
    rw [h.binding]
    cases state.binding binding.bindingRef with
    | none => exact .ok (h.setBinding binding)
    | some existing => exact Agree.then fun _ => .ok (h.setBinding binding)
  | revokeBinding owner ref =>
    have howned : HttpResources.ownedBinding platform state owner ref = HttpResources.ownedBinding platform other owner ref := by
      unfold HttpResources.ownedBinding
      simp only [h.binding]
    show Agree (Alike secret) (HttpResources.revokeBinding platform state owner ref)
      (HttpResources.revokeBinding platform other owner ref)
    unfold HttpResources.revokeBinding
    rw [howned]
    exact Agree.then fun binding => .ok (h.setBinding _)

theorem Alike.administered (change : Administration) :
    Alike secret (administered platform state change) (administered platform other change) := by
  have hchanged : Agree (Alike secret) (HttpResources.administer platform state change)
      (HttpResources.administer platform other change) := h.administer change
  unfold HttpResources.administered
  rcases hchanged.split with ⟨e, he, he'⟩ | ⟨a, b, ha, hb, halike⟩
  · rw [he, he']
    exact h
  · rw [ha, hb]
    exact halike

end

end Alike

/-! ## Calls alike -/

section Calls
variable (secret : String → Prop)

/-- Two awaits that differ only in the vaults that were looked at; what is resolved is not hidden. -/
inductive AwaitAlike : Await → Await → Prop
  | authorizing : AwaitAlike .authorizing .authorizing
  | resolving {answer : VaultMatch} (chosenIn chosenIn' : VaultState)
      (hshown : ∀ binding ref version, answer = .matched binding ref version → ¬ secret ref) :
      AwaitAlike (.resolving answer chosenIn) (.resolving answer chosenIn')
  | bare : AwaitAlike (.attaching none) (.attaching none)
  | attaching (credential : RequestScopedCredentialAttachment) (chosenIn readIn chosenIn' readIn' : VaultState) :
      AwaitAlike (.attaching (some ⟨credential, chosenIn, readIn⟩)) (.attaching (some ⟨credential, chosenIn', readIn'⟩))
  | exchanging (exchange : Exchange) : AwaitAlike (.exchanging exchange) (.exchanging exchange)

inductive PhaseAlike : Phase → Phase → Prop
  | called : PhaseAlike .called .called
  | finding (request : HttpRequestArtifact) (answer : VaultMatch) (matchedIn matchedIn' : VaultState) :
      PhaseAlike (.finding request answer matchedIn) (.finding request answer matchedIn')
  | looping (task : Task) (current : HttpRequestArtifact) (answer : VaultMatch) (redirectCount : ℕ)
      (matchedIn matchedIn' : VaultState) {await await' : Await} (h : AwaitAlike secret await await') :
      PhaseAlike (.looping task ⟨current, answer, redirectCount, matchedIn⟩ await)
        (.looping task ⟨current, answer, redirectCount, matchedIn'⟩ await')
  | finished (outcome : Parsed AcquiredHttpResource) : PhaseAlike (.finished outcome) (.finished outcome)

structure WorldAlike (world other : World) : Prop where
  vault : Alike secret world.vault other.vault
  phase : PhaseAlike secret world.phase other.phase
  exchanges : other.journal.map Made.exchange = world.journal.map Made.exchange

/-- No binding of a hidden secret matches the request of the moment. -/
def Unmatched (call : Acquisition) (world : World) : Prop :=
  ∀ task round await, world.phase = .looping task round await →
    ∀ url binding, call.platform.parseUrl round.current.url = some url →
      Matches call.platform world.vault round.current url call.context.session binding → ¬ secret binding.credentialRef

variable {secret} {call : Acquisition} {vault vault' : VaultState}

theorem credentialMatch_alike (h : Alike secret vault vault') (request : HttpRequestArtifact) :
    credentialMatch call vault request = credentialMatch call vault' request := by
  rw [credentialMatch, credentialMatch, h.sessionMatch]

theorem entered_alike (h : Alike secret vault vault') : PhaseAlike secret (entered call vault) (entered call vault') := by
  unfold entered
  simp only [credentialMatch_alike h]
  split
  · exact .finished _
  · split
    · exact .looping _ _ _ _ _ _ .authorizing
    · exact .finding _ _ _ _

theorem foundCandidate_alike (request : HttpRequestArtifact) (answer : VaultMatch) (matchedIn matchedIn' : VaultState)
    (candidate : Option HttpResponseCandidate) :
    PhaseAlike secret (foundCandidate request answer matchedIn candidate)
      (foundCandidate request answer matchedIn' candidate) := by
  cases candidate <;> rw [foundCandidate, foundCandidate] <;> split <;>
    first | exact .finished _ | exact .looping _ _ _ _ _ _ .authorizing

theorem authorizedRound_alike (h : Alike secret vault vault') (task : Task) {round : Round} (matchedIn' : VaultState)
    (hround : RoundOk call round) (hshown : ∀ url binding, call.platform.parseUrl round.current.url = some url →
      Matches call.platform vault round.current url call.context.session binding → ¬ secret binding.credentialRef) :
    PhaseAlike secret (authorizedRound call vault task round)
      (authorizedRound call vault' task { round with matchedIn := matchedIn' }) := by
  obtain ⟨current, answer, redirectCount, matchedIn⟩ := round
  unfold authorizedRound
  cases answer with
  | none => exact .looping _ _ _ _ _ _ .bare
  | ambiguous bindingRefs => exact .looping _ _ _ _ _ _ .bare
  | matched binding ref version =>
    have hmode : current.authentication.mode ≠ .anonymous := fun hanonymous =>
      absurd (credentialMatch_anonymous hround.matched hanonymous) (by simp)
    dsimp only
    rw [← h.resolveMatch]
    split
    · exact .finished _
    · rename_i answer hresolved
      refine .looping _ _ _ _ _ _ (.resolving _ _ fun chosen ref version hanswer => ?_)
      have hsession := sessionMatch_ok (resolveMatch_ok hresolved hround.normal) hround.normal hmode
      obtain ⟨url, hurl⟩ := hsession.url
      obtain ⟨hspecific, href⟩ := hsession.matched url hurl chosen ref version hanswer
      exact href ▸ hshown url chosen hurl hspecific.isMatch

theorem resolvedRound_alike (h : Alike secret vault vault') (task : Task) (round : Round) (matchedIn' : VaultState)
    {answer : VaultMatch} (chosenIn chosenIn' : VaultState)
    (hshown : ∀ binding ref version, answer = .matched binding ref version → ¬ secret ref) :
    PhaseAlike secret (resolvedRound call vault task round answer chosenIn)
      (resolvedRound call vault' task { round with matchedIn := matchedIn' } answer chosenIn') := by
  obtain ⟨current, found, redirectCount, matchedIn⟩ := round
  unfold resolvedRound
  cases found with
  | none => exact .looping _ _ _ _ _ _ .bare
  | ambiguous bindingRefs => exact .looping _ _ _ _ _ _ .bare
  | matched binding ref version =>
    dsimp only
    rw [← h.resolveSecret _ answer hshown]
    split
    · exact .finished _
    · exact .looping _ _ _ _ _ _ (.attaching _ _ _ _ _)

theorem redirected_alike (h : Alike secret vault vault') (round : Round) (matchedIn' : VaultState) (location : String) :
    Agree (fun next next' : Round => next' = { next with matchedIn := vault' }) (redirected call vault round location)
      (redirected call vault' { round with matchedIn := matchedIn' } location) := by
  unfold redirected
  cases call.platform.resolveUrl location round.current.url with
  | none => exact .error _
  | some url =>
    refine Agree.then fun current => ?_
    rw [← credentialMatch_alike h]
    exact Agree.then fun answer => .ok rfl

theorem followed_alike (h : Alike secret vault vault') (task : Task) (round : Round) (matchedIn' : VaultState)
    (location : String) : PhaseAlike secret (followed call vault task round location)
      (followed call vault' task { round with matchedIn := matchedIn' } location) := by
  unfold followed
  rcases (redirected_alike h round matchedIn' location).split with ⟨e, he, he'⟩ | ⟨next, next', hnext, hnext', rfl⟩
  · rw [he, he']
    exact .finished _
  · rw [hnext, hnext']
    exact .looping _ _ _ _ _ _ .authorizing

theorem answeredRound_alike (h : Alike secret vault vault') (task : Task) (round : Round) (matchedIn' : VaultState)
    (made : Exchange) (exchange : HttpTransportExchange) (capturedAt : String) :
    PhaseAlike secret (answeredRound call vault task round made exchange capturedAt)
      (answeredRound call vault' task { round with matchedIn := matchedIn' } made exchange capturedAt) := by
  unfold answeredRound
  dsimp only
  split
  · split
    · exact .finished _
    · split
      · exact .finished _
      · exact followed_alike h task round matchedIn' _
  · split
    · split <;> exact .finished _
    · exact .finished _

theorem step_alike {world next other : World} {action : Action} (halike : WorldAlike secret world other)
    (hok : WorldOk call world) (hunmatched : Unmatched secret call world) (hstep : step call world action = some next) :
    ∃ next', step call other action = some next' ∧ WorldAlike secret next next' := by
  obtain ⟨vault, phase, journal⟩ := world
  obtain ⟨vault', phase', journal'⟩ := other
  obtain ⟨hvault, hphase, hexchanges⟩ := halike
  dsimp only at hvault hphase hexchanges
  have hlater : ∀ {later later' : Phase}, PhaseAlike secret later later' →
      WorldAlike secret ⟨vault, later, journal⟩ ⟨vault', later', journal'⟩ := fun h => ⟨hvault, h, hexchanges⟩
  unfold step at hstep
  cases action with
  | administer change =>
    cases hstep
    exact ⟨_, rfl, hvault.administered change, hphase, hexchanges⟩
  | enter =>
    cases hphase <;> cases hstep
    exact ⟨_, rfl, hlater (entered_alike hvault)⟩
  | found candidate =>
    cases hphase <;> cases hstep
    exact ⟨_, rfl, hlater (foundCandidate_alike _ _ _ _ candidate)⟩
  | findFailed error =>
    cases hphase <;> cases hstep
    exact ⟨_, rfl, hlater (.finished _)⟩
  | authorized =>
    cases hphase with
    | looping task current answer redirectCount matchedIn matchedIn' hawait =>
      cases hawait <;> cases hstep
      exact ⟨_, rfl, hlater (authorizedRound_alike hvault task matchedIn' hok.phase.1 (hunmatched task _ _ rfl))⟩
    | _ => cases hstep
  | denied error =>
    cases hphase with
    | looping task current answer redirectCount matchedIn matchedIn' hawait =>
      cases hawait <;> cases hstep
      exact ⟨_, rfl, hlater (.finished _)⟩
    | _ => cases hstep
  | proceed =>
    cases hphase with
    | looping task current answer redirectCount matchedIn matchedIn' hawait =>
      cases hawait with
      | resolving chosenIn chosenIn' hshown =>
        cases hstep
        exact ⟨_, rfl, hlater (resolvedRound_alike hvault task _ matchedIn' chosenIn chosenIn' hshown)⟩
      | bare =>
        cases hstep
        refine ⟨_, rfl, hvault, .looping _ _ _ _ _ _ (.exchanging _), ?_⟩
        rw [List.map_append, List.map_append, hexchanges]
        rfl
      | attaching credential chosenIn readIn chosenIn' readIn' =>
        cases hstep
        refine ⟨_, rfl, hvault, .looping _ _ _ _ _ _ (.exchanging _), ?_⟩
        rw [List.map_append, List.map_append, hexchanges]
        rfl
      | _ => cases hstep
    | _ => cases hstep
  | answered exchange capturedAt =>
    cases hphase with
    | looping task current answer redirectCount matchedIn matchedIn' hawait =>
      cases hawait <;> cases hstep
      exact ⟨_, rfl, hlater (answeredRound_alike hvault task _ matchedIn' _ exchange capturedAt)⟩
    | _ => cases hstep
  | exchangeFailed error =>
    cases hphase with
    | looping task current answer redirectCount matchedIn matchedIn' hawait =>
      cases hawait <;> cases hstep
      exact ⟨_, rfl, hlater (.finished _)⟩
    | _ => cases hstep

theorem run_alike {actions : List Action} {world last other : World} (halike : WorldAlike secret world other)
    (hok : WorldOk call world) (hrun : run (step call) world actions = some last)
    (hunmatched : ∀ before, before <+: actions → ∀ reached, run (step call) world before = some reached →
      Unmatched secret call reached) :
    ∃ last', run (step call) other actions = some last' ∧ WorldAlike secret last last' := by
  induction actions generalizing world other with
  | nil =>
    cases hrun
    exact ⟨other, rfl, halike⟩
  | cons action actions ih =>
    obtain ⟨next, hnext, hrest⟩ := run_cons hrun
    obtain ⟨next', hnext', hlater⟩ := step_alike halike hok (hunmatched [] List.nil_prefix world rfl) hnext
    have hafter : ∀ before, before <+: actions → ∀ reached, run (step call) next before = some reached →
        Unmatched secret call reached := fun before hbefore reached hreached =>
      hunmatched (action :: before) ((List.prefix_cons_inj action).mpr hbefore) reached (by rw [run, hnext]; exact hreached)
    obtain ⟨last', hlast', hend⟩ := ih hlater (step_ok hok hnext) hrest hafter
    exact ⟨last', by rw [run, hnext']; exact hlast', hend⟩

end Calls

/-! ## The law -/

theorem BoundIn.fetched {call : Acquisition} {exchange : Exchange} {matchedIn chosenIn readIn : VaultState}
    (h : BoundIn call exchange matchedIn chosenIn readIn) :
    HttpResources.fetched call.platform exchange ≠ .error .credentialRequestMismatch := by
  unfold HttpResources.fetched
  cases call.platform.parseUrl exchange.request.url with
  | none => simp
  | some url =>
    cases fetchHeaders call.platform exchange with
    | none => simp
    | some headers =>
      cases hcredential : exchange.credential with
      | none => simp
      | some credential =>
        obtain ⟨_, _, _, _, _, _, _, _, _, heq⟩ := h.credential credential hcredential
        have hdigest : ¬ credential.requestDigest ≠ httpRequestDigest call.platform exchange.request := by
          rw [heq]
          exact fun hne => hne rfl
        dsimp only
        rw [if_neg hdigest]
        cases applyCredential call.platform url headers credential <;> simp

/-- Credentials go where the vault binds them, and a secret that nothing is bound to is not seen. -/
theorem credentials_bound (call : Acquisition) (vault : VaultState) (actions : List Action) (world : World)
    (hrun : run (step call) (World.start vault) actions = some world) :
    (∀ made ∈ world.journal, BoundIn call made.exchange made.matchedIn made.chosenIn made.readIn ∧
        fetched call.platform made.exchange ≠ .error .credentialRequestMismatch) ∧
      ((∀ action ∈ actions, action.quiet = true) → ∀ made ∈ world.journal,
        made.sentIn = vault ∧ BoundIn call made.exchange vault vault vault) ∧
      ∀ (secret : String → Prop) (vault' : VaultState), Alike secret vault vault' →
        (∀ before, before <+: actions → ∀ reached, run (step call) (World.start vault) before = some reached →
          Unmatched secret call reached) →
        ∃ world', run (step call) (World.start vault') actions = some world' ∧
          world'.journal.map Made.exchange = world.journal.map Made.exchange := by
  have hstart : WorldOk call (World.start vault) := ⟨trivial, fun _ hmade => absurd hmade List.not_mem_nil⟩
  have hok : WorldOk call world :=
    run_invariant (P := fun _ => True) (fun _ _ _ _ h hstep => step_ok h hstep) (fun _ _ => trivial) hstart hrun
  refine ⟨fun made hmade => ⟨hok.journal made hmade, (hok.journal made hmade).fetched⟩, fun hquiet made hmade => ?_, fun secret vault' halike hunmatched => ?_⟩
  · have hstill : Still vault world :=
      run_invariant (fun _ _ _ hquiet h hstep => step_still hquiet h hstep) hquiet
        ⟨rfl, fun _ hseen => absurd hseen List.not_mem_nil, fun _ hmade => absurd hmade List.not_mem_nil⟩ hrun
    have hseen := hstill.journal made hmade
    have hmatched : made.matchedIn = vault := hseen _ (by simp [Made.vaults])
    have hchosen : made.chosenIn = vault := hseen _ (by simp [Made.vaults])
    have hread : made.readIn = vault := hseen _ (by simp [Made.vaults])
    have hbound := hok.journal made hmade
    rw [hmatched, hchosen, hread] at hbound
    exact ⟨hseen _ (by simp [Made.vaults]), hbound⟩
  · have hbegin : WorldAlike secret (World.start vault) (World.start vault') := ⟨halike, .called, rfl⟩
    obtain ⟨world', hrun', hend⟩ := run_alike hbegin hstart hrun hunmatched
    exact ⟨world', hrun', hend.exchanges⟩

/-! ## Two hosts -/

namespace TwoHosts

def urlA : Url := ⟨"https://a.test/", "https:", "", "", "a.test", none, "/", "", "https://a.test"⟩

def urlB : Url := ⟨"https://b.test/", "https:", "", "", "b.test", none, "/", "", "https://b.test"⟩

def parseUrl (text : String) : Option Url :=
  if text = "https://a.test/" then some urlA else if text = "https://b.test/" then some urlB else none

theorem parseUrl_some {text : String} {url : Url} (h : parseUrl text = some url) : url = urlA ∨ url = urlB := by
  unfold parseUrl at h
  split at h
  · exact .inl (Option.some.inj h).symm
  · split at h
    · exact .inr (Option.some.inj h).symm
    · cases h

/-- A runtime that knows the URLs of two hosts; its digest of a text is the text. -/
def platform : HttpPlatform where
  parseUrl := parseUrl
  resolveUrl := fun text _ => if text = "/" then some urlA else parseUrl text
  setHostname := fun url _ => url
  setQuery := fun url name value => { url with href := url.href ++ "?" ++ name ++ "=" ++ value }
  setHeader := fun headers name value => some (assign headers name value)
  toLowerCase := id
  localeCompare := compare
  localeConsistent := inferInstance
  quote := fun value => "\"" ++ value ++ "\""
  numberText := fun value => toString value.num
  sha256Hex := id
  isUuid := fun value => value.length = 36
  href_parses := by
    intro text url h
    rcases parseUrl_some h with rfl | rfl <;> rfl
  hostname_lower := fun _ _ _ _ => rfl
  lower_token := fun _ _ => rfl

def tenant : String := "00000000-0000-4000-8000-000000000001"
def subject : String := "00000000-0000-4000-8000-000000000002"
def firstCredential : String := "00000000-0000-4000-8000-000000000003"
def secondCredential : String := "00000000-0000-4000-8000-000000000004"
def firstBinding : String := "00000000-0000-4000-8000-000000000005"
def secondBinding : String := "00000000-0000-4000-8000-000000000006"

def binding (bindingRef credentialRef host : String) : CredentialBinding where
  bindingRef := bindingRef
  label := "label"
  ownerSubjectId := subject
  credentialRef := credentialRef
  placements := [.serverEnvironment]
  schemes := [.https]
  host := ⟨.exact, host⟩
  ports := [443]
  pathPrefix := "/"
  methods := [.get]
  purpose := "read"
  attachment := .header "authorization" "Bearer "
  enabled := true

/-- A call for the first host. -/
def call (mode : String) : Acquisition where
  platform := platform
  tenantId := tenant
  allowHttpOrigins := []
  input := .obj [("method", .str "GET"), ("url", .str "https://a.test/"),
    ("authentication", .obj [("mode", .str mode), ("purpose", .str "read")])]
  context := ⟨⟨tenant, subject, "session", .serverEnvironment⟩, "run", "step"⟩

def storeFirst : Action := .administer (.setCredential subject "label" "first secret" firstCredential)
def storeSecond : Action := .administer (.setCredential subject "label" "second secret" secondCredential)
def bindFirst (host : String) : Action := .administer (.putBinding (binding firstBinding firstCredential host))
def bindSecond (host : String) : Action := .administer (.putBinding (binding secondBinding secondCredential host))

/-- The binding is revoked when its secret has been read, and before the exchange. -/
def revokedInBetween : List Action :=
  [storeFirst, bindFirst "a.test", .enter, .found none, .authorized, .proceed,
    .administer (.revokeBinding subject firstBinding), .proceed]

/-- Two bindings appear while the egress policy is asked. -/
def boundInBetween : List Action :=
  [storeFirst, storeSecond, .enter, .found none, bindFirst "a.test", bindSecond "a.test", .authorized, .proceed]

end TwoHosts

theorem credentials_bound_revoked :
    ∃ world, run (step (TwoHosts.call "mapped-required")) (World.start .empty) TwoHosts.revokedInBetween = some world ∧
      (∃ made ∈ world.journal, made.exchange.credential ≠ none) ∧
      ∀ made ∈ world.journal, BoundIn (TwoHosts.call "mapped-required") made.exchange made.matchedIn made.chosenIn
        made.readIn ∧ fetched TwoHosts.platform made.exchange ≠ .error .credentialRequestMismatch := by
  have hrun : (run (step (TwoHosts.call "mapped-required")) (World.start .empty) TwoHosts.revokedInBetween).any
      (fun world => world.journal.any fun made => made.exchange.credential.isSome) = true := by decide +kernel
  obtain ⟨world, hworld, hsent⟩ := (Option.any_eq_true _ _).mp hrun
  obtain ⟨made, hmade, hcredential⟩ := List.any_eq_true.mp hsent
  exact ⟨world, hworld, ⟨made, hmade, Option.isSome_iff_ne_none.mp hcredential⟩,
    (credentials_bound (TwoHosts.call "mapped-required") .empty TwoHosts.revokedInBetween world hworld).1⟩

/-- In the vault of the moment of the exchange itself, a credential is sent for a revoked binding, and a request is
sent although two bindings match it alike. -/
theorem credential_outlives_binding :
    (∃ world made, run (step (TwoHosts.call "mapped-required")) (World.start .empty) TwoHosts.revokedInBetween =
        some world ∧ made ∈ world.journal ∧
        ¬ BoundIn (TwoHosts.call "mapped-required") made.exchange made.sentIn made.sentIn made.sentIn) ∧
      ∃ world made, run (step (TwoHosts.call "mapped-if-present")) (World.start .empty) TwoHosts.boundInBetween =
        some world ∧ made ∈ world.journal ∧
        ¬ BoundIn (TwoHosts.call "mapped-if-present") made.exchange made.sentIn made.sentIn made.sentIn := by
  constructor
  · have hrun : (run (step (TwoHosts.call "mapped-required")) (World.start .empty) TwoHosts.revokedInBetween).any
        (fun world => world.journal.any fun made => made.exchange.credential.isSome &&
          made.sentIn.bindings.all fun binding => !binding.enabled) = true := by decide +kernel
    obtain ⟨world, hworld, hsent⟩ := (Option.any_eq_true _ _).mp hrun
    obtain ⟨made, hmade, hboth⟩ := List.any_eq_true.mp hsent
    obtain ⟨hcredential, hrevoked⟩ := Bool.and_eq_true_iff.mp hboth
    refine ⟨world, made, hworld, hmade, fun hbound => ?_⟩
    obtain ⟨credential, hcredential⟩ := Option.isSome_iff_exists.mp hcredential
    obtain ⟨_, binding, _, _, _, hspecific, _⟩ := hbound.credential credential hcredential
    have henabled := List.all_eq_true.mp hrevoked binding hspecific.isMatch.stored
    rw [hspecific.isMatch.enabled] at henabled
    cases henabled
  · have hrun : (run (step (TwoHosts.call "mapped-if-present")) (World.start .empty) TwoHosts.boundInBetween).any
        (fun world => world.journal.any fun made => decide (made.exchange.request.authentication.mode ≠ .anonymous ∧
          TwoHosts.platform.parseUrl made.exchange.request.url = some TwoHosts.urlA ∧
          made.sentIn.bindings.filter (bindingMatches TwoHosts.platform made.sentIn made.exchange.request TwoHosts.urlA
              (TwoHosts.call "mapped-if-present").context.session) =
            [TwoHosts.binding TwoHosts.firstBinding TwoHosts.firstCredential "a.test",
              TwoHosts.binding TwoHosts.secondBinding TwoHosts.secondCredential "a.test"])) = true := by decide +kernel
    obtain ⟨world, hworld, hsent⟩ := (Option.any_eq_true _ _).mp hrun
    obtain ⟨made, hmade, hall⟩ := List.any_eq_true.mp hsent
    obtain ⟨hmode, hurl, hfilter⟩ := of_decide_eq_true hall
    refine ⟨world, made, hworld, hmade, fun hbound => hbound.unambiguous hmode TwoHosts.urlA hurl ?_⟩
    refine ⟨TwoHosts.binding TwoHosts.firstBinding TwoHosts.firstCredential "a.test",
      TwoHosts.binding TwoHosts.secondBinding TwoHosts.secondCredential "a.test", by decide,
      mem_candidates.1 (hfilter ▸ List.mem_cons_self),
      mem_candidates.1 (hfilter ▸ List.mem_cons_of_mem _ List.mem_cons_self), rfl, fun other hother => ?_⟩
    have hmem := mem_candidates.2 hother
    rw [show TwoHosts.platform = (TwoHosts.call "mapped-if-present").platform from rfl] at hfilter
    rw [hfilter] at hmem
    rcases List.mem_cons.mp hmem with rfl | hmem
    · exact le_refl _
    · rw [List.mem_singleton.mp hmem]
      exact le_refl _

end AvenOS.HttpResources
