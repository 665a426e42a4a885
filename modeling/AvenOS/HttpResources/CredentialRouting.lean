import AvenOS.HttpResources.Acquisition

/-! # Where credentials go

An exchange carries a credential only where one most specific binding sends it. What the loop decides is decided in
the vault of some await: the credential is the one that the vault names for the very request of the exchange. -/
namespace AvenOS.HttpResources
open Actors StableSort LabelledRun KeyedTable ExceptLoop

/-! ## Bindings of a request -/

section Matching
variable (platform : HttpPlatform) (state : VaultState) (request : HttpRequestArtifact) (url : Url)
  (context : VaultSessionContext)

structure Matches (binding : CredentialBinding) : Prop where
  stored : binding ∈ state.bindings
  enabled : binding.enabled = true
  owner : binding.ownerSubjectId = context.subjectId
  credential : ∃ credential, state.credential binding.credentialRef = some credential ∧ credential.enabled = true ∧
    credential.ownerSubjectId = context.subjectId
  placement : context.executionEnvironment ∈ binding.placements
  scheme : ∃ scheme ∈ binding.schemes, scheme.text ++ ":" = url.protocol
  port : portOf url ∈ binding.ports
  method : request.method ∈ binding.methods
  purpose : request.authentication.purpose = some binding.purpose
  host : hostMatches platform binding.host url.hostname = true
  path : pathMatches binding.pathPrefix url.pathname = true

/-- It matches, and everything else that matches is less specific. -/
structure MostSpecific (binding : CredentialBinding) : Prop where
  isMatch : Matches platform state request url context binding
  best : ∀ other, Matches platform state request url context other → other ≠ binding →
    specificity other < specificity binding

def Ambiguous : Prop :=
  ∃ one two, one ≠ two ∧ Matches platform state request url context one ∧ Matches platform state request url context two ∧
    specificity one = specificity two ∧
    ∀ other, Matches platform state request url context other → specificity other ≤ specificity one

end Matching

section Candidates
variable {platform : HttpPlatform} {state : VaultState} {request : HttpRequestArtifact} {url : Url}
  {context : VaultSessionContext}

theorem mem_candidates {binding : CredentialBinding} :
    binding ∈ state.bindings.filter (bindingMatches platform state request url context) ↔
      Matches platform state request url context binding := by
  rw [List.mem_filter, bindingMatches]
  constructor
  · rintro ⟨hstored, hmatches⟩
    cases hcredential : state.credential binding.credentialRef with
    | none =>
      rw [hcredential] at hmatches
      cases hmatches
    | some credential =>
      rw [hcredential] at hmatches
      simp only [Bool.and_eq_true, beq_iff_eq, List.contains_iff_mem, List.any_eq_true] at hmatches
      obtain ⟨⟨⟨⟨⟨⟨⟨⟨⟨⟨henabled, hlive⟩, howner⟩, howned⟩, hplacement⟩, hscheme⟩, hport⟩, hmethod⟩, hpurpose⟩, hhost⟩,
        hpath⟩ := hmatches
      exact ⟨hstored, henabled, howner, ⟨credential, hcredential, hlive, howned⟩, hplacement, hscheme, hport, hmethod,
        hpurpose.symm, hhost, hpath⟩
  · intro hmatches
    obtain ⟨credential, hcredential, hlive, howned⟩ := hmatches.credential
    refine ⟨hmatches.stored, ?_⟩
    rw [hcredential]
    simp only [Bool.and_eq_true, beq_iff_eq, List.contains_iff_mem, List.any_eq_true]
    exact ⟨⟨⟨⟨⟨⟨⟨⟨⟨⟨hmatches.enabled, hlive⟩, hmatches.owner⟩, howned⟩, hmatches.placement⟩, hmatches.scheme⟩,
      hmatches.port⟩, hmatches.method⟩, hmatches.purpose.symm⟩, hmatches.host⟩, hmatches.path⟩

theorem byScore_consistent (platform : HttpPlatform) : Std.TransCmp (byScore platform) := by
  have hscore : Std.TransCmp fun left right : CredentialBinding => compare (specificity right) (specificity left) :=
    transCmp_on (fun a b : ℕ => compare b a) specificity
  have href : Std.TransCmp fun left right : CredentialBinding =>
      platform.localeCompare left.bindingRef right.bindingRef :=
    transCmp_on platform.localeCompare CredentialBinding.bindingRef
  exact inferInstanceAs (Std.TransCmp (compareLex _ _))

theorem byScore_le {left right : CredentialBinding} (h : (byScore platform left right).isLE = true) :
    specificity right ≤ specificity left := by
  rw [byScore, Ordering.isLE_then_iff_and] at h
  exact Nat.isLE_compare.mp h.1

variable {candidates rest : List CredentialBinding} {selected : CredentialBinding}

theorem matchingBindings_ok (h : matchingBindings platform state request context = .ok candidates)
    (hmode : request.authentication.mode ≠ .anonymous) : ∃ url, platform.parseUrl request.url = some url ∧
      candidates = sortBy (byScore platform) (state.bindings.filter (bindingMatches platform state request url context)) := by
  rw [matchingBindings, if_neg hmode] at h
  split at h
  · cases h
  · rename_i url hurl
    exact ⟨url, hurl, (Except.ok.inj h).symm⟩

theorem selected_best
    (h : sortBy (byScore platform) (state.bindings.filter (bindingMatches platform state request url context)) =
      selected :: rest) {other : CredentialBinding} (hother : Matches platform state request url context other) :
    specificity other ≤ specificity selected := by
  have hconsistent := byScore_consistent platform
  exact byScore_le (sortBy_head_le (byScore platform) h (mem_candidates.2 hother))

theorem selected_matches
    (h : sortBy (byScore platform) (state.bindings.filter (bindingMatches platform state request url context)) =
      selected :: rest) : Matches platform state request url context selected :=
  mem_candidates.1 (mem_sortBy.1 (h ▸ List.mem_cons_self))

theorem two_members {α : Type} {a b : α} {l : List α} (ha : a ∈ l) (hb : b ∈ l) (hne : a ≠ b) : 1 < l.length := by
  cases l with
  | nil => exact absurd ha List.not_mem_nil
  | cons x l =>
    cases l with
    | nil => exact absurd ((List.mem_singleton.mp ha).trans (List.mem_singleton.mp hb).symm) hne
    | cons y l => simp

theorem selected_alone
    (h : sortBy (byScore platform) (state.bindings.filter (bindingMatches platform state request url context)) =
      selected :: rest)
    (hlength : ¬ 1 < ((selected :: rest).filter fun candidate => specificity candidate = specificity selected).length) :
    MostSpecific platform state request url context selected := by
  refine ⟨selected_matches h, fun other hother hne => ?_⟩
  have hle := selected_best h hother
  apply lt_of_le_of_ne hle
  intro hsame
  -- two bindings of the best score make a list of two
  have hmem : other ∈ selected :: rest := h ▸ mem_sortBy.2 (mem_candidates.2 hother)
  exact hlength (two_members (List.mem_filter.mpr ⟨hmem, decide_eq_true hsame⟩)
    (List.mem_filter.mpr ⟨List.mem_cons_self, decide_eq_true rfl⟩) hne)

theorem selected_ambiguous
    (h : sortBy (byScore platform) (state.bindings.filter (bindingMatches platform state request url context)) =
      selected :: rest) : Ambiguous platform state request url context →
      1 < ((selected :: rest).filter fun candidate => specificity candidate = specificity selected).length := by
  rintro ⟨one, two, hne, hone, htwo, hsame, hbest⟩
  have hscore : specificity one = specificity selected :=
    le_antisymm (selected_best h hone) (hbest selected (selected_matches h))
  have hmem : ∀ other, Matches platform state request url context other → specificity other = specificity selected →
      other ∈ (selected :: rest).filter fun candidate => specificity candidate = specificity selected :=
    fun other hother hother' => List.mem_filter.mpr ⟨h ▸ mem_sortBy.2 (mem_candidates.2 hother), decide_eq_true hother'⟩
  exact two_members (hmem one hone hscore) (hmem two htwo (hsame.symm.trans hscore)) hne

end Candidates

/-! ## What a session finds -/

section Sessions
variable {platform : HttpPlatform} {tenantId : String} {state : VaultState} {request : HttpRequestArtifact}
  {context : VaultSessionContext} {answer : VaultMatch}

theorem assertSessionContext_ok (h : assertSessionContext platform context tenantId = .ok ()) :
    context.tenantId = tenantId := by
  unfold assertSessionContext at h
  obtain ⟨requested, hrequested, h⟩ := bind_eq_ok h
  obtain ⟨_, htenant, _⟩ := bind_eq_ok h
  rw [uuid] at hrequested
  split at hrequested
  · cases hrequested
    exact not_not.mp (throwIf_ok htenant)
  · cases hrequested

theorem normalized_eq {again : HttpRequestArtifact} (hnormal : Normal platform request)
    (h : normalized platform request = .ok again) : again = request := by
  rw [normalized] at h
  split at h
  · split at h
    · cases h
    · exact hnormal.parsed h
  · exact hnormal.parsed h

theorem ownedCredential_ok {owner reference : String} {credential : StoredCredential}
    (h : ownedCredential platform state owner reference = .ok credential) :
    state.credential reference = some credential ∧ credential.ownerSubjectId = owner := by
  unfold ownedCredential at h
  obtain ⟨subject, hsubject, h⟩ := bind_eq_ok h
  obtain ⟨ref, href, h⟩ := bind_eq_ok h
  rw [uuid] at hsubject href
  split at hsubject
  · split at href
    · cases hsubject
      cases href
      split at h
      · cases h
      · rename_i stored hstored
        split at h
        · rename_i howner
          cases h
          exact ⟨hstored, howner⟩
        · cases h
    · cases href
  · cases hsubject

structure Sessioned (platform : HttpPlatform) (tenantId : String) (state : VaultState) (request : HttpRequestArtifact)
    (context : VaultSessionContext) (answer : VaultMatch) : Prop where
  tenant : context.tenantId = tenantId
  url : ∃ url, platform.parseUrl request.url = some url
  matched : ∀ url, platform.parseUrl request.url = some url → ∀ binding credentialRef version,
    answer = .matched binding credentialRef version → MostSpecific platform state request url context binding ∧
      binding.credentialRef = credentialRef
  ambiguous : ∀ url, platform.parseUrl request.url = some url → Ambiguous platform state request url context →
    ∃ bindingRefs, answer = .ambiguous bindingRefs

theorem sessionMatch_ok (h : sessionMatch platform tenantId state request context = .ok answer)
    (hnormal : Normal platform request) (hmode : request.authentication.mode ≠ .anonymous) :
    Sessioned platform tenantId state request context answer := by
  unfold sessionMatch at h
  obtain ⟨_, htenant, h⟩ := bind_eq_ok h
  obtain ⟨again, hagain, h⟩ := bind_eq_ok h
  rw [normalized_eq hnormal hagain] at h
  obtain ⟨candidates, hcandidates, h⟩ := bind_eq_ok h
  obtain ⟨url, hurl, hsorted⟩ := matchingBindings_ok hcandidates hmode
  have honly : ∀ other, platform.parseUrl request.url = some other → other = url := fun other hother =>
    Option.some.inj (hother.symm.trans hurl)
  cases candidates with
  | nil =>
    cases h
    refine ⟨assertSessionContext_ok htenant, ⟨url, hurl⟩, fun _ _ _ _ _ hanswer => (by cases hanswer), ?_⟩
    rintro other hother ⟨one, _, _, hone, _⟩
    rw [honly other hother] at hone
    have hmem : one ∈ ([] : List CredentialBinding) := hsorted ▸ mem_sortBy.2 (mem_candidates.2 hone)
    exact absurd hmem List.not_mem_nil
  | cons selected rest =>
    dsimp only at h
    split at h
    · cases h
      exact ⟨assertSessionContext_ok htenant, ⟨url, hurl⟩, fun _ _ _ _ _ hanswer => (by cases hanswer),
        fun _ _ _ => ⟨_, rfl⟩⟩
    · rename_i hlength
      obtain ⟨credential, hcredential, h⟩ := bind_eq_ok h
      cases h
      refine ⟨assertSessionContext_ok htenant, ⟨url, hurl⟩, fun other hother binding ref version hanswer => ?_,
        fun other hother hambiguous => ?_⟩
      · cases hanswer
        rw [honly other hother]
        exact ⟨selected_alone hsorted.symm hlength, (lookup_some (ownedCredential_ok hcredential).1).2.symm⟩
      · rw [honly other hother] at hambiguous
        exact absurd (selected_ambiguous hsorted.symm hambiguous) hlength

end Sessions

/-! ## Bound exchanges -/

/-- An exchange against the vaults of three moments: its request was matched in the first one, the binding of its
credential was chosen in the second and the secret was read in the third. -/
structure BoundIn (call : Acquisition) (exchange : Exchange) (matchedIn chosenIn readIn : VaultState) : Prop where
  credential : ∀ credential, exchange.credential = some credential → ∃ url binding stored,
    call.context.session.tenantId = call.tenantId ∧ call.platform.parseUrl exchange.request.url = some url ∧
      MostSpecific call.platform chosenIn exchange.request url call.context.session binding ∧
      readIn.credential binding.credentialRef = some stored ∧
      stored.ownerSubjectId = call.context.session.subjectId ∧ stored.enabled = true ∧
      credential = ⟨binding.bindingRef, stored.credentialRef, stored.version,
        httpRequestDigest call.platform exchange.request, binding.attachment, stored.secret⟩
  required : exchange.request.authentication.mode = .mappedRequired → exchange.credential ≠ none
  unambiguous : exchange.request.authentication.mode ≠ .anonymous → ∀ url,
    call.platform.parseUrl exchange.request.url = some url →
      ¬ Ambiguous call.platform matchedIn exchange.request url call.context.session

/-- Where the binding was chosen, for a credential. -/
def Made.chosenIn (made : Made) : VaultState := made.resolution.elim made.sentIn Resolution.chosenIn

/-- Where the secret was read, for a credential. -/
def Made.readIn (made : Made) : VaultState := made.resolution.elim made.sentIn Resolution.readIn

section Rounds
variable {call : Acquisition}

/-- The request of a round is normal, and the round knows what the vault has said about it. -/
structure RoundOk (call : Acquisition) (round : Round) : Prop where
  normal : Normal call.platform round.current
  matched : credentialMatch call round.matchedIn round.current = .ok round.answer

/-- A resolution is what `resolveForUse` returns for the binding that the round has matched. -/
def Resolves (call : Acquisition) (round : Round) (resolution : Resolution) : Prop :=
  ∃ binding credentialRef version answer, round.answer = .matched binding credentialRef version ∧
    resolveMatch call.platform call.tenantId resolution.chosenIn (resolveInput call round.current binding) = .ok answer ∧
    resolveSecret call.platform resolution.readIn (resolveInput call round.current binding) answer =
      .ok resolution.credential

def AwaitOk (call : Acquisition) (round : Round) : Await → Prop
  | .authorizing => True
  | .resolving answer chosenIn => ∃ binding credentialRef version, round.answer = .matched binding credentialRef version ∧
      resolveMatch call.platform call.tenantId chosenIn (resolveInput call round.current binding) = .ok answer
  | .attaching none => round.answer = .none
  | .attaching (some resolution) => Resolves call round resolution
  | .exchanging _ => True

variable {vault : VaultState} {task : Task} {round : Round} {world next : World} {action : Action}

variable {request : HttpRequestArtifact} {answer : VaultMatch} {input : ResolveInput} {phase : Phase}

theorem credentialMatch_ok (h : credentialMatch call vault request = .ok answer)
    (hmode : request.authentication.mode ≠ .anonymous) :
    sessionMatch call.platform call.tenantId vault request call.context.session = .ok answer ∧
      (∀ bindingRefs, answer ≠ .ambiguous bindingRefs) ∧
      (request.authentication.mode = .mappedRequired → answer ≠ .none) := by
  rw [credentialMatch, if_neg hmode] at h
  cases hsession : sessionMatch call.platform call.tenantId vault request call.context.session with
  | error error =>
    rw [hsession] at h
    cases h
  | ok found =>
    rw [hsession] at h
    cases found with
    | ambiguous bindingRefs => cases h
    | none =>
      dsimp only at h
      split at h
      · cases h
      · rename_i hoptional
        cases h
        exact ⟨rfl, fun _ hanswer => (by cases hanswer), fun hrequired => absurd hrequired hoptional⟩
    | matched binding credentialRef version =>
      cases h
      exact ⟨rfl, fun _ hanswer => (by cases hanswer), fun _ hanswer => (by cases hanswer)⟩

theorem credentialMatch_anonymous (h : credentialMatch call vault request = .ok answer)
    (hmode : request.authentication.mode = .anonymous) : answer = .none := by
  rw [credentialMatch, if_pos hmode] at h
  exact (Except.ok.inj h).symm

theorem resolveMatch_ok (h : resolveMatch call.platform call.tenantId vault input = .ok answer)
    (hnormal : Normal call.platform input.request) :
    sessionMatch call.platform call.tenantId vault input.request input.context = .ok answer := by
  unfold resolveMatch at h
  obtain ⟨_, _, h⟩ := bind_eq_ok h
  obtain ⟨_, _, h⟩ := bind_eq_ok h
  obtain ⟨again, hagain, h⟩ := bind_eq_ok h
  obtain ⟨_, _, h⟩ := bind_eq_ok h
  rw [normalized_eq hnormal hagain] at h
  exact h

theorem resolveSecret_ok {credential : RequestScopedCredentialAttachment}
    (h : resolveSecret call.platform vault input answer = .ok credential) :
    ∃ binding credentialRef version stored, answer = .matched binding credentialRef version ∧
      vault.credential credentialRef = some stored ∧ stored.ownerSubjectId = input.context.subjectId ∧
      stored.enabled = true ∧ credential = ⟨binding.bindingRef, stored.credentialRef, stored.version,
        input.requestDigest, binding.attachment, stored.secret⟩ := by
  cases answer with
  | none => cases h
  | ambiguous bindingRefs => cases h
  | matched binding credentialRef version =>
    obtain ⟨_, _, h⟩ := bind_eq_ok h
    obtain ⟨stored, hstored, h⟩ := bind_eq_ok h
    obtain ⟨hfound, howner⟩ := ownedCredential_ok hstored
    obtain ⟨_, hlive, h⟩ := bind_eq_ok h
    cases h
    exact ⟨binding, credentialRef, version, stored, rfl, hfound, howner, Bool.not_eq_false _ ▸ throwIf_ok hlive, rfl⟩

theorem RoundOk.bound {resolution : Option Resolution}
    (hround : RoundOk call round) (hawait : AwaitOk call round (.attaching resolution)) :
    BoundIn call (exchangeOf task round resolution) round.matchedIn (resolution.elim vault Resolution.chosenIn)
      (resolution.elim vault Resolution.readIn) := by
  refine ⟨fun credential hcredential => ?_, fun hrequired hnone => ?_, fun hmode url hurl hambiguous => ?_⟩
  · cases resolution with
    | none => cases hcredential
    | some resolution =>
      obtain ⟨binding, credentialRef, version, answer, hanswer, hresolved, hsecret⟩ := hawait
      cases hcredential
      have hmode : round.current.authentication.mode ≠ .anonymous := fun hanonymous => by
        rw [credentialMatch_anonymous hround.matched hanonymous] at hanswer
        cases hanswer
      obtain ⟨chosen, chosenRef, chosenVersion, stored, hchosen, hstored, howner, henabled, heq⟩ := resolveSecret_ok hsecret
      have hsession := sessionMatch_ok (resolveMatch_ok hresolved hround.normal) hround.normal hmode
      obtain ⟨url, hurl⟩ := hsession.url
      obtain ⟨hspecific, href⟩ := hsession.matched url hurl chosen chosenRef chosenVersion hchosen
      exact ⟨url, chosen, stored, hsession.tenant, hurl, hspecific, href ▸ hstored, howner, henabled, heq⟩
  · cases resolution with
    | some resolution => cases hnone
    | none =>
      have hmode : round.current.authentication.mode ≠ .anonymous := fun hanonymous => by
        have hboth := hanonymous.symm.trans hrequired
        cases hboth
      exact (credentialMatch_ok hround.matched hmode).2.2 hrequired hawait
  · obtain ⟨hsession, hclear, _⟩ := credentialMatch_ok hround.matched hmode
    obtain ⟨bindingRefs, hanswer⟩ := (sessionMatch_ok hsession hround.normal hmode).ambiguous url hurl hambiguous
    exact hclear bindingRefs hanswer

/-! ## Steps -/

def PhaseOk (call : Acquisition) : Phase → Prop
  | .called => True
  | .finding request answer matchedIn => Normal call.platform request ∧ credentialMatch call matchedIn request = .ok answer
  | .looping _ round await => RoundOk call round ∧ AwaitOk call round await
  | .finished _ => True

structure WorldOk (call : Acquisition) (world : World) : Prop where
  phase : PhaseOk call world.phase
  journal : ∀ made ∈ world.journal, BoundIn call made.exchange made.matchedIn made.chosenIn made.readIn

theorem RoundOk.unmatched (hround : RoundOk call round)
    (hanswer : ∀ binding credentialRef version, round.answer ≠ .matched binding credentialRef version) :
    round.answer = .none := by
  by_cases hmode : round.current.authentication.mode = .anonymous
  · exact credentialMatch_anonymous hround.matched hmode
  · obtain ⟨_, hclear, _⟩ := credentialMatch_ok hround.matched hmode
    cases h : round.answer with
    | none => rfl
    | ambiguous bindingRefs => exact absurd h (hclear bindingRefs)
    | matched binding credentialRef version => exact absurd h (hanswer binding credentialRef version)

theorem entered_ok (vault : VaultState) : PhaseOk call (entered call vault) := by
  unfold entered
  split
  · trivial
  · rename_i request answer h
    obtain ⟨_, _, h⟩ := bind_eq_ok h
    obtain ⟨parsed, hparsed, h⟩ := bind_eq_ok h
    obtain ⟨found, hfound, h⟩ := bind_eq_ok h
    cases h
    have hnormal : Normal call.platform request := ⟨_, _, hparsed⟩
    split
    · exact ⟨⟨hnormal, hfound⟩, trivial⟩
    · exact ⟨hnormal, hfound⟩

theorem foundCandidate_ok {matchedIn : VaultState} (h : PhaseOk call (.finding request answer matchedIn))
    (candidate : Option HttpResponseCandidate) : PhaseOk call (foundCandidate request answer matchedIn candidate) := by
  have hround : RoundOk call ⟨request, answer, 0, matchedIn⟩ := ⟨h.1, h.2⟩
  cases candidate with
  | none =>
    rw [foundCandidate]
    split
    · trivial
    · exact ⟨hround, trivial⟩
  | some candidate =>
    rw [foundCandidate]
    split
    · trivial
    · exact ⟨hround, trivial⟩

theorem authorizedRound_ok (h : RoundOk call round) (vault : VaultState) :
    PhaseOk call (authorizedRound call vault task round) := by
  unfold authorizedRound
  split
  · rename_i binding credentialRef version hanswer
    split
    · trivial
    · rename_i answer hresolved
      exact ⟨h, binding, credentialRef, version, hanswer, hresolved⟩
  · rename_i hanswer
    exact ⟨h, h.unmatched hanswer⟩

theorem resolvedRound_ok {chosenIn : VaultState} (h : PhaseOk call (.looping task round (.resolving answer chosenIn)))
    (vault : VaultState) : PhaseOk call (resolvedRound call vault task round answer chosenIn) := by
  obtain ⟨hround, binding, credentialRef, version, hanswer, hresolved⟩ := h
  unfold resolvedRound
  rw [hanswer]
  dsimp only
  split
  · trivial
  · rename_i credential hsecret
    exact ⟨hround, binding, credentialRef, version, answer, hanswer, hresolved, hsecret⟩

theorem followed_ok (vault : VaultState) (task : Task) (round : Round) (location : String) :
    PhaseOk call (followed call vault task round location) := by
  unfold followed
  split
  · trivial
  · rename_i next h
    unfold redirected at h
    split at h
    · cases h
    · obtain ⟨current, hcurrent, h⟩ := bind_eq_ok h
      obtain ⟨answer, hanswer, h⟩ := bind_eq_ok h
      cases h
      exact ⟨⟨⟨_, _, hcurrent⟩, hanswer⟩, trivial⟩

theorem answeredRound_ok (vault : VaultState) (task : Task) (round : Round) (made : Exchange)
    (exchange : HttpTransportExchange) (capturedAt : String) :
    PhaseOk call (answeredRound call vault task round made exchange capturedAt) := by
  unfold answeredRound
  split
  · split
    · trivial
    · split
      · trivial
      · exact followed_ok vault task round _
  · split
    · split <;> trivial
    · trivial

inductive Moves (call : Acquisition) (vault : VaultState) : Action → Phase → Phase → Prop
  | entered : Moves call vault .enter .called (entered call vault)
  | found (request : HttpRequestArtifact) (answer : VaultMatch) (matchedIn : VaultState)
      (candidate : Option HttpResponseCandidate) :
      Moves call vault (.found candidate) (.finding request answer matchedIn)
        (foundCandidate request answer matchedIn candidate)
  | failed (action : Action) (phase : Phase) (error : HttpError) :
      Moves call vault action phase (.finished (.error error))
  | authorized (task : Task) (round : Round) :
      Moves call vault .authorized (.looping task round .authorizing) (authorizedRound call vault task round)
  | resolved (task : Task) (round : Round) (answer : VaultMatch) (chosenIn : VaultState) :
      Moves call vault .proceed (.looping task round (.resolving answer chosenIn))
        (resolvedRound call vault task round answer chosenIn)
  | answered (task : Task) (round : Round) (made : Exchange) (exchange : HttpTransportExchange) (capturedAt : String) :
      Moves call vault (.answered exchange capturedAt) (.looping task round (.exchanging made))
        (answeredRound call vault task round made exchange capturedAt)

/-- The three kinds of steps. -/
inductive Stepped (call : Acquisition) (world : World) : Action → World → Prop
  | administered (change : Administration) :
      Stepped call world (.administer change) { world with vault := administered call.platform world.vault change }
  | moved {action : Action} {phase : Phase} (hmoves : Moves call world.vault action world.phase phase) :
      Stepped call world action { world with phase := phase }
  | sent (task : Task) (round : Round) (resolution : Option Resolution)
      (hphase : world.phase = .looping task round (.attaching resolution)) :
      Stepped call world .proceed { world with
        phase := .looping task round (.exchanging (exchangeOf task round resolution))
        journal := world.journal ++ [⟨exchangeOf task round resolution, round.matchedIn, resolution, world.vault⟩] }

theorem step_cases (hstep : step call world action = some next) : Stepped call world action next := by
  obtain ⟨vault, phase, journal⟩ := world
  unfold step at hstep
  cases action with
  | administer change =>
    cases hstep
    exact .administered change
  | enter =>
    cases phase <;> cases hstep
    exact .moved .entered
  | found candidate =>
    cases phase <;> cases hstep
    exact .moved (.found _ _ _ candidate)
  | findFailed error =>
    cases phase <;> cases hstep
    exact .moved (.failed _ _ error)
  | authorized =>
    cases phase with
    | looping task round await =>
      cases await <;> cases hstep
      exact .moved (.authorized task round)
    | _ => cases hstep
  | denied error =>
    cases phase with
    | looping task round await =>
      cases await <;> cases hstep
      exact .moved (.failed _ _ error)
    | _ => cases hstep
  | proceed =>
    cases phase with
    | looping task round await =>
      cases await with
      | resolving answer chosenIn =>
        cases hstep
        exact .moved (.resolved task round answer chosenIn)
      | attaching resolution =>
        cases hstep
        exact .sent task round resolution rfl
      | _ => cases hstep
    | _ => cases hstep
  | answered exchange capturedAt =>
    cases phase with
    | looping task round await =>
      cases await <;> cases hstep
      exact .moved (.answered task round _ exchange capturedAt)
    | _ => cases hstep
  | exchangeFailed error =>
    cases phase with
    | looping task round await =>
      cases await <;> cases hstep
      exact .moved (.failed _ _ error)
    | _ => cases hstep

theorem moves_ok {next : Phase} (hmoves : Moves call vault action phase next) (h : PhaseOk call phase) :
    PhaseOk call next := by
  cases hmoves with
  | entered => exact entered_ok vault
  | found request answer matchedIn candidate => exact foundCandidate_ok h candidate
  | failed action phase error => trivial
  | authorized task round => exact authorizedRound_ok h.1 vault
  | resolved task round answer chosenIn => exact resolvedRound_ok h vault
  | answered task round made exchange capturedAt => exact answeredRound_ok vault task round made exchange capturedAt

theorem step_ok (h : WorldOk call world) (hstep : step call world action = some next) : WorldOk call next := by
  cases step_cases hstep with
  | administered change => exact ⟨h.phase, h.journal⟩
  | moved hmoves => exact ⟨moves_ok hmoves h.phase, h.journal⟩
  | sent task round resolution hattaching =>
    have hphase := h.phase
    rw [hattaching] at hphase
    refine ⟨⟨hphase.1, trivial⟩, fun made hmade => ?_⟩
    rcases List.mem_append.mp hmade with hmade | hmade
    · exact h.journal made hmade
    · rw [List.mem_singleton.mp hmade]
      exact hphase.1.bound hphase.2

/-! ## The vaults that a call looks at -/

def Await.vaults : Await → List VaultState
  | .resolving _ chosenIn => [chosenIn]
  | .attaching (some resolution) => [resolution.chosenIn, resolution.readIn]
  | _ => []

def Phase.vaults : Phase → List VaultState
  | .finding _ _ matchedIn => [matchedIn]
  | .looping _ round await => round.matchedIn :: await.vaults
  | _ => []

def Made.vaults (made : Made) : List VaultState := [made.matchedIn, made.chosenIn, made.readIn, made.sentIn]

structure Still (vault : VaultState) (world : World) : Prop where
  now : world.vault = vault
  phase : ∀ seen ∈ world.phase.vaults, seen = vault
  journal : ∀ made ∈ world.journal, ∀ seen ∈ made.vaults, seen = vault

def Action.quiet : Action → Bool
  | .administer _ => false
  | _ => true

theorem moves_vaults {next : Phase} (hmoves : Moves call vault action phase next)
    (h : ∀ seen ∈ phase.vaults, seen = vault) : ∀ seen ∈ next.vaults, seen = vault := by
  cases hmoves with
  | entered =>
    unfold entered
    split
    · exact fun _ hseen => absurd hseen List.not_mem_nil
    · split <;> exact fun _ hseen => List.mem_singleton.mp hseen
  | found request answer matchedIn candidate =>
    cases candidate <;> rw [foundCandidate] <;> split <;>
      first | exact fun _ hseen => absurd hseen List.not_mem_nil | exact h
  | failed action phase error => exact fun _ hseen => absurd hseen List.not_mem_nil
  | authorized task round =>
    unfold authorizedRound
    split
    · split
      · exact fun _ hseen => absurd hseen List.not_mem_nil
      · intro seen hseen
        rcases List.mem_cons.mp hseen with rfl | hseen
        · exact h _ List.mem_cons_self
        · exact List.mem_singleton.mp hseen
    · exact h
  | resolved task round answer chosenIn =>
    have hmatched := h round.matchedIn List.mem_cons_self
    have hchosen := h chosenIn (List.mem_cons_of_mem _ List.mem_cons_self)
    unfold resolvedRound
    split
    · split
      · exact fun _ hseen => absurd hseen List.not_mem_nil
      · intro seen hseen
        simp only [Phase.vaults, Await.vaults, List.mem_cons, List.not_mem_nil, or_false] at hseen
        rcases hseen with rfl | rfl | rfl
        · exact hmatched
        · exact hchosen
        · rfl
    · intro seen hseen
      rw [List.mem_singleton.mp hseen]
      exact hmatched
  | answered task round made exchange capturedAt =>
    unfold answeredRound
    split
    · split
      · exact fun _ hseen => absurd hseen List.not_mem_nil
      · split
        · exact fun _ hseen => absurd hseen List.not_mem_nil
        · unfold followed
          split
          · exact fun _ hseen => absurd hseen List.not_mem_nil
          · rename_i next hnext
            unfold redirected at hnext
            split at hnext
            · cases hnext
            · obtain ⟨current, _, hnext⟩ := bind_eq_ok hnext
              obtain ⟨answer, _, hnext⟩ := bind_eq_ok hnext
              cases hnext
              exact fun _ hseen => List.mem_singleton.mp hseen
    · split
      · split <;> exact fun _ hseen => absurd hseen List.not_mem_nil
      · exact fun _ hseen => absurd hseen List.not_mem_nil

theorem step_still (hquiet : action.quiet = true)
    (h : Still vault world) (hstep : step call world action = some next) : Still vault next := by
  obtain ⟨hnow, hphase, hjournal⟩ := h
  cases step_cases hstep with
  | administered change => cases hquiet
  | moved hmoves =>
    rw [hnow] at hmoves
    exact ⟨hnow, moves_vaults hmoves hphase, hjournal⟩
  | sent task round resolution hattaching =>
    rw [hattaching] at hphase
    have hmatched := hphase round.matchedIn List.mem_cons_self
    refine ⟨hnow, fun seen hseen => ?_, fun made hmade seen hseen => ?_⟩
    · rw [List.mem_singleton.mp hseen]
      exact hmatched
    · rcases List.mem_append.mp hmade with hmade | hmade
      · exact hjournal made hmade seen hseen
      · rw [List.mem_singleton.mp hmade] at hseen
        simp only [Made.vaults, Made.chosenIn, Made.readIn, List.mem_cons, List.not_mem_nil, or_false] at hseen
        cases resolution with
        | none =>
          rcases hseen with rfl | rfl | rfl | rfl
          · exact hmatched
          · exact hnow
          · exact hnow
          · exact hnow
        | some resolution =>
          rcases hseen with rfl | rfl | rfl | rfl
          · exact hmatched
          · exact hphase _ (by simp [Phase.vaults, Await.vaults])
          · exact hphase _ (by simp [Phase.vaults, Await.vaults])
          · exact hnow

end Rounds
end AvenOS.HttpResources
