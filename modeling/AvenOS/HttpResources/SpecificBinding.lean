import AvenOS.HttpResources.CredentialRouting

/-! # The most specific binding

One number stands for the host and the path of a binding. It orders the bindings that match a request as their hosts and
then their paths do, where no path is so long that it makes up for a shorter host. -/
namespace AvenOS.HttpResources
open Actors StableSort KeyedTable ExceptLoop

/-! ## The order of bindings -/

def hostLength (binding : CredentialBinding) : ℕ := textLength binding.host.value

def pathLength (binding : CredentialBinding) : ℕ := textLength binding.pathPrefix

def exactness (binding : CredentialBinding) : ℕ :=
  match binding.host.kind with
  | .exact => 1
  | .suffix => 0

/-- An exact host before every suffix, then the longer host, then the longer path prefix. -/
def ComesBefore (one other : CredentialBinding) : Prop :=
  exactness other < exactness one ∨ exactness other = exactness one ∧
    (hostLength other < hostLength one ∨ hostLength other = hostLength one ∧ pathLength other < pathLength one)

instance (one other : CredentialBinding) : Decidable (ComesBefore one other) := inferInstanceAs (Decidable (_ ∨ _))

theorem ComesBefore.trans {one two three : CredentialBinding} (h : ComesBefore one two) (h' : ComesBefore two three) :
    ComesBefore one three := by
  unfold ComesBefore at *
  omega

theorem exists_first {bindings : List CredentialBinding} (hne : bindings ≠ []) :
    ∃ first ∈ bindings, ∀ other ∈ bindings, ¬ ComesBefore other first := by
  induction bindings with
  | nil => exact absurd rfl hne
  | cons binding bindings ih =>
    have hself : ¬ ComesBefore binding binding := by
      unfold ComesBefore
      omega
    by_cases hempty : bindings = []
    · refine ⟨binding, List.mem_cons_self, fun other hother => ?_⟩
      rw [hempty] at hother
      rw [List.mem_singleton.mp hother]
      exact hself
    · obtain ⟨first, hfirst, hbest⟩ := ih hempty
      by_cases hbefore : ComesBefore binding first
      · refine ⟨binding, List.mem_cons_self, fun other hother => ?_⟩
        rcases List.mem_cons.mp hother with rfl | hmem
        · exact hself
        · exact fun h => hbest other hmem (h.trans hbefore)
      · refine ⟨first, List.mem_cons_of_mem _ hfirst, fun other hother => ?_⟩
        rcases List.mem_cons.mp hother with rfl | hmem
        · exact hbefore
        · exact hbest other hmem

section Selection
variable (platform : HttpPlatform) (state : VaultState) (request : HttpRequestArtifact) (url : Url)
  (context : VaultSessionContext)

structure ComesFirst (binding : CredentialBinding) : Prop where
  isMatch : Matches platform state request url context binding
  first : ∀ other, Matches platform state request url context other → ¬ ComesBefore other binding

/-- The most specific binding is selected, only bindings of one host and path are ambiguous, and nothing is found only where
nothing matches. -/
structure SelectsFirst (answer : VaultMatch) : Prop where
  matched : ∀ binding credentialRef version, answer = .matched binding credentialRef version →
    Matches platform state request url context binding ∧
      ∀ other, Matches platform state request url context other → other ≠ binding → ComesBefore binding other
  ambiguous : ∀ bindingRefs, answer = .ambiguous bindingRefs →
    (∃ one two, one ≠ two ∧ one.bindingRef ∈ bindingRefs ∧ two.bindingRef ∈ bindingRefs ∧
      ComesFirst platform state request url context one ∧ ComesFirst platform state request url context two ∧
      one.host = two.host ∧ one.pathPrefix = two.pathPrefix) ∧
    ∀ binding, Matches platform state request url context binding → binding.bindingRef ∈ bindingRefs →
      ComesFirst platform state request url context binding
  none : answer = .none → ∀ binding, ¬ Matches platform state request url context binding

/-- The path prefix of no binding that matches makes up for its shorter host. -/
def NotOutweighed : Prop :=
  ∀ best, ComesFirst platform state request url context best →
    ∀ other, Matches platform state request url context other → ComesBefore best other →
      specificity other < specificity best

end Selection

/-! ## Bindings of one place in the order -/

theorem unitsOf_append (one two : List Char) : Json.unitsOf (one ++ two) = Json.unitsOf one ++ Json.unitsOf two :=
  List.flatMap_append

variable {text : List Char}

theorem unitsOf_length_pos (h : text ≠ []) : 0 < (Json.unitsOf text).length := by
  obtain ⟨c, rest, rfl⟩ := List.exists_cons_of_ne_nil h
  rw [Json.unitsOf, List.flatMap_cons, List.length_append]
  have hc : 0 < (Json.utf16 c).length := by
    unfold Json.utf16
    split <;> exact Nat.succ_pos _
  omega

variable {one two : List Char}

theorem prefix_eq (hone : one <+: text) (htwo : two <+: text)
    (hlength : (Json.unitsOf one).length = (Json.unitsOf two).length) : one = two := by
  rcases List.prefix_or_prefix_of_prefix hone htwo with ⟨rest, rfl⟩ | ⟨rest, rfl⟩
  · rw [unitsOf_append, List.length_append] at hlength
    by_cases hrest : rest = []
    · rw [hrest, List.append_nil]
    · have hpos := unitsOf_length_pos hrest
      omega
  · rw [unitsOf_append, List.length_append] at hlength
    by_cases hrest : rest = []
    · rw [hrest, List.append_nil]
    · have hpos := unitsOf_length_pos hrest
      omega

theorem suffix_eq (hone : one <:+ text) (htwo : two <:+ text)
    (hlength : (Json.unitsOf one).length = (Json.unitsOf two).length) : one = two := by
  rcases List.suffix_or_suffix_of_suffix hone htwo with ⟨rest, rfl⟩ | ⟨rest, rfl⟩
  · rw [unitsOf_append, List.length_append] at hlength
    by_cases hrest : rest = []
    · rw [hrest, List.nil_append]
    · have hpos := unitsOf_length_pos hrest
      omega
  · rw [unitsOf_append, List.length_append] at hlength
    by_cases hrest : rest = []
    · rw [hrest, List.nil_append]
    · have hpos := unitsOf_length_pos hrest
      omega

section Alike
variable {platform : HttpPlatform} {hostname pathname : String}

theorem hostMatches_eq {one two : HostMatcher} (hone : hostMatches platform one hostname = true)
    (htwo : hostMatches platform two hostname = true) (hkind : one.kind = two.kind)
    (hlength : textLength one.value = textLength two.value) : one = two := by
  obtain ⟨kind, value⟩ := one
  obtain ⟨kind', value'⟩ := two
  cases hkind
  unfold hostMatches at hone htwo
  cases kind with
  | exact =>
    have hsame : value = value' := (beq_iff_eq.mp hone).symm.trans (beq_iff_eq.mp htwo)
    rw [hsame]
  | suffix =>
    have hends : ∀ value : String, endsWith (platform.toLowerCase hostname) ("." ++ value) = true →
        value.toList <:+ (platform.toLowerCase hostname).toList := by
      intro value h
      rw [endsWith, List.isSuffixOf_iff_suffix, String.toList_append] at h
      exact (List.suffix_append _ _).trans h
    have hsame : value = value' := String.toList_inj.mp
      (suffix_eq (hends _ (Bool.and_eq_true_iff.mp hone).2) (hends _ (Bool.and_eq_true_iff.mp htwo).2) hlength)
    rw [hsame]

variable {pathPrefix : String}

theorem pathMatches_prefix (h : pathMatches pathPrefix pathname = true) :
    pathPrefix = "/" ∨ pathPrefix.toList <+: pathname.toList := by
  unfold pathMatches at h
  split at h
  · exact .inl ‹_›
  · refine .inr ?_
    split at h
    · exact List.isPrefixOf_iff_prefix.mp h
    · rcases Bool.or_eq_true_iff.mp h with h | h
      · exact beq_iff_eq.mp h ▸ List.prefix_refl _
      · have hprefix := List.isPrefixOf_iff_prefix.mp h
        rw [String.toList_append] at hprefix
        exact (List.prefix_append _ _).trans hprefix

theorem slash_eq (hslash : startsWith pathPrefix "/" = true) (hlength : textLength pathPrefix = 1) :
    pathPrefix = "/" := by
  obtain ⟨rest, hrest⟩ := List.isPrefixOf_iff_prefix.mp hslash
  have hunits : (Json.unitsOf rest).length = 0 := by
    rw [textLength, ← hrest, unitsOf_append, List.length_append] at hlength
    have hone : (Json.unitsOf "/".toList).length = 1 := by decide
    omega
  have hnil : rest = [] := by
    by_contra hne
    have hpos := unitsOf_length_pos hne
    omega
  rw [hnil, List.append_nil] at hrest
  exact (String.toList_inj.mp hrest).symm

theorem pathMatches_eq {one two : String} (hone : pathMatches one pathname = true) (htwo : pathMatches two pathname = true)
    (hslash : startsWith one "/" = true) (hslash' : startsWith two "/" = true) (hlength : textLength one = textLength two) :
    one = two := by
  have hroot : textLength "/" = 1 := by decide
  rcases pathMatches_prefix hone with rfl | hprefix
  · exact (slash_eq hslash' (hlength.symm.trans hroot)).symm
  · rcases pathMatches_prefix htwo with rfl | hprefix'
    · exact slash_eq hslash (hlength.trans hroot)
    · exact String.toList_inj.mp (prefix_eq hprefix hprefix' hlength)

end Alike

/-! ## The bindings of a vault -/

section Vaults
variable {platform : HttpPlatform} {state changed : VaultState}

def Rooted (state : VaultState) : Prop := ∀ binding ∈ state.bindings, startsWith binding.pathPrefix "/" = true

variable {binding : CredentialBinding}

theorem Rooted.setBinding (h : Rooted state) (hbinding : startsWith binding.pathPrefix "/" = true) :
    Rooted (state.setBinding binding) := by
  unfold VaultState.setBinding
  split
  · intro other hother
    rcases List.mem_append.mp hother with hold | hnew
    · exact h other hold
    · rw [List.mem_singleton.mp hnew]
      exact hbinding
  · intro other hother
    obtain ⟨old, hold, ⟨-, hsame⟩ | ⟨-, hsame⟩⟩ := mem_modify hother
    · rw [hsame]
      exact hbinding
    · rw [hsame]
      exact h old hold

theorem normalizeBinding_slash {input : CredentialBinding} (h : normalizeBinding platform input = .ok binding) :
    startsWith binding.pathPrefix "/" = true := by
  unfold normalizeBinding at h
  obtain ⟨parsed, _, h⟩ := bind_eq_ok h
  obtain ⟨_, _, h⟩ := bind_eq_ok h
  split at h
  · cases h
  · obtain ⟨_, hpath, h⟩ := bind_eq_ok h
    obtain ⟨attachment, _, h⟩ := bind_eq_ok h
    cases h
    have hboth := throwIf_ok hpath
    rw [not_or, Bool.not_eq_false] at hboth
    exact hboth.2

theorem ownedBinding_mem {owner reference : String}
    (h : ownedBinding platform state owner reference = .ok binding) : binding ∈ state.bindings := by
  unfold ownedBinding at h
  obtain ⟨subject, _, h⟩ := bind_eq_ok h
  obtain ⟨found, _, h⟩ := bind_eq_ok h
  split at h
  · cases h
  · rename_i stored hstored
    split at h
    · cases h
      exact (lookup_some hstored).1
    · cases h

theorem Rooted.administer (h : Rooted state) {call : Administration} (hcall : administer platform state call = .ok changed) :
    Rooted changed := by
  cases call with
  | setCredential owner label secret reference =>
    change HttpResources.setCredential platform state owner label secret reference = .ok changed at hcall
    unfold HttpResources.setCredential at hcall
    obtain ⟨_, _, hcall⟩ := bind_eq_ok hcall
    obtain ⟨_, _, hcall⟩ := bind_eq_ok hcall
    split at hcall
    · obtain ⟨_, _, hcall⟩ := bind_eq_ok hcall
      obtain ⟨_, _, hcall⟩ := bind_eq_ok hcall
      cases hcall
      exact h
    · cases hcall
  | rotateCredential owner reference secret =>
    change HttpResources.rotateCredential platform state owner reference secret = .ok changed at hcall
    unfold HttpResources.rotateCredential at hcall
    obtain ⟨_, _, hcall⟩ := bind_eq_ok hcall
    obtain ⟨_, _, hcall⟩ := bind_eq_ok hcall
    cases hcall
    exact h
  | revokeCredential owner reference =>
    change HttpResources.revokeCredential platform state owner reference = .ok changed at hcall
    unfold HttpResources.revokeCredential at hcall
    obtain ⟨_, _, hcall⟩ := bind_eq_ok hcall
    cases hcall
    exact h
  | putBinding input =>
    change HttpResources.putBinding platform state input = .ok changed at hcall
    unfold HttpResources.putBinding at hcall
    obtain ⟨binding, hbinding, hcall⟩ := bind_eq_ok hcall
    obtain ⟨_, _, hcall⟩ := bind_eq_ok hcall
    have hslash := normalizeBinding_slash hbinding
    split at hcall
    · obtain ⟨_, _, hcall⟩ := bind_eq_ok hcall
      cases hcall
      exact h.setBinding hslash
    · cases hcall
      exact h.setBinding hslash
  | revokeBinding owner reference =>
    change HttpResources.revokeBinding platform state owner reference = .ok changed at hcall
    unfold HttpResources.revokeBinding at hcall
    obtain ⟨binding, hbinding, hcall⟩ := bind_eq_ok hcall
    cases hcall
    exact h.setBinding (h binding (ownedBinding_mem hbinding))

theorem rooted_administered (platform : HttpPlatform) (calls : List Administration) :
    Rooted (calls.foldl (administered platform) .empty) := by
  have hall : ∀ state, Rooted state → Rooted (calls.foldl (administered platform) state) := by
    induction calls with
    | nil => exact fun _ h => h
    | cons call calls ih =>
      intro state h
      refine ih _ ?_
      unfold administered
      split
      · exact h.administer ‹_›
      · exact h
  exact hall _ fun _ hmem => absurd hmem List.not_mem_nil

end Vaults

/-! ## What a session answers -/

section Answers
variable {platform : HttpPlatform} {tenantId : String} {state : VaultState} {request again : HttpRequestArtifact} {url : Url}
  {context : VaultSessionContext} {answer : VaultMatch}

theorem authenticationSchema_anonymous {value : JsValue} {parsed : HttpAuthentication} (h : authenticationSchema value = .ok parsed) :
    parsed.mode = .anonymous → parsed.purpose = none := by
  unfold authenticationSchema at h
  obtain ⟨fields, _, h⟩ := bind_eq_ok h
  obtain ⟨mode, _, h⟩ := bind_eq_ok h
  obtain ⟨purpose, _, h⟩ := bind_eq_ok h
  split at h
  · rename_i hiff
    cases h
    exact hiff.mp
  · cases h

theorem requestSchema_anonymous {value : JsValue} {parsed : HttpRequestArtifact} (h : requestSchema value = .ok parsed) :
    parsed.authentication.mode = .anonymous → parsed.authentication.purpose = none := by
  unfold requestSchema at h
  obtain ⟨fields, _, h⟩ := bind_eq_ok h
  obtain ⟨method, _, h⟩ := bind_eq_ok h
  obtain ⟨url, _, h⟩ := bind_eq_ok h
  obtain ⟨headers, _, h⟩ := bind_eq_ok h
  obtain ⟨authentication, hauthentication, h⟩ := bind_eq_ok h
  obtain ⟨redirects, _, h⟩ := bind_eq_ok h
  obtain ⟨freshness, _, h⟩ := bind_eq_ok h
  cases h
  rw [defaultedField] at hauthentication
  split at hauthentication
  · exact authenticationSchema_anonymous hauthentication
  · cases hauthentication
    exact fun _ => rfl

theorem normalized_anonymous (h : normalized platform request = .ok again) :
    again.authentication.mode = .anonymous → again.authentication.purpose = none := by
  have hparse : ∃ input origins, parseHttpRequestArtifact platform input origins = .ok again := by
    unfold normalized at h
    split at h
    · split at h
      · cases h
      · exact ⟨_, _, h⟩
    · exact ⟨_, _, h⟩
  obtain ⟨input, origins, hparse⟩ := hparse
  obtain ⟨parsed, _, _, hparsed, _, _, rfl⟩ := parse_parts hparse
  have hanonymous := requestSchema_anonymous hparsed
  exact hanonymous

/-- The candidates of a request, best first. -/
def ranked (platform : HttpPlatform) (state : VaultState) (request : HttpRequestArtifact) (url : Url)
    (context : VaultSessionContext) : List CredentialBinding :=
  sortBy (byScore platform) (state.bindings.filter (bindingMatches platform state request url context))

def tied (selected : CredentialBinding) (candidates : List CredentialBinding) : List CredentialBinding :=
  candidates.filter fun candidate => specificity candidate = specificity selected

inductive Answers (platform : HttpPlatform) (state : VaultState) (request : HttpRequestArtifact) (url : Url)
    (context : VaultSessionContext) : VaultMatch → Prop
  | none (h : ∀ binding, ¬ Matches platform state request url context binding) : Answers platform state request url context .none
  | ambiguous (selected : CredentialBinding) (rest : List CredentialBinding)
      (h : ranked platform state request url context = selected :: rest) (htied : 1 < (tied selected (selected :: rest)).length) :
      Answers platform state request url context
        (.ambiguous (sortBy platform.localeCompare ((tied selected (selected :: rest)).map CredentialBinding.bindingRef)))
  | matched (selected : CredentialBinding) (rest : List CredentialBinding) (credentialRef : String) (version : ℕ)
      (h : ranked platform state request url context = selected :: rest) (hone : ¬ 1 < (tied selected (selected :: rest)).length) :
      Answers platform state request url context (.matched selected credentialRef version)

theorem sessionMatch_cases (hnormal : normalized platform request = .ok again) (hurl : platform.parseUrl again.url = some url)
    (h : sessionMatch platform tenantId state request context = .ok answer) : Answers platform state again url context answer := by
  unfold sessionMatch at h
  obtain ⟨_, _, h⟩ := bind_eq_ok h
  obtain ⟨parsed, hparsed, h⟩ := bind_eq_ok h
  cases hnormal.symm.trans hparsed
  obtain ⟨candidates, hcandidates, h⟩ := bind_eq_ok h
  by_cases hmode : again.authentication.mode = .anonymous
  · rw [matchingBindings, if_pos hmode] at hcandidates
    cases hcandidates
    cases h
    refine .none fun binding hmatches => ?_
    have hpurpose := hmatches.purpose
    rw [normalized_anonymous hnormal hmode] at hpurpose
    cases hpurpose
  · obtain ⟨found, hfound, hsorted⟩ := matchingBindings_ok hcandidates hmode
    cases hurl.symm.trans hfound
    cases candidates with
    | nil =>
      cases h
      refine .none fun binding hmatches => ?_
      have hmem : binding ∈ ([] : List CredentialBinding) := hsorted ▸ mem_sortBy.2 (mem_candidates.2 hmatches)
      exact absurd hmem List.not_mem_nil
    | cons selected rest =>
      dsimp only at h
      split at h
      · rename_i htied
        cases h
        exact .ambiguous selected rest hsorted.symm htied
      · rename_i hone
        obtain ⟨credential, _, h⟩ := bind_eq_ok h
        cases h
        exact .matched selected rest _ _ hsorted.symm hone

variable {binding one two selected : CredentialBinding} {rest : List CredentialBinding}

theorem mem_ranked :
    binding ∈ ranked platform state again url context ↔ Matches platform state again url context binding := by
  rw [ranked, mem_sortBy, mem_candidates]

theorem ranked_nodup : (ranked platform state again url context).Nodup := by
  refine (sortBy_perm _ _).nodup_iff.mpr (List.Nodup.filter _ ?_)
  exact List.Nodup.of_map _ state.bindingsKeyed

theorem alike (hrooted : Rooted state) (hone : Matches platform state again url context one)
    (htwo : Matches platform state again url context two) (hnot : ¬ ComesBefore one two) (hnot' : ¬ ComesBefore two one) :
    one.host = two.host ∧ one.pathPrefix = two.pathPrefix := by
  have hranks : exactness one = exactness two ∧ hostLength one = hostLength two ∧ pathLength one = pathLength two := by
    unfold ComesBefore at hnot hnot'
    omega
  have hkind : one.host.kind = two.host.kind := by
    have hexact := hranks.1
    unfold exactness at hexact
    cases h : one.host.kind <;> cases h' : two.host.kind <;> simp [h, h'] at hexact <;> rfl
  exact ⟨hostMatches_eq hone.host htwo.host hkind hranks.2.1,
    pathMatches_eq hone.path htwo.path (hrooted one hone.stored) (hrooted two htwo.stored) hranks.2.2⟩

theorem specificity_alike (h : one.host = two.host ∧ one.pathPrefix = two.pathPrefix) :
    specificity one = specificity two := by
  rw [specificity, specificity, h.1, h.2]

theorem comesFirst_of_best (hfair : NotOutweighed platform state again url context)
    (hselected : Matches platform state again url context selected)
    (hbest : ∀ other, Matches platform state again url context other → specificity other ≤ specificity selected) :
    ComesFirst platform state again url context selected := by
  have hne : ranked platform state again url context ≠ [] := List.ne_nil_of_mem (mem_ranked.2 hselected)
  obtain ⟨first, hmem, hfirst⟩ := exists_first hne
  have hcomes : ComesFirst platform state again url context first :=
    ⟨mem_ranked.1 hmem, fun other hother => hfirst other (mem_ranked.2 hother)⟩
  have hnot : ¬ ComesBefore first selected := by
    intro hbefore
    have hless := hfair first hcomes selected hselected hbefore
    have hle := hbest first hcomes.isMatch
    omega
  refine ⟨hselected, fun other hother hbefore => ?_⟩
  have hother' := hcomes.first other hother
  unfold ComesBefore at hnot hbefore hother'
  omega

theorem not_before_alike (hone : ComesFirst platform state again url context one)
    (htwo : ComesFirst platform state again url context two) (hrooted : Rooted state) :
    one.host = two.host ∧ one.pathPrefix = two.pathPrefix :=
  alike hrooted hone.isMatch htwo.isMatch (htwo.first one hone.isMatch) (hone.first two htwo.isMatch)

/-! ## Scores and places -/

theorem mem_tied (h : ranked platform state again url context = selected :: rest) :
    binding ∈ tied selected (selected :: rest) ↔
      Matches platform state again url context binding ∧ specificity binding = specificity selected := by
  rw [tied, List.mem_filter, ← h, mem_ranked, decide_eq_true_iff]

theorem mem_refs
    (h : ranked platform state again url context = selected :: rest) (hbinding : Matches platform state again url context binding) :
    binding.bindingRef ∈ sortBy platform.localeCompare ((tied selected (selected :: rest)).map CredentialBinding.bindingRef) ↔
      specificity binding = specificity selected := by
  rw [mem_sortBy, List.mem_map]
  constructor
  · rintro ⟨other, hother, href⟩
    obtain ⟨hmatches, hsame⟩ := (mem_tied h).mp hother
    rw [← state.bindingsKeyed.eq hmatches.stored hbinding.stored href]
    exact hsame
  · exact fun hsame => ⟨binding, (mem_tied h).mpr ⟨hbinding, hsame⟩, rfl⟩

theorem two_of_nodup {α : Type} {l : List α} (hnodup : l.Nodup) (hlength : 1 < l.length) : ∃ a ∈ l, ∃ b ∈ l, a ≠ b := by
  cases l with
  | nil => cases hlength
  | cons a l =>
    cases l with
    | nil => exact absurd hlength (lt_irrefl _)
    | cons b l =>
      refine ⟨a, List.mem_cons_self, b, List.mem_cons_of_mem _ List.mem_cons_self, ?_⟩
      rintro rfl
      exact (List.nodup_cons.mp hnodup).1 List.mem_cons_self

theorem ambiguous_iff (hrooted : Rooted state)
    (h : ranked platform state again url context = selected :: rest) (htied : 1 < (tied selected (selected :: rest)).length) :
    SelectsFirst platform state again url context
        (.ambiguous (sortBy platform.localeCompare ((tied selected (selected :: rest)).map CredentialBinding.bindingRef))) ↔
      NotOutweighed platform state again url context := by
  constructor
  · intro hselects best hbest other hother hbefore
    obtain ⟨⟨one, _, _, hone, _, hfirst, _, _, _⟩, hnamed⟩ := hselects.ambiguous _ rfl
    have hsame := (mem_refs h hfirst.isMatch).mp hone
    have hscore : specificity best = specificity selected :=
      (specificity_alike (not_before_alike hbest hfirst hrooted)).trans hsame
    have hle := selected_best h hother
    have hne : specificity other ≠ specificity selected := fun heq =>
      (hnamed other hother ((mem_refs h hother).mpr heq)).first best hbest.isMatch hbefore
    omega
  · intro hfair
    have hfirst : ∀ binding, Matches platform state again url context binding →
        specificity binding = specificity selected → ComesFirst platform state again url context binding := by
      intro binding hbinding hsame
      exact comesFirst_of_best hfair hbinding fun other hother => hsame ▸ selected_best h hother
    have hnodup : (tied selected (selected :: rest)).Nodup := List.Nodup.filter _ (h ▸ ranked_nodup)
    obtain ⟨one, hone, two, htwo, hne⟩ := two_of_nodup hnodup htied
    obtain ⟨hone, hscore⟩ := (mem_tied h).mp hone
    obtain ⟨htwo, hscore'⟩ := (mem_tied h).mp htwo
    refine ⟨fun _ _ _ hanswer => (by cases hanswer), fun refs hanswer => ?_, fun hanswer => (by cases hanswer)⟩
    cases hanswer
    refine ⟨⟨one, two, hne, (mem_refs h hone).mpr hscore, (mem_refs h htwo).mpr hscore', hfirst one hone hscore,
      hfirst two htwo hscore', ?_⟩, fun binding hbinding href => hfirst binding hbinding ((mem_refs h hbinding).mp href)⟩
    exact not_before_alike (hfirst one hone hscore) (hfirst two htwo hscore') hrooted

theorem matched_iff (hrooted : Rooted state) {credentialRef : String}
    {version : ℕ} (h : ranked platform state again url context = selected :: rest)
    (hone : ¬ 1 < (tied selected (selected :: rest)).length) :
    SelectsFirst platform state again url context (.matched selected credentialRef version) ↔
      NotOutweighed platform state again url context := by
  have hspecific := selected_alone h hone
  constructor
  · intro hselects best hbest other hother hbefore
    obtain ⟨hselected, hfirst⟩ := hselects.matched _ _ _ rfl
    have hsame : best = selected := by
      by_contra hne
      exact hbest.first selected hselected (hfirst best hbest.isMatch hne)
    rw [hsame] at hbefore ⊢
    refine hspecific.best other hother fun heq => ?_
    rw [heq] at hbefore
    unfold ComesBefore at hbefore
    omega
  · intro hfair
    have hcomes := comesFirst_of_best hfair hspecific.isMatch fun other hother => selected_best h hother
    refine ⟨fun binding _ _ hanswer => ?_, fun _ hanswer => (by cases hanswer), fun hanswer => (by cases hanswer)⟩
    cases hanswer
    refine ⟨hspecific.isMatch, fun other hother hne => ?_⟩
    by_contra hbefore
    have hsame := specificity_alike (alike hrooted hspecific.isMatch hother hbefore (hcomes.first other hother))
    have hless := hspecific.best other hother hne
    omega

end Answers

/-! ## A long path -/

namespace LongPath

def path (n : ℕ) : String := String.ofList ('/' :: List.replicate n 'p')

def href (n : ℕ) : String := "https://a.x.org" ++ path n

def url (n : ℕ) : Url := ⟨href n, "https:", "", "", "a.x.org", none, path n, "", "https://a.x.org"⟩

theorem token_unchanged (text : String) (_ : isHttpToken (id text) = true) : id (id text) = id text := rfl

/-- A runtime that knows one URL. -/
def platform (n : ℕ) : HttpPlatform where
  parseUrl := fun text => if text = href n then some (url n) else none
  resolveUrl := fun text _ => some { url n with pathname := text }
  setHostname := fun url _ => url
  setQuery := fun url _ _ => url
  setHeader := fun headers name value => some (headers ++ [(name, value)])
  toLowerCase := id
  localeCompare := compare
  localeConsistent := String.instTransOrd
  quote := id
  numberText := fun value => toString value.num
  sha256Hex := id
  isUuid := fun _ => true
  href_parses := by
    intro text found h
    obtain ⟨-, hfound⟩ := Option.ite_none_right_eq_some.mp h
    cases hfound
    exact if_pos rfl
  hostname_lower := fun _ _ _ _ => rfl
  lower_token := token_unchanged

def tenant : String := "00000000-0000-4000-8000-000000000001"
def subject : String := "00000000-0000-4000-8000-000000000002"
def credential : String := "00000000-0000-4000-8000-000000000003"

def binding (bindingRef suffix pathPrefix : String) : CredentialBinding where
  bindingRef := bindingRef
  label := "label"
  ownerSubjectId := subject
  credentialRef := credential
  placements := [.serverEnvironment]
  schemes := [.https]
  host := ⟨.suffix, suffix⟩
  ports := [443]
  pathPrefix := pathPrefix
  methods := [.get]
  purpose := "read"
  attachment := .header "authorization" "Bearer "
  enabled := true

def site : CredentialBinding := binding "00000000-0000-4000-8000-000000000004" "x.org" "/"

def parent (n : ℕ) : CredentialBinding := binding "00000000-0000-4000-8000-000000000005" "org" (path n)

def stored : StoredCredential := ⟨credential, subject, "label", "secret", 1, true⟩

/-- A binding of the site, and one of its parent domain under another path. -/
def calls (n : ℕ) : List Administration :=
  [.setCredential subject "label" "secret" credential, .putBinding site, .putBinding (parent n)]

def vault (n : ℕ) : VaultState := (calls n).foldl (administered (platform n)) .empty

def request (n : ℕ) : HttpRequestArtifact := ⟨.get, href n, [], ⟨.mappedRequired, some "read"⟩, ⟨.follow, 5⟩, .revalidate⟩

def context : VaultSessionContext := ⟨tenant, subject, "session", .serverEnvironment⟩

def started (n : ℕ) : VaultState :=
  [.setCredential subject "label" "secret" credential, .putBinding site].foldl (administered (platform n)) .empty

theorem textLength_path (n : ℕ) : textLength (path n) = n + 1 := by
  have hunits : ∀ n, (Json.unitsOf (List.replicate n 'p')).length = n := by
    intro n
    induction n with
    | zero => rfl
    | succ n ih =>
      rw [List.replicate_succ, Json.unitsOf, List.flatMap_cons, List.length_append, ← Json.unitsOf, ih]
      have hone : (Json.utf16 'p').length = 1 := by decide
      omega
  have hslash : (Json.utf16 '/').length = 1 := by decide
  rw [textLength, path, String.toList_ofList, Json.unitsOf, List.flatMap_cons, List.length_append, ← Json.unitsOf, hunits, hslash]
  omega

theorem href_toList (n : ℕ) : (href n).toList = "https://a.x.org".toList ++ (path n).toList := String.toList_append

theorem textLength_href (n : ℕ) : textLength (href n) = n + 16 := by
  have hpath := textLength_path n
  have hstart : (Json.unitsOf "https://a.x.org".toList).length = 15 := by decide
  rw [textLength] at hpath
  rw [textLength, href_toList, unitsOf_append, List.length_append, hpath, hstart]
  omega

theorem path_slash (n : ℕ) : startsWith (path n) "/" = true := by
  have hpath : (path n).toList = '/' :: List.replicate n 'p' := String.toList_ofList
  rw [startsWith, List.isPrefixOf_iff_prefix, hpath]
  exact ⟨List.replicate n 'p', rfl⟩

theorem pathMatches_self (text : String) : pathMatches text text = true := by
  unfold pathMatches
  split
  · rfl
  · split
    · exact List.isPrefixOf_iff_prefix.mpr (List.prefix_refl _)
    · exact Bool.or_eq_true_iff.mpr (.inl (beq_iff_eq.mpr rfl))

theorem parseUrl_request (n : ℕ) : (platform n).parseUrl (request n).url = some (url n) := if_pos rfl

theorem href_https (n : ℕ) : startsWith (href n) "http:" = false := by
  rw [startsWith, href_toList]
  rfl

theorem requestSchema_bare (text : String) :
    requestSchema (HttpRequestArtifact.toValue ⟨.get, text, [], ⟨.mappedRequired, some "read"⟩, ⟨.follow, 5⟩, .revalidate⟩) =
      (boundedText 1 8192 (.str text)).bind fun url =>
        .ok ⟨.get, url, [], ⟨.mappedRequired, some "read"⟩, ⟨.follow, 5⟩, .revalidate⟩ := rfl

variable {n : ℕ}

theorem normalized_request (hn : n ≤ 2047) : normalized (platform n) (request n) = .ok (request n) := by
  have hlength := textLength_href n
  have hurl : boundedText 1 8192 (.str (href n)) = .ok (href n) := by
    rw [boundedText, if_pos (by omega)]
  have hschema : requestSchema (request n).toValue = .ok (request n) := by
    rw [request, requestSchema_bare, hurl]
    rfl
  have hparse : ∀ origins, parseHttpRequestArtifact (platform n) (request n).toValue origins = .ok (request n) := by
    intro origins
    rw [parseHttpRequestArtifact, hschema]
    simp only [bind, Except.bind, parseUrl_request]
    rfl
  unfold normalized
  split
  · rename_i hhttp
    exact absurd (hhttp.symm.trans (href_https n)) (by decide)
  · exact hparse _

theorem fields_pass : trimmedText 256 (.str "label") = .ok "label" ∧ boundedText 1 253 (.str "org") = .ok "org" ∧
      trimmedText 128 (.str "read") = .ok "read" ∧ attachmentSchema (.header "authorization" "Bearer ") = .ok () ∧
      withoutWildcard "org" = "org" ∧ throwIf ("org".toList.contains ':' = true ∨ endsWith "org" "." = true) .vaultBindingHostInvalid = .ok () ∧
      ¬ isHttpToken "authorization" = false ∧ "authorization" ∉ forbiddenAttachmentHeaders ∧
      ¬ containsControlCharacter "Bearer " = true ∧ textLength "org" = 3 ∧ textLength "x.org" = 5 := by
  decide +kernel

theorem uuid_ok (n : ℕ) (value : String) : uuid (platform n) value = .ok value := if_pos rfl

theorem bindingSchema_parent (hn : n ≤ 2047) : bindingSchema (platform n) (parent n) = .ok (parent n) := by
  have hlength := textLength_path n
  have hpath : boundedText 1 2048 (.str (path n)) = .ok (path n) := by
    rw [boundedText, if_pos (by omega)]
  obtain ⟨hlabel, hhost, hpurpose, hattachment, -⟩ := fields_pass
  simp only [bindingSchema, uuid_ok, parent, binding, hlabel, hhost, hpath, hpurpose, hattachment]
  rfl

theorem normalizeBinding_parent (hn : n ≤ 2047) : normalizeBinding (platform n) (parent n) = .ok (parent n) := by
  obtain ⟨-, -, -, -, hhost, hvalid, htoken, hname, hprefix, -⟩ := fields_pass
  have hpath : ¬ (path n ≠ (parent n).pathPrefix ∨ startsWith (path n) "/" = false) := by simp [parent, binding, path_slash]
  have hattachment : normalizeAttachment (platform n) (parent n).attachment = .ok (parent n).attachment := by
    have hlower : (platform n).toLowerCase "authorization" = "authorization" := rfl
    simp only [normalizeAttachment, parent, binding, hlower, if_neg htoken, if_neg hname, if_neg hprefix]
  have hlower : (platform n).toLowerCase (parent n).host.value = "org" := rfl
  have hresolve : (platform n).resolveUrl (parent n).pathPrefix "https://binding.invalid" = some { url n with pathname := path n } := rfl
  rw [normalizeBinding, bindingSchema_parent hn]
  simp only [bind, Except.bind, hlower, hhost, hvalid, hresolve]
  split
  · rename_i error herror
    exact absurd (herror.symm.trans (if_neg hpath)) (by simp)
  · simp only [hattachment]
    rfl

theorem started_entries (hn : n = 2001) :
    (started n).credentials = [stored] ∧ (started n).bindings = [site] ∧ (started n).binding (parent n).bindingRef = none ∧
      ownedCredential (platform n) (started n) (parent n).ownerSubjectId (parent n).credentialRef = .ok stored ∧
      [stored].find? (fun entry => entry.credentialRef == credential) = some stored ∧
      hostMatches (platform n) site.host "a.x.org" = true ∧ hostMatches (platform n) (parent n).host "a.x.org" = true ∧
      assertSessionContext (platform n) context tenant = .ok () := by
  subst hn
  decide +kernel

theorem parent_new (hn : n = 2001) : (started n).binding (parent n).bindingRef = none := (started_entries hn).2.2.1

theorem putBinding_parent (hn : n = 2001) :
    putBinding (platform n) (started n) (parent n) = .ok ((started n).setBinding (parent n)) := by
  obtain ⟨-, -, -, howned, -⟩ := started_entries hn
  rw [putBinding, normalizeBinding_parent (by omega)]
  simp only [bind, Except.bind, howned, parent_new hn]
  rfl

theorem vault_eq (hn : n = 2001) : vault n = (started n).setBinding (parent n) := by
  have hcalls : vault n = administered (platform n) (started n) (.putBinding (parent n)) := by
    rw [vault, calls, started]
    simp only [List.foldl_cons, List.foldl_nil]
  rw [hcalls, administered, administer, putBinding_parent hn]

theorem vault_bindings (hn : n = 2001) : (vault n).bindings = [site, parent n] := by
  have hbindings : ((started n).setBinding (parent n)).bindings = (started n).bindings ++ [parent n] := by
    rw [VaultState.setBinding, dif_pos (parent_new hn)]
  obtain ⟨-, hstarted, -⟩ := started_entries hn
  rw [vault_eq hn, hbindings, hstarted]
  rfl

theorem vault_credential (hn : n = 2001) : (vault n).credential credential = some stored := by
  have hcredentials : ((started n).setBinding (parent n)).credentials = (started n).credentials := by
    rw [VaultState.setBinding, dif_pos (parent_new hn)]
  obtain ⟨hstarted, -, -, -, hfound, -⟩ := started_entries hn
  rw [VaultState.credential, vault_eq hn, hcredentials, hstarted]
  exact hfound

theorem matches_site (hn : n = 2001) : Matches (platform n) (vault n) (request n) (url n) context site := by
  obtain ⟨-, -, -, -, -, hhost, -⟩ := started_entries hn
  refine ⟨?_, rfl, rfl, ⟨stored, vault_credential hn, rfl, rfl⟩, ?_, ⟨.https, List.mem_cons_self, rfl⟩, ?_, ?_, rfl, hhost, rfl⟩
  · rw [vault_bindings hn]
    exact List.mem_cons_self
  · exact List.mem_cons_self
  · exact List.mem_cons_self
  · exact List.mem_cons_self

theorem matches_parent (hn : n = 2001) : Matches (platform n) (vault n) (request n) (url n) context (parent n) := by
  obtain ⟨-, -, -, -, -, -, hhost, -⟩ := started_entries hn
  refine ⟨?_, rfl, rfl, ⟨stored, vault_credential hn, rfl, rfl⟩, ?_, ⟨.https, List.mem_cons_self, rfl⟩, ?_, ?_, rfl, hhost,
    pathMatches_self (path n)⟩
  · rw [vault_bindings hn]
    exact List.mem_cons_of_mem _ List.mem_cons_self
  · exact List.mem_cons_self
  · exact List.mem_cons_self
  · exact List.mem_cons_self

theorem site_before (n : ℕ) : ComesBefore site (parent n) := by
  obtain ⟨-, -, -, -, -, -, -, -, -, hshort, hlong⟩ := fields_pass
  have hless : textLength "org" < textLength "x.org" := by omega
  exact .inr ⟨rfl, .inl hless⟩

theorem site_first (hn : n = 2001) : ComesFirst (platform n) (vault n) (request n) (url n) context site := by
  refine ⟨matches_site hn, fun other hother hbefore => ?_⟩
  have hstored := hother.stored
  have hsite := site_before n
  rw [vault_bindings hn] at hstored
  rcases List.mem_cons.mp hstored with rfl | hstored
  · unfold ComesBefore at hbefore
    omega
  · rw [List.mem_singleton.mp hstored] at hbefore
    unfold ComesBefore at hbefore hsite
    omega

theorem specificity_suffix {binding : CredentialBinding} (hkind : binding.host.kind = .suffix) :
    specificity binding = textLength binding.host.value * 1000 + textLength binding.pathPrefix := by
  rw [specificity, hkind]

theorem specificity_parent (n : ℕ) : specificity (parent n) = 3001 + n := by
  obtain ⟨-, -, -, -, -, -, -, -, -, hshort, -⟩ := fields_pass
  have hhost : textLength (parent n).host.value = 3 := hshort
  have hlength : textLength (parent n).pathPrefix = n + 1 := textLength_path n
  rw [specificity_suffix rfl, hhost, hlength]
  omega

theorem parent_outweighs (hn : n = 2001) : ¬ NotOutweighed (platform n) (vault n) (request n) (url n) context := by
  intro hfair
  have hless := hfair site (site_first hn) (parent n) (matches_parent hn) (site_before n)
  obtain ⟨-, -, -, -, -, -, -, -, -, -, hlong⟩ := fields_pass
  have hsite : specificity site = 5001 := by
    rw [specificity_suffix rfl, show textLength site.host.value = 5 from hlong]
    rfl
  rw [specificity_parent, hsite] at hless
  omega

theorem selected_owned (hn : n = 2001) {selected : CredentialBinding}
    (hmatches : Matches (platform n) (vault n) (request n) (url n) context selected) :
    ownedCredential (platform n) (vault n) context.subjectId selected.credentialRef = .ok stored := by
  have hreference : selected.credentialRef = credential := by
    have hstored := hmatches.stored
    rw [vault_bindings hn] at hstored
    rcases List.mem_cons.mp hstored with rfl | hstored
    · rfl
    · rw [List.mem_singleton.mp hstored]
      rfl
  have hsubject : uuid (platform n) context.subjectId = .ok subject := uuid_ok n subject
  rw [hreference, ownedCredential, hsubject, uuid_ok]
  simp only [bind, Except.bind, vault_credential hn]
  rfl

theorem session_answers (hn : n = 2001) :
    ∃ answer, sessionMatch (platform n) tenant (vault n) (request n) context = .ok answer := by
  obtain ⟨-, -, -, -, -, -, -, hcontext⟩ := started_entries hn
  have hcandidates : matchingBindings (platform n) (vault n) (request n) context =
      .ok (ranked (platform n) (vault n) (request n) (url n) context) := by
    rw [matchingBindings, if_neg (by simp [request]), parseUrl_request]
    rfl
  unfold sessionMatch
  rw [hcontext, normalized_request (by omega)]
  simp only [bind, Except.bind, hcandidates]
  cases hranked : ranked (platform n) (vault n) (request n) (url n) context with
  | nil => exact ⟨_, rfl⟩
  | cons selected rest =>
    have hselected : Matches (platform n) (vault n) (request n) (url n) context selected :=
      mem_ranked.mp (hranked ▸ List.mem_cons_self)
    simp only [selected_owned hn hselected]
    split
    · exact ⟨_, rfl⟩
    · exact ⟨_, rfl⟩

theorem session_not_first (hn : n = 2001) {answer : VaultMatch}
    (h : sessionMatch (platform n) tenant (vault n) (request n) context = .ok answer) :
    ¬ SelectsFirst (platform n) (vault n) (request n) (url n) context answer := by
  have hrooted := rooted_administered (platform n) (calls n)
  have hfair := parent_outweighs hn
  intro hselects
  cases sessionMatch_cases (normalized_request (by omega)) (parseUrl_request n) h with
  | none hnone => exact hnone site (matches_site hn)
  | ambiguous selected rest hranked htied => exact hfair ((ambiguous_iff hrooted hranked htied).1 hselects)
  | matched selected rest credentialRef version hranked hone => exact hfair ((matched_iff hrooted hranked hone).1 hselects)

end LongPath

end AvenOS.HttpResources
