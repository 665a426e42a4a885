import AvenOS.ArtifactStore.Serialization

/-! # Digests

What is hashed is a domain and the canonical bytes of a value. What a protocol value serializes to is
written, read back as Artifact JSON and hashed in its one form. -/
namespace AvenOS.ArtifactStore
open Json OrderedEntries

def typeDomain : String := "artifact-store/type-definition/v1\x00"
def artifactDomain : String := "artifact-store/artifact/v1\x00"
def publicationDomain : String := "artifact-store/publication-request/v1\x00"

def hexEncode (bytes : ByteArray) : String :=
  String.ofList (bytes.data.toList.flatMap fun byte =>
    [Nat.digitChar (byte.toNat / 16), Nat.digitChar (byte.toNat % 16)])

/-- `serde_json::to_vec`: compact text, the members in the order they are given. -/
def toVec (tree : CanonicalTree) : ByteArray := (String.ofList tree.writeCanonical).toUTF8

def canonicalFrom (tree : CanonicalTree) : Except CanonicalError CanonicalValue :=
  parseCanonical (toVec tree) true

section Hash
variable (sha256 : ByteArray → ByteArray)

def sha256Hex (bytes : ByteArray) : String := hexEncode (sha256 bytes)

def domainHash (domain : String) (canonical : CanonicalValue) : String :=
  hexEncode (sha256 (domain.toUTF8 ++ canonical.canonicalBytes))

def typeDefinitionDigest (definition : TypeDefinition) : Except CanonicalError String :=
  (canonicalFrom definition.serialize).map (domainHash sha256 typeDomain)

def artifactDigest (preimage : CanonicalValue) : String := domainHash sha256 artifactDomain preimage

def requestEnvelope (publisher : StablePublisher) (intent : PublicationIntent) : CanonicalTree :=
  .object [("publisher", publisher.serialize), ("intent", intent.serialize)]

def publicationRequestDigest (publisher : StablePublisher) (intent : PublicationIntent) :
    Except CanonicalError String :=
  (canonicalFrom (requestEnvelope publisher intent)).map (domainHash sha256 publicationDomain)

end Hash

/-! ## Hexadecimal text -/

theorem digitChar_injective : ∀ m < 16, ∀ n < 16, Nat.digitChar m = Nat.digitChar n → m = n := by
  decide

theorem hexDigits_injective : ∀ {one other : List UInt8},
    (one.flatMap fun byte => [Nat.digitChar (byte.toNat / 16), Nat.digitChar (byte.toNat % 16)]) =
      (other.flatMap fun byte => [Nat.digitChar (byte.toNat / 16), Nat.digitChar (byte.toNat % 16)]) →
    one = other
  | [], [], _ => rfl
  | [], _ :: _, h => by cases h
  | _ :: _, [], h => by cases h
  | byte :: one, byte' :: other, h => by
    simp only [List.flatMap_cons, List.cons_append, List.nil_append, List.cons.injEq] at h
    obtain ⟨hhigh, hlow, hrest⟩ := h
    have hbyte := byte.toNat_lt
    have hbyte' := byte'.toNat_lt
    have hquotient := digitChar_injective _ (by omega) _ (by omega) hhigh
    have hremainder := digitChar_injective _ (by omega) _ (by omega) hlow
    have hsame : byte = byte' := UInt8.toNat_inj.mp (by omega)
    rw [hsame, hexDigits_injective hrest]

theorem hexEncode_injective : Function.Injective hexEncode := by
  intro one other h
  have hdigits := congrArg String.toList h
  rw [hexEncode, hexEncode, String.toList_ofList, String.toList_ofList] at hdigits
  exact ByteArray.ext (Array.toList_inj.mp (hexDigits_injective hdigits))

/-! ## Domains -/

theorem domain_canonicalBytes (domain : String) (value : CanonicalValue) : domain.toUTF8 ++ value.canonicalBytes =
      (String.ofList (domain.toList ++ value.tree.writeCanonical)).toUTF8 := by
  rw [CanonicalValue.canonicalBytes, String.ofList_append, String.ofList_toList]
  simp

def domains : List String := [typeDomain, artifactDomain, publicationDomain]

theorem domains_apart : ∀ domain ∈ domains, ∀ domain' ∈ domains,
    domain.toList.take 16 = domain'.toList.take 16 → domain = domain' := by
  decide

theorem domains_length : ∀ domain ∈ domains, 16 ≤ domain.toList.length := by decide

variable {domain domain' digest digest' : String} {sha256 : ByteArray → ByteArray} {value value' : CanonicalValue}

theorem domain_eq (hdomain : domain ∈ domains) (hdomain' : domain' ∈ domains) {text text' : Text}
    (h : domain.toList ++ text = domain'.toList ++ text') : domain = domain' := by
  refine domains_apart domain hdomain domain' hdomain' ?_
  have htake := congrArg (List.take 16) h
  rwa [List.take_append_of_le_length (domains_length domain hdomain),
    List.take_append_of_le_length (domains_length domain' hdomain')] at htake

theorem domainHash_eq (hsha : Function.Injective sha256) (hdomain : domain ∈ domains) (hdomain' : domain' ∈ domains) :
    domainHash sha256 domain value = domainHash sha256 domain' value' ↔ domain = domain' ∧ value = value' := by
  refine ⟨fun h => ?_, fun ⟨h, h'⟩ => by rw [h, h']⟩
  have hbytes := hsha (hexEncode_injective h)
  rw [domain_canonicalBytes, domain_canonicalBytes] at hbytes
  have htext := toUTF8_injective hbytes
  have hsame := domain_eq hdomain hdomain' htext
  rw [hsame, List.append_cancel_left_eq] at htext
  exact ⟨hsame, CanonicalValue.ext (writeCanonical_injective htext)⟩

theorem sha256Hex_eq (hsha : Function.Injective sha256) :
    sha256Hex sha256 value.canonicalBytes = sha256Hex sha256 value'.canonicalBytes ↔ value = value' :=
  ⟨fun h => canonicalBytes_injective (hsha (hexEncode_injective h)), fun h => by rw [h]⟩

/-! ## Digests of protocol values -/

theorem canonicalFrom_parsed {tree : CanonicalTree} (h : canonicalFrom tree = .ok value) :
    tree.parsed = some value.tree := by
  have hread := (parseCanonical_ok.1 h).1
  rw [toVec, deserialize_text] at hread
  exact (Option.ite_none_right_eq_some.mp hread).2

theorem digest_eq {α : Type} {serialize : α → CanonicalTree} (hserialize : Faithful serialize)
    (hsha : Function.Injective sha256) (hdomain : domain ∈ domains) {one other : α}
    (h : (canonicalFrom (serialize one)).map (domainHash sha256 domain) = .ok digest)
    (h' : (canonicalFrom (serialize other)).map (domainHash sha256 domain) = .ok digest') :
    digest = digest' ↔ one = other := by
  cases hone : canonicalFrom (serialize one) with
  | error error => rw [hone] at h; cases h
  | ok value =>
    cases hother : canonicalFrom (serialize other) with
    | error error => rw [hother] at h'; cases h'
    | ok value' =>
      rw [hone] at h
      rw [hother] at h'
      cases h
      cases h'
      rw [domainHash_eq hsha hdomain hdomain]
      constructor
      · rintro ⟨-, rfl⟩
        exact hserialize _ _ _ (canonicalFrom_parsed hone) (canonicalFrom_parsed hother)
      · rintro rfl
        rw [hone] at hother
        exact ⟨rfl, Except.ok.inj hother⟩

theorem requestEnvelope_faithful :
    Faithful fun request : StablePublisher × PublicationIntent => requestEnvelope request.1 request.2 := by
  rintro ⟨publisher, intent⟩ ⟨publisher', intent'⟩ tree h h'
  have hpublisher : publisher = publisher' := Faithful.publisher.field 0 h h' rfl rfl
  have hintent : intent = intent' := Faithful.intent.field 1 h h' rfl rfl
  rw [hpublisher, hintent]

theorem publicationRequestDigest_eq (hsha : Function.Injective sha256) {publisher publisher' : StablePublisher}
    {intent intent' : PublicationIntent} (h : publicationRequestDigest sha256 publisher intent = .ok digest)
    (h' : publicationRequestDigest sha256 publisher' intent' = .ok digest') :
    digest = digest' ↔ publisher = publisher' ∧ intent = intent' := by
  have hdomain : publicationDomain ∈ domains := by decide
  have hsame : digest = digest' ↔ (publisher, intent) = (publisher', intent') :=
    digest_eq requestEnvelope_faithful hsha hdomain h h'
  rw [hsame, Prod.mk.injEq]

/-! ## One form for each value -/

/-- Values and their canonical bytes determine each other, and so do their digests. -/
theorem canonical_form {sha256 : ByteArray → ByteArray} (hsha : Function.Injective sha256) :
    (∀ (value : CanonicalValue) (requireObject : Bool), value.Readable →
      (requireObject = true → value.tree.isObject = true) →
        parseCanonical value.canonicalBytes requireObject = .ok value) ∧
    Function.Injective CanonicalValue.canonicalBytes ∧
    (∀ (one other : ByteArray) (requireObject requireObject' : Bool) (value value' : CanonicalValue),
      Respelled one other → parseCanonical one requireObject = .ok value →
        parseCanonical other requireObject' = .ok value' → value.canonicalBytes = value'.canonicalBytes) ∧
    (∀ (bytes : ByteArray) (requireObject : Bool) (value : CanonicalValue),
      parseCanonical bytes requireObject = .ok value →
        (parseCanonical value.canonicalBytes requireObject).map CanonicalValue.canonicalBytes =
          .ok value.canonicalBytes) ∧ (∀ value value' : CanonicalValue,
      sha256Hex sha256 value.canonicalBytes = sha256Hex sha256 value'.canonicalBytes ↔ value = value') ∧
    (∀ domain ∈ domains, ∀ domain' ∈ domains, ∀ value value' : CanonicalValue,
      domainHash sha256 domain value = domainHash sha256 domain' value' ↔ domain = domain' ∧ value = value') ∧
    (∀ (publisher publisher' : StablePublisher) (intent intent' : PublicationIntent)
      (digest digest' : String), publicationRequestDigest sha256 publisher intent = .ok digest →
        publicationRequestDigest sha256 publisher' intent' = .ok digest' →
          (digest = digest' ↔ publisher = publisher' ∧ intent = intent')) ∧
    (∀ (definition definition' : TypeDefinition) (digest digest' : String),
      typeDefinitionDigest sha256 definition = .ok digest →
        typeDefinitionDigest sha256 definition' = .ok digest' → (digest = digest' ↔ definition = definition')) ∧
    (∀ preimage preimage' : CanonicalValue,
      artifactDigest sha256 preimage = artifactDigest sha256 preimage' ↔ preimage = preimage') := by
  refine ⟨fun value requireObject hreadable hobject => parseCanonical_canonicalBytes hreadable hobject,
    canonicalBytes_injective, ?_, ?_, fun value value' => sha256Hex_eq hsha,
    fun domain hdomain domain' hdomain' value value' => domainHash_eq hsha hdomain hdomain',
    fun publisher publisher' intent intent' digest digest' h h' => publicationRequestDigest_eq hsha h h',
    fun definition definition' digest digest' h h' =>
      digest_eq Faithful.typeDefinition hsha (by decide) h h', ?_⟩
  · intro one other requireObject requireObject' value value' hrespelled h h'
    rw [parseCanonical_respelled hrespelled h h']
  · intro bytes requireObject value h
    rw [parseCanonical_canonicalBytes (parseCanonical_readable h) (parseCanonical_ok.1 h).2]
    rfl
  · intro preimage preimage'
    have hdomain : artifactDomain ∈ domains := by decide
    rw [artifactDigest, artifactDigest, domainHash_eq hsha hdomain hdomain, and_iff_right rfl]

def countedValue (n : ℤ) : CanonicalValue where
  tree := .object [("count", .integer n), ("name", .string "é")]
  sorted := by
    refine ⟨?_, trivial, trivial, trivial⟩
    rw [ordered_cons]
    refine ⟨fun other hother => ?_, List.pairwise_singleton _ _⟩
    rw [List.mem_singleton.mp hother]
    exact String.lt_iff_toList_lt.mpr (show "count".toList < "name".toList by decide)

theorem canonical_form_counted : parseCanonical (countedValue 3).canonicalBytes true = .ok (countedValue 3) ∧
      artifactDigest id (countedValue 3) ≠ artifactDigest id (countedValue 4) := by
  have hform := canonical_form Function.injective_id
  refine ⟨hform.1 _ true ?_ fun _ => rfl, ?_⟩
  · exact ⟨⟨⟨by decide, by decide⟩, trivial, trivial⟩, by decide⟩
  · intro h
    have hsame := (hform.2.2.2.2.2.2.2.2 _ _).mp h
    injection hsame with htree
    exact absurd htree (by simp)

end AvenOS.ArtifactStore
