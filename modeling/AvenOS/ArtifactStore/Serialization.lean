import AvenOS.ArtifactStore.CanonicalRoundTrip
import AvenOS.ArtifactStore.Contract

/-! # What serialization keeps

A protocol value is written and read back as Artifact JSON. What is read back determines the value: the
members of an object are found under their keys, whatever their order. -/
namespace AvenOS.ArtifactStore
open Json OrderedEntries

namespace CanonicalTree

/-- What is read back of the compact text of a tree. -/
def parsed (tree : CanonicalTree) : Option CanonicalTree := visit tree.docOf

variable {values : List CanonicalTree} {first : Doc} {entries : List (String × CanonicalTree)} {value : CanonicalTree}

theorem parsed_items {results : List CanonicalTree} (h : visitSeq (itemsOf first values) = some results) :
    ∃ result rest, results = result :: rest ∧ visit first = some result ∧
      List.Forall₂ (fun value result => value.parsed = some result) values rest := by
  induction values generalizing first results with
  | nil =>
    obtain ⟨result, hresult, rfl⟩ := Option.map_eq_some_iff.mp h
    exact ⟨result, [], rfl, hresult, .nil⟩
  | cons value values ih =>
    obtain ⟨result, hresult, h⟩ := Option.bind_eq_some_iff.mp h
    obtain ⟨more, hmore, rfl⟩ := Option.map_eq_some_iff.mp h
    obtain ⟨next, rest, rfl, hnext, hrest⟩ := ih hmore
    exact ⟨result, next :: rest, rfl, hresult, .cons hnext hrest⟩

variable {tree : CanonicalTree} {members : List (String × CanonicalTree)} {key : String}

theorem parsed_array (h : (array values).parsed = some tree) : ∃ results, tree = array results ∧
      List.Forall₂ (fun value result => value.parsed = some result) values results := by
  cases values with
  | nil =>
    cases h
    exact ⟨[], rfl, .nil⟩
  | cons value values =>
    rw [parsed, docOf, visit] at h
    obtain ⟨results, hresults, rfl⟩ := Option.map_eq_some_iff.mp h
    obtain ⟨result, rest, rfl, hresult, hrest⟩ := parsed_items hresults
    exact ⟨_, rfl, .cons hresult hrest⟩

/-- The members of an object and what is read back of them. -/
def ParsedEach (members entries : List (String × CanonicalTree)) : Prop :=
  List.Forall₂ (fun member entry => member.1 = entry.1 ∧ member.2.parsed = some entry.2) members entries

theorem parsed_members (h : visitEntries (membersOf key first members).entries = some entries) :
    ∃ value rest, entries = (key, value) :: rest ∧ visit first = some value ∧ ParsedEach members rest := by
  induction members generalizing key first entries with
  | nil =>
    rw [membersOf, Members.entries, visitEntries, stringOf_quotedPieces, Option.bind_some] at h
    obtain ⟨value, hvalue, h⟩ := Option.bind_eq_some_iff.mp h
    cases h
    exact ⟨value, [], rfl, hvalue, .nil⟩
  | cons member members ih =>
    obtain ⟨next, tree⟩ := member
    rw [membersOf, Members.entries, visitEntries, stringOf_quotedPieces, Option.bind_some] at h
    obtain ⟨value, hvalue, h⟩ := Option.bind_eq_some_iff.mp h
    obtain ⟨more, hmore, rfl⟩ := Option.map_eq_some_iff.mp h
    obtain ⟨other, rest, rfl, hother, hrest⟩ := ih hmore
    exact ⟨value, (next, other) :: rest, rfl, hvalue, .cons ⟨rfl, hother⟩ hrest⟩

theorem parsed_object (h : (object members).parsed = some tree) :
    ∃ entries sorted, tree = object sorted ∧ ParsedEach members entries ∧ entries.Perm sorted ∧ Ordered sorted := by
  rcases members with - | ⟨⟨key, value⟩, members⟩
  · cases h
    exact ⟨[], [], rfl, .nil, .refl _, ordered_nil⟩
  · rw [parsed, docOf, visit, visitMap_entries] at h
    obtain ⟨sorted, hsorted, rfl⟩ := Option.map_eq_some_iff.mp h
    obtain ⟨entries, hentries, hinsert⟩ := Option.bind_eq_some_iff.mp hsorted
    obtain ⟨result, rest, rfl, hresult, hrest⟩ := parsed_members hentries
    obtain ⟨hperm, hordered⟩ := (insertAll_iff ordered_nil).mp hinsert
    exact ⟨(key, result) :: rest, sorted, rfl, .cons ⟨rfl, hresult⟩ hrest, hperm, hordered⟩

theorem ParsedEach.mem (h : ParsedEach members entries) (hmem : (key, value) ∈ members) :
    ∃ result, (key, result) ∈ entries ∧ value.parsed = some result := by
  induction h with
  | nil => cases hmem
  | @cons member entry _ _ hhead _ ih =>
    rcases List.mem_cons.mp hmem with rfl | htail
    · exact ⟨entry.2, List.mem_cons.mpr (.inl (Prod.ext hhead.1 rfl)), hhead.2⟩
    · obtain ⟨result, hresult, hvalue⟩ := ih htail
      exact ⟨result, List.mem_cons_of_mem _ hresult, hvalue⟩

theorem parsed_lookup {others : List (String × CanonicalTree)} (h : (object members).parsed = some tree)
    (h' : (object others).parsed = some tree) {other : CanonicalTree} (hmem : (key, value) ∈ members)
    (hmem' : (key, other) ∈ others) : ∃ result, value.parsed = some result ∧ other.parsed = some result := by
  obtain ⟨entries, sorted, rfl, heach, hperm, hordered⟩ := parsed_object h
  obtain ⟨entries', sorted', hsame, heach', hperm', -⟩ := parsed_object h'
  cases hsame
  obtain ⟨result, hresult, hvalue⟩ := heach.mem hmem
  obtain ⟨result', hresult', hother⟩ := heach'.mem hmem'
  have hentry : (key, result) = (key, result') := List.inj_on_of_nodup_map hordered.nodup
    (hperm.mem_iff.mp hresult) (hperm'.mem_iff.mp hresult') rfl
  cases hentry
  exact ⟨result, hvalue, hother⟩

mutual

theorem parsed_sorted (tree : CanonicalTree) (hsorted : tree.Sorted) {result : CanonicalTree}
    (h : tree.parsed = some result) : result = tree := by
  cases tree with
  | null | bool => exact (Option.some.inj h).symm
  | integer value => exact visitNumber_integerText_some h
  | string value =>
    rw [parsed, visit_docOf (.string value) trivial trivial] at h
    exact (Option.some.inj h).symm
  | array values =>
    obtain ⟨results, rfl, hresults⟩ := parsed_array h
    rw [parsedAll_sorted values hsorted hresults]
  | object members =>
    obtain ⟨entries, sorted, rfl, heach, hperm, hordered⟩ := parsed_object h
    rw [parsedEach_sorted members hsorted.2 heach] at hperm
    rw [Ordered.eq_of_perm hordered hsorted.1 hperm.symm]

theorem parsedAll_sorted (values : List CanonicalTree) (hsorted : SortedAll values)
    {results : List CanonicalTree}
    (h : List.Forall₂ (fun value result => value.parsed = some result) values results) : results = values := by
  cases values with
  | nil => cases h; rfl
  | cons value values =>
    cases h with
    | cons hhead htail =>
      rw [parsed_sorted value hsorted.1 hhead, parsedAll_sorted values hsorted.2 htail]

theorem parsedEach_sorted (members : List (String × CanonicalTree)) (hsorted : SortedEach members)
    {entries : List (String × CanonicalTree)} (h : ParsedEach members entries) : entries = members := by
  cases members with
  | nil => cases h; rfl
  | cons member members =>
    cases h with
    | cons hhead htail =>
      obtain ⟨key, value⟩ := member
      rw [parsedEach_sorted members hsorted.2 htail]
      exact congrArg (· :: members) (Prod.ext hhead.1.symm (parsed_sorted value hsorted.1 hhead.2))

end

end CanonicalTree

/-! ## Values that are kept -/

/-- What is read back of a value determines it. -/
def Faithful {α : Type} (serialize : α → CanonicalTree) : Prop :=
  ∀ (one other : α) (tree : CanonicalTree), (serialize one).parsed = some tree →
    (serialize other).parsed = some tree → one = other

namespace Faithful
variable {α : Type} {serialize : α → CanonicalTree}

theorem field (hserialize : Faithful serialize) (i : ℕ) {members others : List (String × CanonicalTree)}
    {tree : CanonicalTree} (h : (CanonicalTree.object members).parsed = some tree)
    (h' : (CanonicalTree.object others).parsed = some tree) {key : String} {one other : α}
    (hone : members[i]? = some (key, serialize one))
    (hother : others[i]? = some (key, serialize other)) : one = other := by
  obtain ⟨result, hread, hread'⟩ := CanonicalTree.parsed_lookup h h' (List.mem_of_getElem? hone)
    (List.mem_of_getElem? hother)
  exact hserialize _ _ _ hread hread'

theorem string : Faithful CanonicalTree.string := by
  intro one other tree h h'
  have hread : ∀ text, (CanonicalTree.string text).parsed = some (.string text) := fun text =>
    CanonicalTree.visit_docOf (.string text) trivial trivial
  rw [hread] at h h'
  cases h
  cases h'
  rfl

theorem integer : Faithful CanonicalTree.integer := by
  intro one other tree h h'
  rw [CanonicalTree.visitNumber_integerText_some h] at h'
  exact CanonicalTree.integer.inj (CanonicalTree.visitNumber_integerText_some h')

theorem comp {β : Type} (hserialize : Faithful serialize) {f : β → α} (hf : Function.Injective f) :
    Faithful fun value => serialize (f value) := fun _ _ _ h h' => hf (hserialize _ _ _ h h')

theorem list (hserialize : Faithful serialize) : Faithful (serializeList serialize) := by
  intro one other tree h h'
  obtain ⟨results, rfl, hresults⟩ := CanonicalTree.parsed_array h
  obtain ⟨results', hsame, hresults'⟩ := CanonicalTree.parsed_array h'
  cases hsame
  clear h h'
  rw [List.forall₂_map_left_iff] at hresults hresults'
  induction hresults generalizing other with
  | nil => cases hresults'; rfl
  | cons hhead _ ih =>
    cases hresults' with
    | cons hhead' hrest' => rw [hserialize _ _ _ hhead hhead', ih _ hrest']

theorem option (hserialize : Faithful serialize) (hnull : ∀ value, (serialize value).parsed ≠ some .null) :
    Faithful (serializeOption serialize) := by
  intro one other tree h h'
  cases one <;> cases other
  case none.none => rfl
  case some.some => exact congrArg some (hserialize _ _ _ h h')
  case none.some value =>
    cases h
    exact absurd h' (hnull value)
  case some.none value =>
    cases h'
    exact absurd h (hnull value)

theorem object_not_null (members : List (String × CanonicalTree)) :
    (CanonicalTree.object members).parsed ≠ some .null := by
  intro h
  obtain ⟨entries, sorted, hsorted, -⟩ := CanonicalTree.parsed_object h
  cases hsorted

theorem uint32 : Faithful serializeUInt32 := integer.comp fun _ _ h => UInt32.toNat_inj.mp (Int.ofNat.inj h)

theorem uint64 : Faithful serializeUInt64 := integer.comp fun _ _ h => UInt64.toNat_inj.mp (Int.ofNat.inj h)

theorem uuid : Faithful Uuid.serialize := string.comp fun one other h => by cases one; cases other; cases h; rfl

theorem localKey : Faithful LocalKey.serialize := string.comp fun one other h => by cases one; cases other; cases h; rfl

theorem role : Faithful Role.serialize := string.comp fun one other h => by cases one; cases other; cases h; rfl

theorem typeKey : Faithful TypeKey.serialize := string.comp fun one other h => by cases one; cases other; cases h; rfl

theorem value : Faithful CanonicalValue.serialize := fun one other _ h h' =>
  CanonicalValue.ext ((CanonicalTree.parsed_sorted one.tree one.sorted h).symm.trans
    (CanonicalTree.parsed_sorted other.tree other.sorted h'))

theorem publisher : Faithful StablePublisher.serialize := by
  intro one other tree h h'
  obtain ⟨issuer, subject⟩ := one
  obtain ⟨issuer', subject'⟩ := other
  have hissuer : issuer = issuer' := string.field 0 h h' rfl rfl
  have hsubject : subject = subject' := string.field 1 h h' rfl rfl
  rw [hissuer, hsubject]

theorem actor : Faithful Actor.serialize := by
  intro one other tree h h'
  obtain ⟨kind, id⟩ := one
  obtain ⟨kind', id'⟩ := other
  have hkind : kind = kind' := typeKey.field 0 h h' rfl rfl
  have hid : id = id' := string.field 1 h h' rfl rfl
  rw [hkind, hid]

theorem blobPolicy : Faithful BlobPolicy.serialize := string.comp fun one other h => by
    cases one <;> cases other <;> first | rfl | exact absurd h (by decide)

theorem exactType : Faithful ExactType.serialize := by
  intro one other tree h h'
  obtain ⟨key, version⟩ := one
  obtain ⟨key', version'⟩ := other
  have hkey : key = key' := typeKey.field 0 h h' rfl rfl
  have hversion : version = version' := uint32.field 1 h h' rfl rfl
  rw [hkey, hversion]

theorem targetTypes : Faithful AllowedTargetTypes.serialize := by
  intro one other tree h h'
  cases one <;> cases other
  case any.any => rfl
  case exact.exact types types' =>
    have htypes : types = types' := exactType.list.field 1 h h' rfl rfl
    rw [htypes]
  all_goals exact absurd (string.field 0 h h' rfl rfl) (by decide)

theorem referenceRule : Faithful ReferenceRule.serialize := by
  intro one other tree h h'
  obtain ⟨name, low, high, types, schema⟩ := one
  obtain ⟨name', low', high', types', schema'⟩ := other
  have hname : name = name' := role.field 0 h h' rfl rfl
  have hlow : low = low' := uint32.field 1 h h' rfl rfl
  have hhigh : high = high' := uint32.field 2 h h' rfl rfl
  have htypes : types = types' := targetTypes.field 3 h h' rfl rfl
  have hschema : schema = schema' := value.field 4 h h' rfl rfl
  rw [hname, hlow, hhigh, htypes, hschema]

theorem typeDefinition : Faithful TypeDefinition.serialize := by
  intro one other tree h h'
  obtain ⟨key, version, profile, schema, policy, rules⟩ := one
  obtain ⟨key', version', profile', schema', policy', rules'⟩ := other
  have hkey : key = key' := typeKey.field 0 h h' rfl rfl
  have hversion : version = version' := uint32.field 1 h h' rfl rfl
  have hprofile : profile = profile' := string.field 2 h h' rfl rfl
  have hschema : schema = schema' := value.field 3 h h' rfl rfl
  have hpolicy : policy = policy' := blobPolicy.field 4 h h' rfl rfl
  have hrules : rules = rules' := referenceRule.list.field 5 h h' rfl rfl
  rw [hkey, hversion, hprofile, hschema, hpolicy, hrules]

theorem declaredBlob : Faithful DeclaredBlob.serialize := by
  intro one other tree h h'
  obtain ⟨digest, length⟩ := one
  obtain ⟨digest', length'⟩ := other
  have hdigest : digest = digest' := string.field 0 h h' rfl rfl
  have hlength : length = length' := uint64.field 1 h h' rfl rfl
  rw [hdigest, hlength]

theorem optionalBlob : Faithful (serializeOption DeclaredBlob.serialize) :=
  declaredBlob.option fun _ => object_not_null _

theorem target : Faithful ReferenceTarget.serialize := by
  intro one other tree h h'
  cases one <;> cases other
  case existing.existing id id' =>
    have hid : id = id' := uuid.field 1 h h' rfl rfl
    rw [hid]
  case «local».«local» key key' =>
    have hkey : key = key' := localKey.field 1 h h' rfl rfl
    rw [hkey]
  all_goals exact absurd (string.field 0 h h' rfl rfl) (by decide)

theorem reference : Faithful ReferenceIntent.serialize := by
  intro one other tree h h'
  obtain ⟨name, ordinal, aim, attributes⟩ := one
  obtain ⟨name', ordinal', aim', attributes'⟩ := other
  have hname : name = name' := role.field 0 h h' rfl rfl
  have hordinal : ordinal = ordinal' := uint32.field 1 h h' rfl rfl
  have haim : aim = aim' := target.field 2 h h' rfl rfl
  have hattributes : attributes = attributes' := value.field 3 h h' rfl rfl
  rw [hname, hordinal, haim, hattributes]

theorem output : Faithful OutputBinding.serialize := by
  intro one other tree h h'
  obtain ⟨name, ordinal⟩ := one
  obtain ⟨name', ordinal'⟩ := other
  have hname : name = name' := role.field 0 h h' rfl rfl
  have hordinal : ordinal = ordinal' := uint32.field 1 h h' rfl rfl
  rw [hname, hordinal]

theorem optionalOutput : Faithful (serializeOption OutputBinding.serialize) := output.option fun _ => object_not_null _

theorem artifact : Faithful IntentArtifact.serialize := by
  intro one other tree h h'
  obtain ⟨label, key, version, payload, blob, references, binding⟩ := one
  obtain ⟨label', key', version', payload', blob', references', binding'⟩ := other
  have hlabel : label = label' := localKey.field 0 h h' rfl rfl
  have hkey : key = key' := typeKey.field 1 h h' rfl rfl
  have hversion : version = version' := uint32.field 2 h h' rfl rfl
  have hpayload : payload = payload' := value.field 3 h h' rfl rfl
  have hblob : blob = blob' := optionalBlob.field 4 h h' rfl rfl
  have hreferences : references = references' := reference.list.field 5 h h' rfl rfl
  have hbinding : binding = binding' := optionalOutput.field 6 h h' rfl rfl
  rw [hlabel, hkey, hversion, hpayload, hblob, hreferences, hbinding]

theorem runInput : Faithful RunInput.serialize := by
  intro one other tree h h'
  obtain ⟨name, ordinal, id⟩ := one
  obtain ⟨name', ordinal', id'⟩ := other
  have hname : name = name' := role.field 0 h h' rfl rfl
  have hordinal : ordinal = ordinal' := uint32.field 1 h h' rfl rfl
  have hid : id = id' := uuid.field 2 h h' rfl rfl
  rw [hname, hordinal, hid]

theorem run : Faithful RunIntent.serialize := by
  intro one other tree h h'
  obtain ⟨procedure, version, initiator, executor, inputs, parameters, implementation, receipt⟩ := one
  obtain ⟨procedure', version', initiator', executor', inputs', parameters', implementation', receipt'⟩ := other
  have hprocedure : procedure = procedure' := typeKey.field 0 h h' rfl rfl
  have hversion : version = version' := string.field 1 h h' rfl rfl
  have hinitiator : initiator = initiator' := actor.field 2 h h' rfl rfl
  have hexecutor : executor = executor' := actor.field 3 h h' rfl rfl
  have hinputs : inputs = inputs' := runInput.list.field 4 h h' rfl rfl
  have hparameters : parameters = parameters' := value.field 5 h h' rfl rfl
  have himplementation : implementation = implementation' := value.field 6 h h' rfl rfl
  have hreceipt : receipt = receipt' := value.field 7 h h' rfl rfl
  rw [hprocedure, hversion, hinitiator, hexecutor, hinputs, hparameters, himplementation, hreceipt]

theorem locator : Faithful Locator.serialize := by
  intro one other tree h h'
  cases one <;> cases other
  case artifactRoot.artifactRoot => rfl
  case jsonPointer.jsonPointer pointer pointer' =>
    have hpointer : pointer = pointer' := string.field 1 h h' rfl rfl
    rw [hpointer]
  case byteRange.byteRange start stop start' stop' =>
    have hstart : start = start' := uint64.field 1 h h' rfl rfl
    have hstop : stop = stop' := uint64.field 2 h h' rfl rfl
    rw [hstart, hstop]
  case pageRegion.pageRegion page x y width height page' x' y' width' height' =>
    have hpage : page = page' := uint32.field 1 h h' rfl rfl
    have hx : x = x' := uint32.field 2 h h' rfl rfl
    have hy : y = y' := uint32.field 3 h h' rfl rfl
    have hwidth : width = width' := uint32.field 4 h h' rfl rfl
    have hheight : height = height' := uint32.field 5 h h' rfl rfl
    rw [hpage, hx, hy, hwidth, hheight]
  all_goals exact absurd (string.field 0 h h' rfl rfl) (by decide)

theorem evidence : Faithful EvidenceIntent.serialize := by
  intro one other tree h h'
  obtain ⟨ordinal, label, place, name, position, origin⟩ := one
  obtain ⟨ordinal', label', place', name', position', origin'⟩ := other
  have hordinal : ordinal = ordinal' := uint32.field 0 h h' rfl rfl
  have hlabel : label = label' := localKey.field 1 h h' rfl rfl
  have hplace : place = place' := locator.field 2 h h' rfl rfl
  have hname : name = name' := role.field 3 h h' rfl rfl
  have hposition : position = position' := uint32.field 4 h h' rfl rfl
  have horigin : origin = origin' := locator.field 5 h h' rfl rfl
  rw [hordinal, hlabel, hplace, hname, hposition, horigin]

theorem intent : Faithful PublicationIntent.serialize := by
  intro one other tree h h'
  obtain ⟨version, id, scope, body, artifacts, evidences⟩ := one
  obtain ⟨version', id', scope', body', artifacts', evidences'⟩ := other
  cases body <;> cases body'
  case roots.roots root root' =>
    have hversion : version = version' := uint32.field 0 h h' rfl rfl
    have hid : id = id' := uuid.field 1 h h' rfl rfl
    have hscope : scope = scope' := uuid.field 2 h h' rfl rfl
    have hroot : root = root' := actor.field 4 h h' rfl rfl
    have hartifacts : artifacts = artifacts' := artifact.list.field 5 h h' rfl rfl
    have hevidence : evidences = evidences' := evidence.list.field 6 h h' rfl rfl
    rw [hversion, hid, hscope, hroot, hartifacts, hevidence]
  case run.run body body' =>
    have hversion : version = version' := uint32.field 0 h h' rfl rfl
    have hid : id = id' := uuid.field 1 h h' rfl rfl
    have hscope : scope = scope' := uuid.field 2 h h' rfl rfl
    have hbody : body = body' := run.field 4 h h' rfl rfl
    have hartifacts : artifacts = artifacts' := artifact.list.field 5 h h' rfl rfl
    have hevidence : evidences = evidences' := evidence.list.field 6 h h' rfl rfl
    rw [hversion, hid, hscope, hbody, hartifacts, hevidence]
  all_goals exact absurd (string.field 3 h h' rfl rfl) (by decide)

end Faithful

end AvenOS.ArtifactStore
