import AvenOS.ArtifactStore.ArtifactJsonReader
import AvenOS.ArtifactStore.ArtifactJsonText

/-! # Two parsers of one profile

The client's parser accepts documents of a wider dialect than the store's: with a byte order mark, with
the white space of the script, with `-0`, with units that are no characters, and of any depth. On every
other input both accept the same, denote the same and write the same. -/
namespace AvenOS.ArtifactStore.Client
open Json OrderedEntries ExceptLoop

/-! ## The profile and what is plain in it -/

def keysOf (members : Members) : List (List ℕ) := members.entries.map fun entry => piecesUnits entry.1

mutual

/-- Numbers are safe integers without fraction and exponent, and keys are distinct. -/
def InProfile : Doc → Prop
  | .number token =>
    token.any isInexact = false ∧ -maxSafeInteger ≤ bigInt token ∧ bigInt token ≤ maxSafeInteger
  | .array items => ItemsInProfile items
  | .object members => MembersInProfile members ∧ (keysOf members).Nodup
  | _ => True

def ItemsInProfile : Items → Prop
  | .last _ doc _ => InProfile doc
  | .more _ doc _ rest => InProfile doc ∧ ItemsInProfile rest

def MembersInProfile : Members → Prop
  | .last _ _ _ _ doc _ => InProfile doc
  | .more _ _ _ _ doc _ rest => InProfile doc ∧ MembersInProfile rest

end

/-- The units of the string are those of characters. -/
def Paired (pieces : List Piece) : Prop := (decodeUtf16 (piecesUnits pieces)).isSome = true

mutual

/-- No number is `-0` and no unit of a string is alone. -/
def Plain : Doc → Prop
  | .number token => token.head? = some '-' → bigInt token ≠ 0
  | .string pieces => Paired pieces
  | .array items => ItemsPlain items
  | .object members => MembersPlain members
  | _ => True

def ItemsPlain : Items → Prop
  | .last _ doc _ => Plain doc
  | .more _ doc _ rest => Plain doc ∧ ItemsPlain rest

def MembersPlain : Members → Prop
  | .last _ key _ _ doc _ => Paired key ∧ Plain doc
  | .more _ key _ _ doc _ rest => Paired key ∧ Plain doc ∧ MembersPlain rest

end

def isObjectDoc : Doc → Bool
  | .emptyObject _ => true
  | .object _ => true
  | _ => false

/-! ## Documents that evaluate -/

variable {token : Text} {doc : Doc} {value : ArtifactJson} {tree : CanonicalTree} {pieces : List Piece}
  {members : List (List ℕ × ArtifactJson)} {entries : List (String × CanonicalTree)} {bytes : ByteArray}
  {requireObject : Bool}

theorem evaluateNumber_some {exact : ℤ} : evaluateNumber token = some exact ↔
      token.any isInexact = false ∧ -maxSafeInteger ≤ exact ∧ exact ≤ maxSafeInteger ∧ bigInt token = exact := by
  unfold evaluateNumber
  constructor
  · intro h
    split_ifs at h with hexact hrange
    cases h
    rw [not_or, not_lt, not_lt] at hrange
    exact ⟨by simpa using hexact, hrange.1, hrange.2, rfl⟩
  · rintro ⟨hexact, hlow, hhigh, rfl⟩
    rw [hexact, if_neg (by decide), if_neg (by omega)]

theorem evaluateMembers_keys (members : Members) {entries : List (List ℕ × ArtifactJson)}
    (h : evaluateMembers members = some entries) : entries.map Prod.fst = keysOf members := by
  match members with
  | .last before key middle start doc after =>
    obtain ⟨value, -, rfl⟩ := Option.map_eq_some_iff.mp h
    rfl
  | .more before key middle start doc after rest =>
    obtain ⟨value, -, hrest⟩ := Option.bind_eq_some_iff.mp h
    obtain ⟨others, hothers, rfl⟩ := Option.map_eq_some_iff.mp hrest
    rw [List.map_cons, evaluateMembers_keys rest hothers]
    rfl

mutual

theorem evaluate_iff (doc : Doc) : (∃ value, evaluate doc = some value) ↔ InProfile doc := by
  cases doc with
  | null | bool | string | emptyArray | emptyObject => exact ⟨fun _ => trivial, fun _ => ⟨_, rfl⟩⟩
  | number token =>
    constructor
    · rintro ⟨value, h⟩
      obtain ⟨exact, hexact, -⟩ := Option.map_eq_some_iff.mp h
      obtain ⟨hplain, hlow, hhigh, rfl⟩ := evaluateNumber_some.1 hexact
      exact ⟨hplain, hlow, hhigh⟩
    · rintro ⟨hplain, hlow, hhigh⟩
      have hexact := evaluateNumber_some.2 ⟨hplain, hlow, hhigh, rfl⟩
      exact ⟨.number (bigInt token), by rw [evaluate, hexact]; rfl⟩
  | array items =>
    have hitems := evaluateItems_iff items
    constructor
    · rintro ⟨value, h⟩
      obtain ⟨values, hvalues, -⟩ := Option.map_eq_some_iff.mp h
      exact hitems.mp ⟨values, hvalues⟩
    · intro h
      obtain ⟨values, hvalues⟩ := hitems.mpr h
      exact ⟨.array values, by rw [evaluate, hvalues]; rfl⟩
  | object members =>
    have hmembers := evaluateMembers_iff members
    constructor
    · rintro ⟨value, h⟩
      obtain ⟨entries, hentries, hfinal⟩ := Option.bind_eq_some_iff.mp h
      obtain ⟨hnodup, -⟩ := Option.ite_none_right_eq_some.mp hfinal
      rw [evaluateMembers_keys members hentries] at hnodup
      exact ⟨hmembers.mp ⟨entries, hentries⟩, hnodup⟩
    · rintro ⟨h, hnodup⟩
      obtain ⟨entries, hentries⟩ := hmembers.mpr h
      rw [← evaluateMembers_keys members hentries] at hnodup
      exact ⟨.object entries, by rw [evaluate, hentries, Option.bind_some, if_pos hnodup]⟩

theorem evaluateItems_iff (items : Items) : (∃ values, evaluateItems items = some values) ↔ ItemsInProfile items := by
  cases items with
  | last before doc after =>
    have hdoc := evaluate_iff doc
    constructor
    · rintro ⟨values, h⟩
      obtain ⟨value, hvalue, -⟩ := Option.map_eq_some_iff.mp h
      exact hdoc.mp ⟨value, hvalue⟩
    · intro h
      obtain ⟨value, hvalue⟩ := hdoc.mpr h
      exact ⟨[value], by rw [evaluateItems, hvalue]; rfl⟩
  | more before doc after rest =>
    have hdoc := evaluate_iff doc
    have hrest := evaluateItems_iff rest
    constructor
    · rintro ⟨values, h⟩
      obtain ⟨value, hvalue, hmore⟩ := Option.bind_eq_some_iff.mp h
      obtain ⟨others, hothers, -⟩ := Option.map_eq_some_iff.mp hmore
      exact ⟨hdoc.mp ⟨value, hvalue⟩, hrest.mp ⟨others, hothers⟩⟩
    · rintro ⟨h, hmore⟩
      obtain ⟨value, hvalue⟩ := hdoc.mpr h
      obtain ⟨others, hothers⟩ := hrest.mpr hmore
      exact ⟨value :: others, by rw [evaluateItems, hvalue, hothers]; rfl⟩

theorem evaluateMembers_iff (members : Members) :
    (∃ entries, evaluateMembers members = some entries) ↔ MembersInProfile members := by
  cases members with
  | last before key middle start doc after =>
    have hdoc := evaluate_iff doc
    constructor
    · rintro ⟨entries, h⟩
      obtain ⟨value, hvalue, -⟩ := Option.map_eq_some_iff.mp h
      exact hdoc.mp ⟨value, hvalue⟩
    · intro h
      obtain ⟨value, hvalue⟩ := hdoc.mpr h
      exact ⟨[(piecesUnits key, value)], by rw [evaluateMembers, hvalue]; rfl⟩
  | more before key middle start doc after rest =>
    have hdoc := evaluate_iff doc
    have hrest := evaluateMembers_iff rest
    constructor
    · rintro ⟨entries, h⟩
      obtain ⟨value, hvalue, hmore⟩ := Option.bind_eq_some_iff.mp h
      obtain ⟨others, hothers, -⟩ := Option.map_eq_some_iff.mp hmore
      exact ⟨hdoc.mp ⟨value, hvalue⟩, hrest.mp ⟨others, hothers⟩⟩
    · rintro ⟨h, hmore⟩
      obtain ⟨value, hvalue⟩ := hdoc.mpr h
      obtain ⟨others, hothers⟩ := hrest.mpr hmore
      exact ⟨(piecesUnits key, value) :: others, by rw [evaluateMembers, hvalue, hothers]; rfl⟩

end

theorem evaluate_isObject (h : evaluate doc = some value) : value.isObject = isObjectDoc doc := by
  cases doc with
  | null | bool | string | emptyArray | emptyObject => cases h; rfl
  | number | array =>
    obtain ⟨found, -, rfl⟩ := Option.map_eq_some_iff.mp h
    rfl
  | object members =>
    obtain ⟨entries, -, hfinal⟩ := Option.bind_eq_some_iff.mp h
    cases (Option.ite_none_right_eq_some.mp hfinal).2
    rfl

theorem visit_isObject (h : visit doc = some tree) : tree.isObject = isObjectDoc doc := by
  cases doc with
  | null | bool | emptyArray | emptyObject => cases h; rfl
  | string | array | object =>
    obtain ⟨found, -, rfl⟩ := Option.map_eq_some_iff.mp h
    rfl
  | number token =>
    cases hnumber : parserNumber token with
    | f64 => rw [visit, hnumber] at h; cases h
    | u64 value | i64 value =>
      rw [visit, hnumber] at h
      cases (Option.ite_none_right_eq_some.mp h).2
      rfl

/-! ## Numbers and strings of both -/

theorem visitNumber_evaluate (hok : isNumber token = true) (hplain : token.head? = some '-' → bigInt token ≠ 0) :
    visitNumber (parserNumber token) = (evaluateNumber token).map .integer := by
  have hinexact : (token.any fun c => c = '.' || c = 'e' || c = 'E') = token.any isInexact := rfl
  unfold parserNumber evaluateNumber
  rw [hinexact]
  by_cases hany : token.any isInexact = true
  · rw [if_pos hany, if_pos hany]
    rfl
  rw [if_neg hany, if_neg hany]
  split
  · rename_i digits
    have hvalue : bigInt ('-' :: digits) = -(digitsValue digits : ℤ) := by
      rw [bigInt, if_pos rfl]
      rfl
    have hzero := hplain rfl
    rw [hvalue] at hzero ⊢
    dsimp only
    by_cases hlarge : 2 ^ 63 < digitsValue digits
    · rw [if_pos (.inr hlarge), if_pos (by unfold maxSafeInteger; omega)]
      rfl
    · rw [if_neg (by omega), visitNumber, ArtifactStore.maxSafeInteger, maxSafeInteger]
      split_ifs <;> first | rfl | omega
  · rename_i hsign
    cases token with
    | nil => cases hok
    | cons c rest =>
      have hc : c ≠ '-' := fun h => hsign rest (by rw [h])
      have hvalue : bigInt (c :: rest) = (digitsValue (c :: rest) : ℤ) := by
        rw [bigInt, if_neg hc]
        rfl
      rw [hvalue]
      by_cases hsmall : digitsValue (c :: rest) < 2 ^ 64
      · rw [if_pos hsmall, visitNumber, ArtifactStore.maxSafeInteger, maxSafeInteger]
        split_ifs <;> first | rfl | omega
      · rw [if_neg hsmall, if_pos (by unfold maxSafeInteger; omega)]
        rfl

theorem visitNumber_plain (h : visitNumber (parserNumber token) = some tree) (hsign : token.head? = some '-') :
    bigInt token ≠ 0 := by
  obtain ⟨digits, rfl⟩ := List.head?_eq_some_iff.mp hsign
  intro hzero
  have hvalue : bigInt ('-' :: digits) = -(digitsValue digits : ℤ) := by
    rw [bigInt, if_pos rfl]
    rfl
  have hmagnitude : digitsValue digits = 0 := by omega
  unfold parserNumber at h
  split_ifs at h
  · cases h
  · simp only [hmagnitude, true_or, if_true] at h
    cases h

theorem unitsString_pieces (hok : ∀ piece ∈ pieces, piece.Ok) : unitsString (piecesUnits pieces) = stringOf pieces := by
  rw [unitsString, if_pos (piecesUnits_lt hok), stringOf]

theorem stringOf_paired (h : Paired pieces) : ∃ text, stringOf pieces = some text := by
  obtain ⟨chars, hchars⟩ := Option.isSome_iff_exists.mp h
  exact ⟨String.ofList chars, by rw [stringOf, hchars]; rfl⟩

theorem paired_stringOf {text : String} (h : stringOf pieces = some text) : Paired pieces := by
  obtain ⟨chars, hchars, -⟩ := Option.map_eq_some_iff.mp h
  rw [Paired, hchars]
  rfl

theorem treeEach_keys (h : ArtifactJson.treeEach members = some entries) :
    members.map Prod.fst = (entries.map Prod.fst).map fun key => unitsOf key.toList := by
  induction members generalizing entries with
  | nil => cases h; rfl
  | cons member members ih =>
    obtain ⟨key, value⟩ := member
    obtain ⟨name, hname, hvalue⟩ := Option.bind_eq_some_iff.mp h
    obtain ⟨item, -, hrest⟩ := Option.bind_eq_some_iff.mp hvalue
    obtain ⟨others, hothers, rfl⟩ := Option.map_eq_some_iff.mp hrest
    rw [List.map_cons, ih hothers, unitsString_some hname]
    rfl

theorem treeEach_nodup (h : ArtifactJson.treeEach members = some entries) :
    (members.map Prod.fst).Nodup ↔ (entries.map Prod.fst).Nodup := by
  rw [treeEach_keys h]
  exact List.nodup_map_iff fun _ _ heq => String.toList_injective (unitsOf_injective heq)

/-! ## Plain documents are visited -/

section Both
variable {space : Char → Bool}

mutual

theorem visit_of_evaluate (doc : Doc) (hok : doc.Ok space) (hplain : Plain doc) {value : ArtifactJson}
    (h : evaluate doc = some value) : ∃ tree, value.tree = some tree ∧ visit doc = some tree := by
  cases doc with
  | null | bool => cases h; exact ⟨_, rfl, rfl⟩
  | number token =>
    obtain ⟨exact, hexact, rfl⟩ := Option.map_eq_some_iff.mp h
    exact ⟨.integer exact, rfl, by rw [visit, visitNumber_evaluate hok hplain, hexact]; rfl⟩
  | string pieces =>
    cases h
    obtain ⟨text, htext⟩ := stringOf_paired hplain
    refine ⟨.string text, ?_, by rw [visit, htext]; rfl⟩
    rw [ArtifactJson.tree, unitsString_pieces hok, htext]
    rfl
  | emptyArray => cases h; exact ⟨_, rfl, rfl⟩
  | emptyObject => cases h; exact ⟨_, rfl, rfl⟩
  | array items =>
    obtain ⟨values, hvalues, rfl⟩ := Option.map_eq_some_iff.mp h
    obtain ⟨trees, htrees, hvisit⟩ := visitSeq_of_evaluate items hok hplain hvalues
    exact ⟨.array trees, by rw [ArtifactJson.tree, htrees]; rfl, by rw [visit, hvisit]; rfl⟩
  | object members =>
    obtain ⟨entries, hentries, hfinal⟩ := Option.bind_eq_some_iff.mp h
    obtain ⟨hnodup, hobject⟩ := Option.ite_none_right_eq_some.mp hfinal
    cases hobject
    obtain ⟨found, hfound, hvisit⟩ := visitEntries_of_evaluate members hok hplain hentries
    obtain ⟨sorted, hsorted⟩ := insertAll_isSome ordered_nil ((treeEach_nodup hfound).mp hnodup)
    refine ⟨.object sorted, by rw [ArtifactJson.tree, hfound, Option.bind_some, hsorted]; rfl, ?_⟩
    rw [visit, visitMap_entries, hvisit, Option.bind_some, hsorted]
    rfl

theorem visitSeq_of_evaluate (items : Items) (hok : items.Ok space) (hplain : ItemsPlain items)
    {values : List ArtifactJson} (h : evaluateItems items = some values) :
    ∃ trees, ArtifactJson.treeAll values = some trees ∧ visitSeq items = some trees := by
  cases items with
  | last before doc after =>
    obtain ⟨value, hvalue, rfl⟩ := Option.map_eq_some_iff.mp h
    obtain ⟨tree, htree, hvisit⟩ := visit_of_evaluate doc hok.2.1 hplain hvalue
    exact ⟨[tree], by rw [ArtifactJson.treeAll, htree]; rfl, by rw [visitSeq, hvisit]; rfl⟩
  | more before doc after rest =>
    obtain ⟨value, hvalue, hrest⟩ := Option.bind_eq_some_iff.mp h
    obtain ⟨others, hothers, rfl⟩ := Option.map_eq_some_iff.mp hrest
    obtain ⟨tree, htree, hvisit⟩ := visit_of_evaluate doc hok.2.1 hplain.1 hvalue
    obtain ⟨trees, htrees, hmore⟩ := visitSeq_of_evaluate rest hok.2.2.2 hplain.2 hothers
    exact ⟨tree :: trees, by rw [ArtifactJson.treeAll, htree, htrees]; rfl, by rw [visitSeq, hvisit, hmore]; rfl⟩

theorem visitEntries_of_evaluate (members : Members) (hok : members.Ok space)
    (hplain : MembersPlain members) {entries : List (List ℕ × ArtifactJson)}
    (h : evaluateMembers members = some entries) :
    ∃ found, ArtifactJson.treeEach entries = some found ∧ visitEntries members.entries = some found := by
  cases members with
  | last before key middle start doc after =>
    obtain ⟨value, hvalue, rfl⟩ := Option.map_eq_some_iff.mp h
    obtain ⟨tree, htree, hvisit⟩ := visit_of_evaluate doc hok.2.2.2.2.1 hplain.2 hvalue
    obtain ⟨name, hname⟩ := stringOf_paired hplain.1
    refine ⟨[(name, tree)], ?_, ?_⟩
    · rw [ArtifactJson.treeEach, unitsString_pieces hok.2.1, hname, htree]
      rfl
    · rw [Members.entries, visitEntries, hname, hvisit]
      rfl
  | more before key middle start doc after rest =>
    obtain ⟨value, hvalue, hrest⟩ := Option.bind_eq_some_iff.mp h
    obtain ⟨others, hothers, rfl⟩ := Option.map_eq_some_iff.mp hrest
    obtain ⟨tree, htree, hvisit⟩ := visit_of_evaluate doc hok.2.2.2.2.1 hplain.2.1 hvalue
    obtain ⟨name, hname⟩ := stringOf_paired hplain.1
    obtain ⟨found, hfound, hmore⟩ := visitEntries_of_evaluate rest hok.2.2.2.2.2.2 hplain.2.2 hothers
    refine ⟨(name, tree) :: found, ?_, ?_⟩
    · rw [ArtifactJson.treeEach, unitsString_pieces hok.2.1, hname, htree, hfound]
      rfl
    · rw [Members.entries, visitEntries, hname, hvisit, hmore]
      rfl

end

/-! ## Visited documents are plain and evaluate -/

mutual

theorem evaluate_of_visit (doc : Doc) (hok : doc.Ok space) {tree : CanonicalTree}
    (h : visit doc = some tree) : Plain doc ∧ ∃ value, evaluate doc = some value ∧ value.tree = some tree := by
  cases doc with
  | null | bool => cases h; exact ⟨trivial, _, rfl, rfl⟩
  | number token =>
    have hplain : Plain (.number token) := visitNumber_plain h
    rw [visit, visitNumber_evaluate hok hplain] at h
    obtain ⟨exact, hexact, rfl⟩ := Option.map_eq_some_iff.mp h
    exact ⟨hplain, .number exact, by rw [evaluate, hexact]; rfl, rfl⟩
  | string pieces =>
    obtain ⟨text, htext, rfl⟩ := Option.map_eq_some_iff.mp h
    refine ⟨paired_stringOf htext, .string (piecesUnits pieces), rfl, ?_⟩
    rw [ArtifactJson.tree, unitsString_pieces hok, htext]
    rfl
  | emptyArray => cases h; exact ⟨trivial, _, rfl, rfl⟩
  | emptyObject => cases h; exact ⟨trivial, _, rfl, rfl⟩
  | array items =>
    obtain ⟨trees, htrees, rfl⟩ := Option.map_eq_some_iff.mp h
    obtain ⟨hplain, values, hvalues, heach⟩ := evaluateItems_of_visit items hok htrees
    exact ⟨hplain, .array values, by rw [evaluate, hvalues]; rfl, by rw [ArtifactJson.tree, heach]; rfl⟩
  | object members =>
    rw [visit, visitMap_entries] at h
    obtain ⟨sorted, hsorted, rfl⟩ := Option.map_eq_some_iff.mp h
    obtain ⟨found, hfound, hinsert⟩ := Option.bind_eq_some_iff.mp hsorted
    obtain ⟨hplain, entries, hentries, heach⟩ := evaluateMembers_of_visit members hok hfound
    obtain ⟨hperm, hordered⟩ := (insertAll_iff ordered_nil).mp hinsert
    have hnodup := (treeEach_nodup heach).mpr ((hperm.map Prod.fst).nodup_iff.mpr hordered.nodup)
    exact ⟨hplain, .object entries, by rw [evaluate, hentries, Option.bind_some, if_pos hnodup],
      by rw [ArtifactJson.tree, heach, Option.bind_some, hinsert]; rfl⟩

theorem evaluateItems_of_visit (items : Items) (hok : items.Ok space) {trees : List CanonicalTree}
    (h : visitSeq items = some trees) : ItemsPlain items ∧
      ∃ values, evaluateItems items = some values ∧ ArtifactJson.treeAll values = some trees := by
  cases items with
  | last before doc after =>
    obtain ⟨tree, htree, rfl⟩ := Option.map_eq_some_iff.mp h
    obtain ⟨hplain, value, hvalue, hsame⟩ := evaluate_of_visit doc hok.2.1 htree
    exact ⟨hplain, [value], by rw [evaluateItems, hvalue]; rfl, by rw [ArtifactJson.treeAll, hsame]; rfl⟩
  | more before doc after rest =>
    obtain ⟨tree, htree, hrest⟩ := Option.bind_eq_some_iff.mp h
    obtain ⟨others, hothers, rfl⟩ := Option.map_eq_some_iff.mp hrest
    obtain ⟨hplain, value, hvalue, hsame⟩ := evaluate_of_visit doc hok.2.1 htree
    obtain ⟨hmore, values, hvalues, hall⟩ := evaluateItems_of_visit rest hok.2.2.2 hothers
    exact ⟨⟨hplain, hmore⟩, value :: values, by rw [evaluateItems, hvalue, hvalues]; rfl,
      by rw [ArtifactJson.treeAll, hsame, hall]; rfl⟩

theorem evaluateMembers_of_visit (members : Members) (hok : members.Ok space)
    {found : List (String × CanonicalTree)} (h : visitEntries members.entries = some found) :
    MembersPlain members ∧
      ∃ entries, evaluateMembers members = some entries ∧ ArtifactJson.treeEach entries = some found := by
  cases members with
  | last before key middle start doc after =>
    obtain ⟨name, hname, hdoc⟩ := Option.bind_eq_some_iff.mp h
    obtain ⟨tree, htree, hpair⟩ := Option.bind_eq_some_iff.mp hdoc
    cases hpair
    obtain ⟨hplain, value, hvalue, hsame⟩ := evaluate_of_visit doc hok.2.2.2.2.1 htree
    refine ⟨⟨paired_stringOf hname, hplain⟩, [(piecesUnits key, value)], ?_, ?_⟩
    · rw [evaluateMembers, hvalue]
      rfl
    · rw [ArtifactJson.treeEach, unitsString_pieces hok.2.1, hname, hsame]
      rfl
  | more before key middle start doc after rest =>
    obtain ⟨name, hname, hdoc⟩ := Option.bind_eq_some_iff.mp h
    obtain ⟨tree, htree, hrest⟩ := Option.bind_eq_some_iff.mp hdoc
    obtain ⟨others, hothers, rfl⟩ := Option.map_eq_some_iff.mp hrest
    obtain ⟨hplain, value, hvalue, hsame⟩ := evaluate_of_visit doc hok.2.2.2.2.1 htree
    obtain ⟨hmore, entries, hentries, heach⟩ := evaluateMembers_of_visit rest hok.2.2.2.2.2.2 hothers
    refine ⟨⟨paired_stringOf hname, hplain, hmore⟩, (piecesUnits key, value) :: entries, ?_, ?_⟩
    · rw [evaluateMembers, hvalue, hentries]
      rfl
    · rw [ArtifactJson.treeEach, unitsString_pieces hok.2.1, hname, hsame, heach]
      rfl

end

end Both

/-! ## What is accepted -/

theorem textDecode_eq (bytes : ByteArray) : textDecode bytes = (decodeUtf8 bytes).map withoutMark := by
  rw [textDecode, decodeUtf8, Option.map_map]
  rfl

theorem parseArtifactJson_ok :
    parseArtifactJson bytes requireObject = .ok value ↔ ∃ (text : Text) (document : Document),
      decodeUtf8 bytes = some text ∧ document.Ok scriptSpace ∧ withoutMark text = document.text ∧
        evaluate document.doc = some value ∧ (requireObject = true → isObjectDoc document.doc = true) := by
  unfold parseArtifactJson
  rw [textDecode_eq]
  cases hdecode : decodeUtf8 bytes with
  | none => exact ⟨fun h => (by cases h), fun ⟨text, document, h, _⟩ => (by cases h)⟩
  | some text =>
    simp only [Option.map_some, Option.some.injEq]
    constructor
    · intro h
      obtain ⟨result, hparse, hroot⟩ := bind_eq_ok h
      split_ifs at hroot with hobject
      cases hroot
      obtain ⟨document, hok, htext, heval⟩ := parse_iff.1 hparse
      refine ⟨text, document, rfl, hok, htext, heval, fun hrequire => ?_⟩
      rw [← evaluate_isObject heval]
      simpa [hrequire] using hobject
    · rintro ⟨_, document, rfl, hok, htext, heval, hobject⟩
      rw [parse_iff.2 ⟨document, hok, htext, heval⟩]
      have hroot : ¬ (requireObject && !value.isObject) = true := by
        rw [evaluate_isObject heval]
        cases requireObject with
        | false => simp
        | true => simp [hobject rfl]
      simp only [bind, Except.bind, if_neg hroot]

theorem parseCanonical_document {canonical : CanonicalValue} :
    parseCanonical bytes requireObject = .ok canonical ↔ ∃ (text : Text) (document : Document),
      decodeUtf8 bytes = some text ∧ document.Ok jsonSpace ∧ text = document.text ∧
        document.doc.depth ≤ recursionLimit ∧ visit document.doc = some canonical.tree ∧
          (requireObject = true → isObjectDoc document.doc = true) := by
  rw [parseCanonical_ok, deserialize]
  constructor
  · rintro ⟨h, hobject⟩
    obtain ⟨text, hdecode, h⟩ := Option.bind_eq_some_iff.mp h
    obtain ⟨document, hread, h⟩ := Option.bind_eq_some_iff.mp h
    obtain ⟨hdepth, hvisit⟩ := Option.ite_none_right_eq_some.mp h
    obtain ⟨htext, hok⟩ := read_sound hread
    rw [visit_isObject hvisit] at hobject
    exact ⟨text, document, hdecode, hok, htext, hdepth, hvisit, hobject⟩
  · rintro ⟨text, document, hdecode, hok, rfl, hdepth, hvisit, hobject⟩
    rw [hdecode, Option.bind_some, read_text jsonSpace_space hok, Option.bind_some, if_pos hdepth,
      visit_isObject hvisit]
    exact ⟨hvisit, hobject⟩

/-! ## Agreement -/

/-- Both parsers accept an input or neither does, and what they make of it is the same. -/
def Agree (bytes : ByteArray) (requireObject : Bool) : Prop :=
  ((∃ value, parseArtifactJson bytes requireObject = .ok value) ↔
    ∃ canonical, parseCanonical bytes requireObject = .ok canonical) ∧
  ∀ value canonical, parseArtifactJson bytes requireObject = .ok value →
    parseCanonical bytes requireObject = .ok canonical →
      value.tree = some canonical.tree ∧ canonicalArtifactJson value = .ok canonical.canonicalBytes

/-- Where the bytes are a document of the profile in the wider dialect, they have no byte order mark, only
the white space of RFC 8259, no `-0`, no unit without its pair, and few enough open containers. -/
def Shared (bytes : ByteArray) (requireObject : Bool) : Prop :=
  ∀ (text : Text) (document : Document), decodeUtf8 bytes = some text → document.Ok scriptSpace →
    withoutMark text = document.text → InProfile document.doc →
      (requireObject = true → isObjectDoc document.doc = true) →
        text = document.text ∧ document.Ok jsonSpace ∧ Plain document.doc ∧
          document.doc.depth ≤ recursionLimit

theorem jsonSpace_script {c : Char} (h : jsonSpace c = true) : scriptSpace c = true := by
  simp only [jsonSpace, Bool.or_eq_true, decide_eq_true_eq] at h
  rcases h with ((rfl | rfl) | rfl) | rfl <;> decide

theorem withoutMark_document {document : Document} (hok : document.Ok jsonSpace) :
    withoutMark document.text = document.text := by
  obtain ⟨before, doc, after⟩ := document
  obtain ⟨hbefore, hdoc, -⟩ := hok
  have hstart : ∃ c s, before ++ doc.onto after = c :: s ∧ c.toNat ≠ 0xFEFF := by
    cases before with
    | nil =>
      obtain ⟨c, s, hhead, hc, -, -⟩ := Doc.head scriptSpace_space
        (Doc.Ok.mono (fun _ => jsonSpace_script) doc hdoc) after
      refine ⟨c, s, hhead, fun hmark => ?_⟩
      have hspace : scriptSpace c = true := by simp [scriptSpace, hmark]
      rw [hspace] at hc
      cases hc
    | cons c before =>
      refine ⟨c, _, rfl, ?_⟩
      have hc := hbefore c List.mem_cons_self
      simp only [jsonSpace, Bool.or_eq_true, decide_eq_true_eq] at hc
      rcases hc with ((rfl | rfl) | rfl) | rfl <;> decide
  obtain ⟨c, s, htext, hc⟩ := hstart
  rw [Document.text, htext, withoutMark, if_neg hc]

theorem parsers_agree_iff (bytes : ByteArray) (requireObject : Bool) :
    Agree bytes requireObject ↔ Shared bytes requireObject := by
  constructor
  · rintro ⟨haccept, -⟩ text document hdecode hok htext hprofile hobject
    obtain ⟨value, heval⟩ := (evaluate_iff document.doc).mpr hprofile
    obtain ⟨canonical, hcanonical⟩ := haccept.mp
      ⟨value, parseArtifactJson_ok.2 ⟨text, document, hdecode, hok, htext, heval, hobject⟩⟩
    obtain ⟨text', other, hdecode', hok', rfl, hdepth, hvisit, -⟩ :=
      parseCanonical_document.1 hcanonical
    rw [hdecode] at hdecode'
    cases hdecode'
    rw [withoutMark_document hok'] at htext
    have hsame := document_unique scriptSpace_space (Document.Ok.mono (fun _ => jsonSpace_script) hok') hok
      htext
    subst hsame
    exact ⟨rfl, hok', (evaluate_of_visit other.doc hok'.2.1 hvisit).1, hdepth⟩
  · intro hshared
    refine ⟨⟨fun ⟨value, h⟩ => ?_, fun ⟨canonical, h⟩ => ?_⟩, fun value canonical h h' => ?_⟩
    · obtain ⟨text, document, hdecode, hok, htext, heval, hobject⟩ := parseArtifactJson_ok.1 h
      obtain ⟨hsame, hspaces, hplain, hdepth⟩ := hshared text document hdecode hok htext
        ((evaluate_iff document.doc).mp ⟨value, heval⟩) hobject
      obtain ⟨tree, -, hvisit⟩ := visit_of_evaluate document.doc hok.2.1 hplain heval
      exact ⟨⟨tree, (visit_fits document.doc hvisit).sorted⟩, parseCanonical_document.2
        ⟨text, document, hdecode, hspaces, hsame, hdepth, hvisit, hobject⟩⟩
    · obtain ⟨text, document, hdecode, hok, rfl, hdepth, hvisit, hobject⟩ :=
        parseCanonical_document.1 h
      obtain ⟨-, value, heval, -⟩ := evaluate_of_visit document.doc hok.2.1 hvisit
      exact ⟨value, parseArtifactJson_ok.2 ⟨_, document, hdecode,
        Document.Ok.mono (fun _ => jsonSpace_script) hok, withoutMark_document hok, heval, hobject⟩⟩
    · obtain ⟨text, document, hdecode, hok, htext, heval, -⟩ := parseArtifactJson_ok.1 h
      obtain ⟨text', other, hdecode', hok', rfl, -, hvisit, -⟩ := parseCanonical_document.1 h'
      rw [hdecode] at hdecode'
      cases hdecode'
      rw [withoutMark_document hok'] at htext
      have hsame := document_unique scriptSpace_space
        (Document.Ok.mono (fun _ => jsonSpace_script) hok') hok htext
      subst hsame
      obtain ⟨-, value', heval', htree⟩ := evaluate_of_visit other.doc hok'.2.1 hvisit
      rw [heval] at heval'
      cases heval'
      exact ⟨htree, canonicalArtifactJson_tree htree (visit_fits other.doc hvisit).safe⟩

/-- The client reads `-0` as zero; the store rejects it. -/
theorem negative_zero_disagrees : ¬ Agree "-0".toUTF8 false := by
  rintro ⟨haccept, -⟩
  have hdecode : decodeUtf8 "-0".toUTF8 = some ['-', '0'] := decodeUtf8_toUTF8 ['-', '0']
  have hclient : parseArtifactJson "-0".toUTF8 false = .ok (.number 0) := by
    unfold parseArtifactJson
    rw [textDecode_eq, hdecode]
    rfl
  obtain ⟨canonical, hcanonical⟩ := haccept.mp ⟨_, hclient⟩
  have hstore := (parseCanonical_ok.1 hcanonical).1
  rw [deserialize, hdecode] at hstore
  cases hstore

end AvenOS.ArtifactStore.Client
