import AvenOS.ArtifactStore.Canonical
import AvenOS.Foundations.DecimalText

/-! # The canonical form and its parser

The text of a value is the text of one document, `docOf`, so that what reads it back is that document and
no other. Visiting it gives the value, and visiting does not see the order of members, white space and
the spelling of strings. -/
namespace AvenOS.ArtifactStore
open Json OrderedEntries

/-! ## Integers -/

namespace CanonicalTree

theorem integerText_isNumber (value : ℤ) : isNumber (integerText value) = true := by
  cases value with
  | ofNat n => exact isNumber_toDigits n
  | negSucc n =>
    rw [integerText, isNumber, if_pos rfl]
    exact isUnsigned_toDigits (n + 1)

theorem digitsValue_toDigits (n : ℕ) : digitsValue (Nat.toDigits 10 n) = n := Nat.ofDigitChars_ten_toDigits

theorem toDigits_plain (n : ℕ) : (Nat.toDigits 10 n).any (fun c => c = '.' || c = 'e' || c = 'E') = false := by
  refine List.any_eq_false.mpr fun c hc => ?_
  have hdigit := toDigits_isDigit n c hc
  simp only [Bool.or_eq_true, decide_eq_true_eq, not_or]
  refine ⟨⟨?_, ?_⟩, ?_⟩ <;> (rintro rfl; cases hdigit)

theorem parserNumber_toDigits (n : ℕ) : parserNumber (Nat.toDigits 10 n) = if n < 2 ^ 64 then .u64 n else .f64 := by
  obtain ⟨c, rest, hdigits, hc⟩ := toDigits_cons n
  have hvalue := digitsValue_toDigits n
  have hplain := toDigits_plain n
  rw [hdigits] at hvalue hplain ⊢
  unfold parserNumber
  rw [hplain, if_neg (by decide)]
  split
  · rename_i heq
    exact absurd (List.cons.inj heq).1 hc
  · rw [hvalue]

theorem parserNumber_negative (n : ℕ) : parserNumber ('-' :: Nat.toDigits 10 n) =
      if n = 0 ∨ 2 ^ 63 < n then .f64 else .i64 (-(n : ℤ)) := by
  have hplain : ('-' :: Nat.toDigits 10 n).any (fun c => c = '.' || c = 'e' || c = 'E') = false := by
    rw [List.any_cons, toDigits_plain]
    rfl
  unfold parserNumber
  rw [hplain]
  simp only [digitsValue_toDigits, Bool.false_eq_true, if_false]

theorem visitNumber_integerText {value : ℤ} (h : (integer value).Safe) :
    visitNumber (parserNumber (integerText value)) = some (.integer value) := by
  have hrange : -maxSafeInteger ≤ value ∧ value ≤ maxSafeInteger := h
  cases value with
  | ofNat n =>
    have hbound : (n : ℤ) ≤ maxSafeInteger := hrange.2
    have hn : n < 2 ^ 64 := by unfold maxSafeInteger at hbound; omega
    rw [integerText, parserNumber_toDigits, if_pos hn]
    exact if_pos hbound
  | negSucc n =>
    have hn : ¬ (n + 1 = 0 ∨ 2 ^ 63 < n + 1) := by unfold maxSafeInteger at hrange; omega
    have hvalue : Int.negSucc n = -((n + 1 : ℕ) : ℤ) := Int.negSucc_eq n
    rw [integerText, parserNumber_negative, if_neg hn, ← hvalue, visitNumber]
    exact if_pos hrange

theorem visitNumber_integerText_some {value : ℤ} {tree : CanonicalTree}
    (h : visitNumber (parserNumber (integerText value)) = some tree) : tree = .integer value := by
  cases value with
  | ofNat n =>
    rw [integerText, parserNumber_toDigits] at h
    split_ifs at h
    · exact (Option.some.inj (Option.ite_none_right_eq_some.mp h).2).symm
    · cases h
  | negSucc n =>
    have hvalue : Int.negSucc n = -((n + 1 : ℕ) : ℤ) := Int.negSucc_eq n
    rw [integerText, parserNumber_negative, ← hvalue] at h
    by_cases hn : n + 1 = 0 ∨ 2 ^ 63 < n + 1
    · rw [if_pos hn] at h
      cases h
    · rw [if_neg hn, visitNumber] at h
      exact (Option.some.inj (Option.ite_none_right_eq_some.mp h).2).symm

theorem integerText_injective : Function.Injective integerText := by
  intro one other h
  cases one <;> cases other
  case ofNat.ofNat m n =>
    have hvalue := congrArg digitsValue (show Nat.toDigits 10 m = Nat.toDigits 10 n from h)
    rw [digitsValue_toDigits, digitsValue_toDigits] at hvalue
    rw [hvalue]
  case ofNat.negSucc m n =>
    obtain ⟨c, rest, hdigits, hc⟩ := toDigits_cons m
    rw [integerText, hdigits] at h
    exact absurd (List.cons.inj h).1 hc
  case negSucc.ofNat m n =>
    obtain ⟨c, rest, hdigits, hc⟩ := toDigits_cons n
    rw [integerText, integerText, hdigits] at h
    exact absurd (List.cons.inj h).1.symm hc
  case negSucc.negSucc m n =>
    have hvalue := congrArg digitsValue (List.cons.inj h).2
    rw [digitsValue_toDigits, digitsValue_toDigits] at hvalue
    rw [Nat.succ.inj hvalue]

/-! ## The document of a value -/

mutual

def docOf : CanonicalTree → Doc
  | .null => .null
  | .bool value => .bool value
  | .integer value => .number (integerText value)
  | .string value => .string (quotedPieces value.toList)
  | .array [] => .emptyArray []
  | .array (value :: values) => .array (itemsOf (docOf value) values)
  | .object [] => .emptyObject []
  | .object ((key, value) :: members) => .object (membersOf key (docOf value) members)

def itemsOf (first : Doc) : List CanonicalTree → Items
  | [] => .last [] first []
  | value :: values => .more [] first [] (itemsOf (docOf value) values)

def membersOf (key : String) (first : Doc) : List (String × CanonicalTree) → Members
  | [] => .last [] (quotedPieces key.toList) [] [] first []
  | (next, value) :: members =>
    .more [] (quotedPieces key.toList) [] [] first [] (membersOf next (docOf value) members)

end

mutual

theorem docOf_onto (tree : CanonicalTree) (r : Text) : (docOf tree).onto r = tree.writeCanonical ++ r := by
  cases tree with
  | null => rfl
  | bool value => cases value <;> rfl
  | integer => rfl
  | string => simp [docOf, Doc.onto, writeCanonical, quote]
  | array values =>
    cases values with
    | nil => rfl
    | cons value values =>
      rw [docOf, Doc.onto, itemsOf_onto values, docOf_onto value]
      simp [writeCanonical]
  | object members =>
    rcases members with - | ⟨⟨key, value⟩, members⟩
    · rfl
    · rw [docOf, Doc.onto, membersOf_onto members, docOf_onto value]
      simp [writeCanonical, quote]

theorem itemsOf_onto (values : List CanonicalTree) (first : Doc) (r : Text) :
    (itemsOf first values).onto r = first.onto (writeItems values ++ r) := by
  cases values with
  | nil => rfl
  | cons value values =>
    rw [itemsOf, Items.onto, itemsOf_onto values, docOf_onto value]
    simp [writeItems]

theorem membersOf_onto (members : List (String × CanonicalTree)) (key : String) (first : Doc) (r : Text) :
    (membersOf key first members).onto r = '"' :: (piecesText (quotedPieces key.toList) ++ '"' :: ':' ::
        first.onto (writeMembers members ++ r)) := by
  rcases members with - | ⟨⟨next, value⟩, members⟩
  · rfl
  · rw [membersOf, Members.onto, membersOf_onto members, docOf_onto value]
    simp [writeMembers, quote]

end

section Written
variable (space : Char → Bool)

theorem blank_nil : Blank space [] := fun _ h => absurd h List.not_mem_nil

mutual

theorem docOf_ok (tree : CanonicalTree) : (docOf tree).Ok space := by
  cases tree with
  | null | bool => exact trivial
  | integer value => exact integerText_isNumber value
  | string value => exact quotedPieces_ok value.toList
  | array values =>
    cases values with
    | nil => exact blank_nil space
    | cons value values => exact itemsOf_ok values (docOf_ok value)
  | object members =>
    rcases members with - | ⟨⟨key, value⟩, members⟩
    · exact blank_nil space
    · exact membersOf_ok members key (docOf_ok value)

theorem itemsOf_ok (values : List CanonicalTree) {first : Doc} (hfirst : first.Ok space) :
    (itemsOf first values).Ok space := by
  cases values with
  | nil => exact ⟨blank_nil space, hfirst, blank_nil space⟩
  | cons value values =>
    exact ⟨blank_nil space, hfirst, blank_nil space, itemsOf_ok values (docOf_ok value)⟩

theorem membersOf_ok (members : List (String × CanonicalTree)) (key : String) {first : Doc}
    (hfirst : first.Ok space) : (membersOf key first members).Ok space := by
  have hnil := blank_nil space
  have hkey := quotedPieces_ok key.toList
  rcases members with - | ⟨⟨next, value⟩, members⟩
  · exact ⟨hnil, hkey, hnil, hnil, hfirst, hnil⟩
  · exact ⟨hnil, hkey, hnil, hnil, hfirst, hnil, membersOf_ok members next (docOf_ok value)⟩

end

end Written

mutual

theorem docOf_depth (tree : CanonicalTree) : (docOf tree).depth = tree.depth := by
  cases tree with
  | null | bool | integer | string => rfl
  | array values =>
    cases values with
    | nil => rfl
    | cons value values => rw [docOf, Doc.depth, itemsOf_depth values, docOf_depth value]; rfl
  | object members =>
    rcases members with - | ⟨⟨key, value⟩, members⟩
    · rfl
    · rw [docOf, Doc.depth, membersOf_depth members, docOf_depth value]; rfl

theorem itemsOf_depth (values : List CanonicalTree) (first : Doc) :
    (itemsOf first values).depth = max first.depth (depthAll values) := by
  cases values with
  | nil => exact (Nat.max_zero _).symm
  | cons value values => rw [itemsOf, Items.depth, itemsOf_depth values, docOf_depth value]; rfl

theorem membersOf_depth (members : List (String × CanonicalTree)) (key : String) (first : Doc) :
    (membersOf key first members).depth = max first.depth (depthEach members) := by
  rcases members with - | ⟨⟨next, value⟩, members⟩
  · exact (Nat.max_zero _).symm
  · rw [membersOf, Members.depth, membersOf_depth members, docOf_depth value]; rfl

end

theorem stringOf_quotedPieces (value : String) : stringOf (quotedPieces value.toList) = some value := by
  rw [stringOf, quotedPieces_units, decodeUtf16_unitsOf, Option.map_some, String.ofList_toList]

/-! ## Reading a written value -/

mutual

theorem visit_docOf (tree : CanonicalTree) (hsorted : tree.Sorted) (hsafe : tree.Safe) :
    visit (docOf tree) = some tree := by
  cases tree with
  | null | bool => rfl
  | integer value => exact visitNumber_integerText hsafe
  | string value => rw [docOf, visit, stringOf_quotedPieces]; rfl
  | array values =>
    cases values with
    | nil => rfl
    | cons value values =>
      have hfirst := visit_docOf value hsorted.1 hsafe.1
      rw [docOf, visit, visitSeq_itemsOf values hsorted.2 hsafe.2 hfirst]
      rfl
  | object members =>
    rcases members with - | ⟨⟨key, value⟩, members⟩
    · rfl
    · have hfirst := visit_docOf value hsorted.2.1 hsafe.1
      rw [docOf, visit, visitMap_membersOf members hsorted.2.2 hsafe.2 hfirst, insertAll_self hsorted.1]
      rfl

theorem visitSeq_itemsOf (values : List CanonicalTree) (hsorted : SortedAll values) (hsafe : SafeAll values)
    {first : Doc} {value : CanonicalTree} (hfirst : visit first = some value) :
    visitSeq (itemsOf first values) = some (value :: values) := by
  cases values with
  | nil => rw [itemsOf, visitSeq, hfirst]; rfl
  | cons next values =>
    have hnext := visit_docOf next hsorted.1 hsafe.1
    rw [itemsOf, visitSeq, hfirst, visitSeq_itemsOf values hsorted.2 hsafe.2 hnext]
    rfl

theorem visitMap_membersOf (members : List (String × CanonicalTree)) (hsorted : SortedEach members)
    (hsafe : SafeEach members) {key : String} {first : Doc} {value : CanonicalTree}
    (hfirst : visit first = some value) {entries : List (String × CanonicalTree)} :
    visitMap entries (membersOf key first members) = insertAll entries ((key, value) :: members) := by
  have hinsert : insertMember entries (stringOf (quotedPieces key.toList)) (visit first) =
      insertEntry (key, value) entries := by
    rw [stringOf_quotedPieces, hfirst]
    rfl
  rcases members with - | ⟨⟨next, other⟩, members⟩
  · rw [membersOf, visitMap, hinsert, insertAll]
    cases insertEntry (key, value) entries <;> rfl
  · have hnext := visit_docOf other hsorted.1 hsafe.1
    rw [membersOf, visitMap, hinsert, insertAll]
    simp only [visitMap_membersOf members hsorted.2 hsafe.2 hnext]

end

/-! ## One document for each value -/

mutual

theorem docOf_injective (one other : CanonicalTree) (h : docOf one = docOf other) : one = other := by
  cases one with
  | null | bool =>
    cases other with
    | array values => cases values <;> cases h
    | object members => rcases members with - | ⟨⟨key, value⟩, members⟩ <;> cases h
    | _ => cases h <;> rfl
  | integer value =>
    cases other with
    | array values => cases values <;> cases h
    | object members => rcases members with - | ⟨⟨key, value⟩, members⟩ <;> cases h
    | integer => exact congrArg integer (integerText_injective (Doc.number.inj h))
    | _ => cases h
  | string value =>
    cases other with
    | array values => cases values <;> cases h
    | object members => rcases members with - | ⟨⟨key, value⟩, members⟩ <;> cases h
    | string => exact congrArg string (String.toList_injective (quotedPieces_injective (Doc.string.inj h)))
    | _ => cases h
  | array values =>
    cases other with
    | array others =>
      cases values <;> cases others
      case nil.nil => rfl
      case cons.cons value values other others =>
        obtain ⟨hfirst, hrest⟩ := itemsOf_injective values others (Doc.array.inj h)
        rw [docOf_injective value other hfirst, hrest]
      all_goals cases h
    | object members =>
      rcases members with - | ⟨⟨key, value⟩, members⟩ <;> cases values <;> cases h
    | _ => cases values <;> cases h
  | object members =>
    cases other with
    | object others =>
      rcases members with - | ⟨⟨key, value⟩, members⟩ <;> rcases others with - | ⟨⟨next, other⟩, others⟩
      · rfl
      · cases h
      · cases h
      · obtain ⟨hkey, hfirst, hrest⟩ := membersOf_injective members others (Doc.object.inj h)
        rw [hkey, docOf_injective value other hfirst, hrest]
    | array values =>
      rcases members with - | ⟨⟨key, value⟩, members⟩ <;> cases values <;> cases h
    | _ => rcases members with - | ⟨⟨key, value⟩, members⟩ <;> cases h

theorem itemsOf_injective (values others : List CanonicalTree) {first other : Doc}
    (h : itemsOf first values = itemsOf other others) : first = other ∧ values = others := by
  cases values <;> cases others
  case nil.nil => exact ⟨(Items.last.inj h).2.1, rfl⟩
  case cons.cons value values next others =>
    obtain ⟨-, hfirst, -, hrest⟩ := Items.more.inj h
    obtain ⟨hnext, hvalues⟩ := itemsOf_injective values others hrest
    exact ⟨hfirst, by rw [docOf_injective value next hnext, hvalues]⟩
  all_goals cases h

theorem membersOf_injective (members others : List (String × CanonicalTree)) {key next : String}
    {first other : Doc} (h : membersOf key first members = membersOf next other others) :
    key = next ∧ first = other ∧ members = others := by
  rcases members with - | ⟨⟨name, value⟩, members⟩ <;> rcases others with - | ⟨⟨label, item⟩, others⟩
  · obtain ⟨-, hkey, -, -, hfirst, -⟩ := Members.last.inj h
    exact ⟨String.toList_injective (quotedPieces_injective hkey), hfirst, rfl⟩
  · cases h
  · cases h
  · obtain ⟨-, hkey, -, -, hfirst, -, hrest⟩ := Members.more.inj h
    obtain ⟨hname, hvalue, hmembers⟩ := membersOf_injective members others hrest
    refine ⟨String.toList_injective (quotedPieces_injective hkey), hfirst, ?_⟩
    rw [hname, docOf_injective value item hvalue, hmembers]

end

end CanonicalTree

/-! ## Alike documents -/

def visitEntries : List (List Piece × Doc) → Option (List (String × CanonicalTree))
  | [] => some []
  | (key, doc) :: rest =>
    (stringOf key).bind fun key => (visit doc).bind fun value =>
      (visitEntries rest).map fun entries => (key, value) :: entries

theorem visitMap_entries (members : Members) (values : List (String × CanonicalTree)) :
    visitMap values members = (visitEntries members.entries).bind (insertAll values) := by
  cases members with
  | last before key middle start doc after =>
    rw [visitMap, insertMember, Members.entries, visitEntries]
    cases stringOf key <;> cases visit doc
    case some.some key value =>
      simp only [Option.bind_some, visitEntries, Option.map_some, insertAll, Option.bind_fun_some]
    all_goals rfl
  | more before key middle start doc after rest =>
    rw [visitMap, insertMember, Members.entries, visitEntries]
    cases stringOf key <;> cases visit doc
    case some.some key value =>
      simp only [Option.bind_some, visitMap_entries rest]
      cases visitEntries rest.entries <;> simp [insertAll]
    all_goals rfl

/-- Both are rejected, or both are visited with the same members. -/
def SameEntries (one other : Option (List (String × CanonicalTree))) : Prop :=
  Option.Rel List.Perm one other

variable {one other : Option (List (String × CanonicalTree))} {bytes : ByteArray} {requireObject : Bool}
  {value : CanonicalValue}

theorem SameEntries.trans {two three : Option (List (String × CanonicalTree))} (h : SameEntries one two)
    (h' : SameEntries two three) : SameEntries one three := by
  cases h with
  | none => exact h'
  | some hperm =>
    cases h' with
    | some hperm' => exact .some (hperm.trans hperm')

theorem SameEntries.cons (h : SameEntries one other) (entry : String × CanonicalTree) :
    SameEntries (one.map (entry :: ·)) (other.map (entry :: ·)) := by
  cases h with
  | none => exact .none
  | some hperm => exact .some (hperm.cons entry)

theorem visitEntries_swap (first second : List Piece × Doc) (rest : List (List Piece × Doc)) :
    SameEntries (visitEntries (first :: second :: rest)) (visitEntries (second :: first :: rest)) := by
  obtain ⟨key, doc⟩ := first
  obtain ⟨next, other⟩ := second
  simp only [visitEntries]
  cases stringOf key <;> cases visit doc <;> cases stringOf next <;> cases visit other
  case some.some.some.some =>
    cases visitEntries rest with
    | none => exact .none
    | some entries => exact .some (List.Perm.swap _ _ _)
  all_goals exact .none

theorem SameEntries.insertAll (h : SameEntries one other) :
    one.bind (OrderedEntries.insertAll []) = other.bind (OrderedEntries.insertAll []) := by
  cases h with
  | none => rfl
  | some hperm => exact insertAll_perm hperm

mutual

theorem visit_alike : {one other : Doc} → one.Alike other → visit one = visit other
  | _, _, .null | _, _, .bool _ | _, _, .number _ => rfl
  | _, _, .emptyArray _ _ | _, _, .emptyObject _ _ => rfl
  | _, _, .string hunits => by rw [visit, visit, stringOf, stringOf, hunits]
  | _, _, .array hitems => by rw [visit, visit, visitSeq_alike hitems]
  | _, _, .object hentries => by
    rw [visit, visit, visitMap_entries, visitMap_entries, (visitEntries_alike hentries).insertAll]

theorem visitSeq_alike : {one other : Items} → one.Alike other → visitSeq one = visitSeq other
  | _, _, .last hdoc => by rw [visitSeq, visitSeq, visit_alike hdoc]
  | _, _, .more hdoc hrest => by
    rw [visitSeq, visitSeq, visit_alike hdoc, visitSeq_alike hrest]

theorem visitEntries_alike : {one other : List (List Piece × Doc)} → EntriesAlike one other →
    SameEntries (visitEntries one) (visitEntries other)
  | _, _, .nil => .some (List.Perm.refl _)
  | _, _, @EntriesAlike.cons key key' doc doc' rest rest' hkey hdoc hrest => by
    have hstring : stringOf key = stringOf key' := by rw [stringOf, stringOf, hkey]
    have hsame := visitEntries_alike hrest
    rw [visitEntries, visitEntries, hstring, visit_alike hdoc]
    cases stringOf key' with
    | none => exact .none
    | some name =>
      cases visit doc' with
      | none => exact .none
      | some value => exact hsame.cons (name, value)
  | _, _, .swap first second rest => visitEntries_swap first second rest
  | _, _, .trans h h' => (visitEntries_alike h).trans (visitEntries_alike h')

end

/-! ## Texts and bytes -/

theorem jsonSpace_space : Space jsonSpace where
  apart c hc := by
    simp only [jsonSpace, Bool.or_eq_true, decide_eq_true_eq] at hc
    rcases hc with ((rfl | rfl) | rfl) | rfl <;> decide

/-- A value on its own. -/
def CanonicalTree.document (tree : CanonicalTree) : Document := ⟨[], tree.docOf, []⟩

theorem document_text (tree : CanonicalTree) : tree.document.text = tree.writeCanonical := by
  rw [Document.text, CanonicalTree.document, CanonicalTree.docOf_onto, List.append_nil, List.nil_append]

theorem document_ok (space : Char → Bool) (tree : CanonicalTree) : tree.document.Ok space :=
  ⟨CanonicalTree.blank_nil space, CanonicalTree.docOf_ok space tree, CanonicalTree.blank_nil space⟩

theorem read_writeCanonical {space : Char → Bool} (hspace : Space space) (tree : CanonicalTree) :
    read space tree.writeCanonical = some tree.document := by
  rw [← document_text, read_text hspace (document_ok space tree)]

theorem writeCanonical_injective : Function.Injective CanonicalTree.writeCanonical := by
  intro one other h
  rw [← document_text, ← document_text] at h
  have hdocument := document_unique jsonSpace_space (document_ok _ one) (document_ok _ other) h
  exact CanonicalTree.docOf_injective one other (congrArg Document.doc hdocument)

theorem decodeUtf8_toUTF8 (text : Text) : decodeUtf8 (String.ofList text).toUTF8 = some text := by
  have hvalid : (String.ofList text).toUTF8.IsValidUTF8 := (String.ofList text).isValidUTF8
  rw [decodeUtf8, String.fromUTF8?, dif_pos hvalid, Option.map_some]
  exact congrArg some (String.toList_ofList (l := text))

theorem toUTF8_injective {one other : Text}
    (h : (String.ofList one).toUTF8 = (String.ofList other).toUTF8) : one = other := by
  have hdecode := congrArg decodeUtf8 h
  rw [decodeUtf8_toUTF8, decodeUtf8_toUTF8] at hdecode
  exact Option.some.inj hdecode

@[ext] theorem CanonicalValue.ext {one other : CanonicalValue} (h : one.tree = other.tree) : one = other := by
  cases one
  cases other
  cases h
  rfl

theorem canonicalBytes_injective : Function.Injective CanonicalValue.canonicalBytes := by
  intro one other h
  exact CanonicalValue.ext (writeCanonical_injective (toUTF8_injective h))

theorem deserialize_text (tree : CanonicalTree) : deserialize (String.ofList tree.writeCanonical).toUTF8 =
      if tree.depth ≤ recursionLimit then visit tree.docOf else none := by
  rw [deserialize, decodeUtf8_toUTF8, Option.bind_some, read_writeCanonical jsonSpace_space,
    Option.bind_some, CanonicalTree.document, CanonicalTree.docOf_depth]

theorem parseCanonical_ok : parseCanonical bytes requireObject = .ok value ↔
      deserialize bytes = some value.tree ∧ (requireObject = true → value.tree.isObject = true) := by
  unfold parseCanonical
  split
  · rename_i hnone
    exact ⟨fun h => (by cases h), fun h => by rw [hnone] at h; cases h.1⟩
  · rename_i tree hsome
    have htree : deserialize bytes = some value.tree ↔ tree = value.tree := by
      rw [hsome, Option.some.injEq]
    rw [htree]
    split_ifs with hroot
    · refine ⟨fun h => (by cases h), fun ⟨hvalue, hobject⟩ => ?_⟩
      rw [hvalue] at hroot
      simp only [Bool.and_eq_true, Bool.not_eq_true'] at hroot
      rw [hobject hroot.1] at hroot
      exact absurd hroot.2 (by decide)
    · rw [Except.ok.injEq, CanonicalValue.ext_iff]
      refine ⟨fun h => ⟨h, fun hrequire => ?_⟩, fun h => h.1⟩
      simp only [hrequire, Bool.true_and, Bool.not_eq_true', Bool.not_eq_false] at hroot
      rwa [← h]

/-- Safe integers and few enough open containers. -/
def CanonicalValue.Readable (value : CanonicalValue) : Prop :=
  value.tree.Safe ∧ value.tree.depth ≤ recursionLimit

theorem parseCanonical_canonicalBytes (h : value.Readable)
    (hobject : requireObject = true → value.tree.isObject = true) :
    parseCanonical value.canonicalBytes requireObject = .ok value := by
  refine parseCanonical_ok.2 ⟨?_, hobject⟩
  rw [CanonicalValue.canonicalBytes, deserialize_text, if_pos h.2,
    CanonicalTree.visit_docOf value.tree value.sorted h.1]

theorem parseCanonical_readable (h : parseCanonical bytes requireObject = .ok value) : value.Readable := by
  have hfits := deserialize_fits (parseCanonical_ok.1 h).1
  exact ⟨hfits.safe, hfits.nested⟩

/-- Inputs that differ only in member order, insignificant white space and escape spelling. -/
def Respelled (one other : ByteArray) : Prop :=
  ∃ document document' : Document, document.Ok jsonSpace ∧ document'.Ok jsonSpace ∧
    one = (String.ofList document.text).toUTF8 ∧ other = (String.ofList document'.text).toUTF8 ∧
    document.doc.Alike document'.doc

theorem deserialize_document {document : Document} (hok : document.Ok jsonSpace) {tree : CanonicalTree}
    (h : deserialize (String.ofList document.text).toUTF8 = some tree) : visit document.doc = some tree := by
  rw [deserialize, decodeUtf8_toUTF8, Option.bind_some, read_text jsonSpace_space hok, Option.bind_some] at h
  exact (Option.ite_none_right_eq_some.mp h).2

theorem parseCanonical_respelled {one other : ByteArray} (hrespelled : Respelled one other) {requireObject' : Bool}
    {value' : CanonicalValue} (h : parseCanonical one requireObject = .ok value)
    (h' : parseCanonical other requireObject' = .ok value') : value = value' := by
  obtain ⟨document, document', hok, hok', rfl, rfl, halike⟩ := hrespelled
  have hvisit := deserialize_document hok (parseCanonical_ok.1 h).1
  have hvisit' := deserialize_document hok' (parseCanonical_ok.1 h').1
  rw [visit_alike halike, hvisit'] at hvisit
  exact CanonicalValue.ext (Option.some.inj hvisit).symm

end AvenOS.ArtifactStore
