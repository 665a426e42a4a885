import AvenOS.Foundations.JsonStrings
import AvenOS.Foundations.OrderedEntries
import Mathlib.Data.String.Basic

/-! # Artifact JSON v1

`CanonicalValue` with its one representation, and `parse_canonical`, which reads RFC 8259 with the
nesting limit of its deserializer and visits what it reads. The text of a value is the list of its
characters, which are written as UTF-8. -/
namespace AvenOS.ArtifactStore
open Json OrderedEntries

/-- Largest integer accepted by the interoperable Artifact JSON v1 profile. -/
def maxSafeInteger : ℤ := 9007199254740991

/-! ## Values -/

/-- The shapes of a value; the members of an object are in the order they are written. -/
inductive CanonicalTree
  | null
  | bool (value : Bool)
  | integer (value : ℤ)
  | string (value : String)
  | array (values : List CanonicalTree)
  | object (members : List (String × CanonicalTree))

namespace CanonicalTree

mutual

/-- The members of every object are ordered by their keys, as in a `BTreeMap`. -/
def Sorted : CanonicalTree → Prop
  | .array values => SortedAll values
  | .object members => Ordered members ∧ SortedEach members
  | _ => True

def SortedAll : List CanonicalTree → Prop
  | [] => True
  | value :: values => value.Sorted ∧ SortedAll values

def SortedEach : List (String × CanonicalTree) → Prop
  | [] => True
  | (_, value) :: members => value.Sorted ∧ SortedEach members

end

mutual

def Safe : CanonicalTree → Prop
  | .integer value => -maxSafeInteger ≤ value ∧ value ≤ maxSafeInteger
  | .array values => SafeAll values
  | .object members => SafeEach members
  | _ => True

def SafeAll : List CanonicalTree → Prop
  | [] => True
  | value :: values => value.Safe ∧ SafeAll values

def SafeEach : List (String × CanonicalTree) → Prop
  | [] => True
  | (_, value) :: members => value.Safe ∧ SafeEach members

end

mutual

def depth : CanonicalTree → ℕ
  | .array values => depthAll values + 1
  | .object members => depthEach members + 1
  | _ => 0

def depthAll : List CanonicalTree → ℕ
  | [] => 0
  | value :: values => max value.depth (depthAll values)

def depthEach : List (String × CanonicalTree) → ℕ
  | [] => 0
  | (_, value) :: members => max value.depth (depthEach members)

end

def isObject : CanonicalTree → Bool
  | .object _ => true
  | _ => false

/-! ## Writing -/

/-- `value.to_string()`. -/
def integerText : ℤ → Text
  | .ofNat n => Nat.toDigits 10 n
  | .negSucc n => '-' :: Nat.toDigits 10 (n + 1)

mutual

/-- What `write_canonical` puts out. -/
def writeCanonical : CanonicalTree → Text
  | .null => ['n', 'u', 'l', 'l']
  | .bool true => ['t', 'r', 'u', 'e']
  | .bool false => ['f', 'a', 'l', 's', 'e']
  | .integer value => integerText value
  | .string value => quote value.toList
  | .array [] => ['[', ']']
  | .array (value :: values) => '[' :: (writeCanonical value ++ writeItems values)
  | .object [] => ['{', '}']
  | .object ((key, value) :: members) =>
    '{' :: (quote key.toList ++ ':' :: (writeCanonical value ++ writeMembers members))

/-- The items after the first, and the end of the array. -/
def writeItems : List CanonicalTree → Text
  | [] => [']']
  | value :: values => ',' :: (writeCanonical value ++ writeItems values)

def writeMembers : List (String × CanonicalTree) → Text
  | [] => ['}']
  | (key, value) :: members =>
    ',' :: (quote key.toList ++ ':' :: (writeCanonical value ++ writeMembers members))

end

end CanonicalTree

/-- A value with the one order of its members. -/
structure CanonicalValue where
  tree : CanonicalTree
  sorted : tree.Sorted

def CanonicalValue.canonicalBytes (value : CanonicalValue) : ByteArray :=
  (String.ofList value.tree.writeCanonical).toUTF8

/-! ## Visiting -/

/-- A number as the deserializer has it before it is visited. -/
inductive ParserNumber
  | f64
  | u64 (value : ℕ)
  | i64 (value : ℤ)
deriving DecidableEq, Repr

def digitsValue (digits : Text) : ℕ := Nat.ofDigitChars 10 digits 0

/-- A number with a fraction or an exponent is a float, and so is one that fits no integer, and `-0`. -/
def parserNumber (token : Text) : ParserNumber :=
  if token.any fun c => c = '.' || c = 'e' || c = 'E' then .f64
  else
    match token with
    | '-' :: digits =>
      let magnitude := digitsValue digits
      if magnitude = 0 ∨ 2 ^ 63 < magnitude then .f64 else .i64 (-magnitude)
    | digits => if digitsValue digits < 2 ^ 64 then .u64 (digitsValue digits) else .f64

def visitNumber : ParserNumber → Option CanonicalTree
  | .i64 value =>
    if -maxSafeInteger ≤ value ∧ value ≤ maxSafeInteger then some (.integer value) else none
  | .u64 value => if (value : ℤ) ≤ maxSafeInteger then some (.integer value) else none
  | .f64 => none

/-- A string whose code units are characters. -/
def stringOf (pieces : List Piece) : Option String :=
  (decodeUtf16 (piecesUnits pieces)).map String.ofList

/-- `values.entry(key)`: a key comes once. -/
def insertMember (values : List (String × CanonicalTree)) (key : Option String)
    (value : Option CanonicalTree) : Option (List (String × CanonicalTree)) :=
  key.bind fun key => value.bind fun value => insertEntry (key, value) values

mutual

def visit : Doc → Option CanonicalTree
  | .null => some .null
  | .bool value => some (.bool value)
  | .number token => visitNumber (parserNumber token)
  | .string pieces => (stringOf pieces).map .string
  | .emptyArray _ => some (.array [])
  | .array items => (visitSeq items).map .array
  | .emptyObject _ => some (.object [])
  | .object members => (visitMap [] members).map .object

def visitSeq : Items → Option (List CanonicalTree)
  | .last _ doc _ => (visit doc).map fun value => [value]
  | .more _ doc _ rest => (visit doc).bind fun value => (visitSeq rest).map fun values => value :: values

def visitMap (values : List (String × CanonicalTree)) :
    Members → Option (List (String × CanonicalTree))
  | .last _ key _ _ doc _ => insertMember values (stringOf key) (visit doc)
  | .more _ key _ _ doc _ rest =>
    (insertMember values (stringOf key) (visit doc)).bind fun values => visitMap values rest

end

/-! ## Parsing -/

/-- White space of RFC 8259. -/
def jsonSpace (c : Char) : Bool := c = ' ' || c = '\t' || c = '\n' || c = '\r'

/-- Containers that may be open at once. -/
def recursionLimit : ℕ := 127

inductive CanonicalError
  | invalid
  | rootNotObject
deriving DecidableEq, Repr

def decodeUtf8 (bytes : ByteArray) : Option Text := (String.fromUTF8? bytes).map String.toList

def deserialize (bytes : ByteArray) : Option CanonicalTree :=
  (decodeUtf8 bytes).bind fun text =>
    (read jsonSpace text).bind fun document =>
      if document.doc.depth ≤ recursionLimit then visit document.doc else none

/-! ## What is visited -/

namespace CanonicalTree

/-- A value that comes out of a document of some depth. -/
structure Fits (tree : CanonicalTree) (limit : ℕ) : Prop where
  sorted : tree.Sorted
  safe : tree.Safe
  nested : tree.depth ≤ limit

theorem Fits.mono {tree : CanonicalTree} {limit more : ℕ} (h : tree.Fits limit) (hle : limit ≤ more) :
    tree.Fits more := ⟨h.sorted, h.safe, h.nested.trans hle⟩

theorem fits_array {values : List CanonicalTree} {limit : ℕ} (h : ∀ value ∈ values, value.Fits limit) :
    (array values).Fits (limit + 1) := by
  suffices hall : SortedAll values ∧ SafeAll values ∧ depthAll values ≤ limit from
    ⟨by rw [Sorted]; exact hall.1, by rw [Safe]; exact hall.2.1, by rw [depth]; omega⟩
  induction values with
  | nil => exact ⟨trivial, trivial, Nat.zero_le _⟩
  | cons value values ih =>
    obtain ⟨hsorted, hsafe, hdepth⟩ := ih fun other hother => h other (List.mem_cons_of_mem _ hother)
    have hvalue := h value List.mem_cons_self
    exact ⟨⟨hvalue.sorted, hsorted⟩, ⟨hvalue.safe, hsafe⟩, max_le hvalue.nested hdepth⟩

theorem fits_object {members : List (String × CanonicalTree)} {limit : ℕ} (hordered : Ordered members)
    (h : ∀ entry ∈ members, entry.2.Fits limit) : (object members).Fits (limit + 1) := by
  suffices hall : SortedEach members ∧ SafeEach members ∧ depthEach members ≤ limit from
    ⟨by rw [Sorted]; exact ⟨hordered, hall.1⟩, by rw [Safe]; exact hall.2.1, by rw [depth]; omega⟩
  clear hordered
  induction members with
  | nil => exact ⟨trivial, trivial, Nat.zero_le _⟩
  | cons entry members ih =>
    obtain ⟨hsorted, hsafe, hdepth⟩ := ih fun other hother => h other (List.mem_cons_of_mem _ hother)
    have hentry := h entry List.mem_cons_self
    exact ⟨⟨hentry.sorted, hsorted⟩, ⟨hentry.safe, hsafe⟩, max_le hentry.nested hdepth⟩

end CanonicalTree

variable {tree : CanonicalTree}

theorem visitNumber_fits {number : ParserNumber} (h : visitNumber number = some tree) : tree.Fits 0 := by
  unfold visitNumber at h
  cases number with
  | i64 value =>
    obtain ⟨hrange, heq⟩ := Option.ite_none_right_eq_some.mp h
    cases heq
    exact ⟨trivial, hrange, le_refl _⟩
  | u64 value =>
    obtain ⟨hrange, heq⟩ := Option.ite_none_right_eq_some.mp h
    cases heq
    refine ⟨trivial, ⟨?_, hrange⟩, le_refl _⟩
    unfold maxSafeInteger
    omega
  | f64 => cases h

theorem insertMember_fits {values result : List (String × CanonicalTree)} {key : Option String}
    {value : Option CanonicalTree} {limit : ℕ} (hordered : Ordered values)
    (hvalues : ∀ entry ∈ values, entry.2.Fits limit) (hvalue : ∀ tree, value = some tree → tree.Fits limit)
    (h : insertMember values key value = some result) :
    Ordered result ∧ ∀ entry ∈ result, entry.2.Fits limit := by
  obtain ⟨name, -, h⟩ := Option.bind_eq_some_iff.mp h
  obtain ⟨tree, htree, h⟩ := Option.bind_eq_some_iff.mp h
  obtain ⟨-, hperm, hresult⟩ := insertEntry_some hordered h
  refine ⟨hresult, fun entry hentry => ?_⟩
  rcases List.mem_cons.mp (hperm.mem_iff.mp hentry) with rfl | hold
  · exact hvalue tree htree
  · exact hvalues entry hold

mutual

theorem visit_fits (doc : Doc) {tree : CanonicalTree} (h : visit doc = some tree) : tree.Fits doc.depth := by
  cases doc with
  | null | bool =>
    cases h
    exact ⟨trivial, trivial, le_refl _⟩
  | number => exact visitNumber_fits h
  | string =>
    obtain ⟨text, -, rfl⟩ := Option.map_eq_some_iff.mp h
    exact ⟨trivial, trivial, le_refl _⟩
  | emptyArray =>
    cases h
    exact CanonicalTree.fits_array fun value hvalue => absurd hvalue List.not_mem_nil
  | array items =>
    obtain ⟨values, hvalues, rfl⟩ := Option.map_eq_some_iff.mp h
    exact CanonicalTree.fits_array (visitSeq_fits items hvalues)
  | emptyObject =>
    cases h
    exact CanonicalTree.fits_object ordered_nil fun entry hentry => absurd hentry List.not_mem_nil
  | object members =>
    obtain ⟨values, hvalues, rfl⟩ := Option.map_eq_some_iff.mp h
    obtain ⟨hordered, hfits⟩ := visitMap_fits members ordered_nil
      (fun entry hentry => absurd hentry List.not_mem_nil) (le_refl _) hvalues
    exact CanonicalTree.fits_object hordered hfits

theorem visitSeq_fits (items : Items) {values : List CanonicalTree} (h : visitSeq items = some values) :
    ∀ value ∈ values, value.Fits items.depth := by
  cases items with
  | last before doc after =>
    obtain ⟨tree, htree, rfl⟩ := Option.map_eq_some_iff.mp h
    intro value hvalue
    rw [List.mem_singleton.mp hvalue]
    exact visit_fits doc htree
  | more before doc after rest =>
    obtain ⟨tree, htree, h⟩ := Option.bind_eq_some_iff.mp h
    obtain ⟨trees, htrees, rfl⟩ := Option.map_eq_some_iff.mp h
    intro value hvalue
    rcases List.mem_cons.mp hvalue with rfl | hrest
    · exact (visit_fits doc htree).mono (le_max_left _ _)
    · exact (visitSeq_fits rest htrees value hrest).mono (le_max_right _ _)

theorem visitMap_fits (members : Members) {values result : List (String × CanonicalTree)} {limit : ℕ}
    (hordered : Ordered values) (hvalues : ∀ entry ∈ values, entry.2.Fits limit)
    (hlimit : members.depth ≤ limit) (h : visitMap values members = some result) :
    Ordered result ∧ ∀ entry ∈ result, entry.2.Fits limit := by
  cases members with
  | last before key middle start doc after =>
    exact insertMember_fits hordered hvalues (fun tree htree => (visit_fits doc htree).mono hlimit) h
  | more before key middle start doc after rest =>
    rw [Members.depth, max_le_iff] at hlimit
    obtain ⟨next, hnext, h⟩ := Option.bind_eq_some_iff.mp h
    obtain ⟨hsorted, hfits⟩ := insertMember_fits hordered hvalues
      (fun tree htree => (visit_fits doc htree).mono hlimit.1) hnext
    exact visitMap_fits rest hsorted hfits hlimit.2 h

end

theorem deserialize_fits {bytes : ByteArray} (h : deserialize bytes = some tree) : tree.Fits recursionLimit := by
  obtain ⟨text, -, h⟩ := Option.bind_eq_some_iff.mp h
  obtain ⟨document, -, h⟩ := Option.bind_eq_some_iff.mp h
  obtain ⟨hdepth, h⟩ := Option.ite_none_right_eq_some.mp h
  exact (visit_fits document.doc h).mono hdepth

def parseCanonical (bytes : ByteArray) (requireObject : Bool) : Except CanonicalError CanonicalValue :=
  match h : deserialize bytes with
  | none => .error .invalid
  | some tree =>
    if requireObject && !tree.isObject then .error .rootNotObject
    else .ok ⟨tree, (deserialize_fits h).sorted⟩

end AvenOS.ArtifactStore
