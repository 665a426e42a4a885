import AvenOS.ActorRunner.PlanRun
import AvenOS.Foundations.CompactJson
import Mathlib.Data.List.Pairwise

/-! # The hash of a command

What a start binds its idempotency key to. The text that is hashed lists the members of an object in the
order of `localeCompare`, which says of some different names that they are equal; where it does not, two
materials have one text if and only if they are equal as JSON values. -/
namespace AvenOS.ActorRunner
open Actors Json StableSort

/-- What a process takes from its platform. -/
structure Platform where
  localeCompare : String → String → Ordering
  /-- `JSON.stringify` of a number. -/
  numberText : ℚ → String
  /-- The hexadecimal digest of a text. -/
  sha256 : Text → String

section Hash
variable (platform : Platform)

def Platform.compareNames {α : Type} (left right : String × α) : Ordering :=
  platform.localeCompare left.1 right.1

mutual

/-- What is not portable is not hashed. -/
def stableJson : JsValue → Text
  | .null => ['n', 'u', 'l', 'l']
  | .bool true => ['t', 'r', 'u', 'e']
  | .bool false => ['f', 'a', 'l', 's', 'e']
  | .num value => (platform.numberText value).toList
  | .str value => quote value.toList
  | .arr items => '[' :: (commas (stableItems items) ++ [']'])
  | .obj fields =>
    '{' :: (commas ((sortBy platform.compareNames (stableFields fields)).map fun field =>
      quote field.1.toList ++ ':' :: field.2) ++ ['}'])
  | .foreign _ => ['u', 'n', 'd', 'e', 'f', 'i', 'n', 'e', 'd']

def stableItems : List JsValue → List Text
  | [] => []
  | item :: items => stableJson item :: stableItems items

def stableFields : List (String × JsValue) → List (String × Text)
  | [] => []
  | (key, item) :: fields => (key, stableJson item) :: stableFields fields

end

def material (request : PlanRunStartRequest) : JsValue :=
  .obj ([("protocol", .str request.protocol), ("skillRef", .str request.skillRef),
      ("executionEnvironment", .str request.executionEnvironment.text),
      ("ingredients", request.ingredients), ("goals", request.goals)] ++
    (request.goalSpec.map fun goalSpec => ("goalSpec", JsValue.obj goalSpec)).toList ++
    [("parameters", .obj request.parameters)])

def materialHash (request : PlanRunStartRequest) : String :=
  platform.sha256 (stableJson platform (material request))

end Hash

/-! ## Equal as JSON values -/

mutual

/-- The members of an object may come in any order. -/
def sameJson : JsValue → JsValue → Bool
  | .null, .null => true
  | .bool value, .bool other => value == other
  | .num value, .num other => value == other
  | .str value, .str other => value == other
  | .arr items, .arr others => sameItems items others
  | .obj fields, .obj others => fields.length == others.length && sameFields fields others
  | _, _ => false

def sameItems : List JsValue → List JsValue → Bool
  | [], [] => true
  | item :: items, other :: others => sameJson item other && sameItems items others
  | _, _ => false

/-- Every member has its like under the same name. -/
def sameFields : List (String × JsValue) → List (String × JsValue) → Bool
  | [], _ => true
  | (key, item) :: fields, others =>
    (match others.lookup key with
      | some other => sameJson item other
      | none => false) && sameFields fields others

end

/-- Commands that may share an idempotency key. -/
def sameMaterial (request other : PlanRunStartRequest) : Bool :=
  sameJson (material request) (material other)

/-! ## Names that are told apart -/

section Apart
variable (platform : Platform)

mutual

/-- `localeCompare` tells the names of every object apart. -/
def NamesApart : JsValue → Prop
  | .arr items => ItemsApart items
  | .obj fields =>
    (fields.map Prod.fst).Pairwise (fun key other => platform.localeCompare key other ≠ .eq) ∧
      FieldsApart fields
  | _ => True

def ItemsApart : List JsValue → Prop
  | [] => True
  | item :: items => NamesApart item ∧ ItemsApart items

def FieldsApart : List (String × JsValue) → Prop
  | [] => True
  | (_, item) :: fields => NamesApart item ∧ FieldsApart fields

end

end Apart

mutual

/-- No object has two members of one name. -/
def NamesDistinct : JsValue → Prop
  | .arr items => ItemsDistinct items
  | .obj fields => (fields.map Prod.fst).Nodup ∧ FieldsDistinct fields
  | _ => True

def ItemsDistinct : List JsValue → Prop
  | [] => True
  | item :: items => NamesDistinct item ∧ ItemsDistinct items

def FieldsDistinct : List (String × JsValue) → Prop
  | [] => True
  | (_, item) :: fields => NamesDistinct item ∧ FieldsDistinct fields

end

mutual

/-- Nothing in it is not JSON. -/
def Portable : JsValue → Prop
  | .arr items => PortableItems items
  | .obj fields => PortableFields fields
  | .foreign _ => False
  | _ => True

def PortableItems : List JsValue → Prop
  | [] => True
  | item :: items => Portable item ∧ PortableItems items

def PortableFields : List (String × JsValue) → Prop
  | [] => True
  | (_, item) :: fields => Portable item ∧ PortableFields fields

end

mutual

theorem assertPortable_ok (value : JsValue) {path : String}
    (h : assertPortableRunValue value path = .ok ()) : Portable value := by
  cases value with
  | arr items => exact assertPortableItems_ok items h
  | obj fields => exact assertPortableFields_ok fields h
  | foreign complaint => cases h
  | _ => trivial

theorem assertPortableItems_ok (items : List JsValue) {path : String} {index : ℕ}
    (h : assertPortableItems items path index = .ok ()) : PortableItems items := by
  cases items with
  | nil => trivial
  | cons item items =>
    rw [assertPortableItems] at h
    split at h
    · rename_i hitem
      exact ⟨assertPortable_ok item hitem, assertPortableItems_ok items h⟩
    · cases h

theorem assertPortableFields_ok (fields : List (String × JsValue)) {path : String}
    (h : assertPortableFields fields path = .ok ()) : PortableFields fields := by
  rcases fields with - | ⟨⟨key, item⟩, fields⟩
  · trivial
  · rw [assertPortableFields] at h
    split at h
    · rename_i hfield
      rw [assertPortableField] at hfield
      exact ⟨assertPortable_ok item hfield, assertPortableFields_ok fields h⟩
    · cases h

end

/-! ## One text for equal materials -/

/-- What the hash relies on: a comparator that is consistent, number tokens that tell numbers apart, and
a digest without collisions. -/
structure Platform.Reliable (platform : Platform) : Prop where
  localeCompare : Std.TransCmp platform.localeCompare
  numberText_isNumber : ∀ value, isNumber (platform.numberText value).toList = true
  numberText_injective : Function.Injective platform.numberText
  sha256_injective : Function.Injective platform.sha256

section Text
variable (platform : Platform)

mutual

def treeOf : JsValue → Tree
  | .null => .null
  | .bool value => .bool value
  | .num value => .number (platform.numberText value).toList
  | .str value => .string value
  | .arr items => .array (treeItems items)
  | .obj fields => .object (sortBy platform.compareNames (treeFields fields))
  | .foreign _ => .number ['u', 'n', 'd', 'e', 'f', 'i', 'n', 'e', 'd']

def treeItems : List JsValue → List Tree
  | [] => []
  | item :: items => treeOf item :: treeItems items

def treeFields : List (String × JsValue) → List (String × Tree)
  | [] => []
  | (key, item) :: fields => (key, treeOf item) :: treeFields fields

end

theorem textMembers_eq (members : List (String × Tree)) : Tree.textMembers members =
    members.map fun member => quote member.1.toList ++ ':' :: member.2.text := by
  induction members with
  | nil => rfl
  | cons member members ih => rw [Tree.textMembers, ih, List.map_cons]

mutual

theorem stableJson_text (value : JsValue) : stableJson platform value = (treeOf platform value).text := by
  cases value with
  | null | num | str | foreign => rw [stableJson, treeOf, Tree.text]
  | bool value => cases value <;> rw [stableJson, treeOf, Tree.text]
  | arr items => rw [stableJson, treeOf, Tree.text, stableItems_text items]
  | obj fields =>
    rw [stableJson, treeOf, Tree.text, textMembers_eq, stableFields_text fields, sortBy_map, List.map_map]
    rfl

theorem stableItems_text (items : List JsValue) :
    stableItems platform items = Tree.textEach (treeItems platform items) := by
  cases items with
  | nil => rfl
  | cons item items => rw [stableItems, treeItems, Tree.textEach, stableJson_text, stableItems_text items]

theorem stableFields_text (fields : List (String × JsValue)) : stableFields platform fields =
    (treeFields platform fields).map fun member => (member.1, member.2.text) := by
  rcases fields with - | ⟨⟨key, item⟩, fields⟩
  · rfl
  · rw [stableFields, treeFields, List.map_cons, stableJson_text, stableFields_text fields]

end

theorem okMembers_iff {members : List (String × Tree)} : Tree.OkMembers members ↔ ∀ member ∈ members, member.2.Ok := by
  induction members with
  | nil => simp [Tree.OkMembers]
  | cons member members ih => simp [Tree.OkMembers, ih]

variable {platform}

mutual

theorem treeOf_ok (hplatform : platform.Reliable) (value : JsValue) (h : Portable value) :
    (treeOf platform value).Ok := by
  cases value with
  | num value => exact hplatform.numberText_isNumber value
  | arr items => exact treeItems_ok hplatform items h
  | obj fields =>
    refine okMembers_iff.2 fun member hmember => ?_
    exact okMembers_iff.1 (treeFields_ok hplatform fields h) member (mem_sortBy.1 hmember)
  | foreign complaint => exact h.elim
  | _ => trivial

theorem treeItems_ok (hplatform : platform.Reliable) (items : List JsValue) (h : PortableItems items) :
    Tree.OkEach (treeItems platform items) := by
  cases items with
  | nil => trivial
  | cons item items => exact ⟨treeOf_ok hplatform item h.1, treeItems_ok hplatform items h.2⟩

theorem treeFields_ok (hplatform : platform.Reliable) (fields : List (String × JsValue))
    (h : PortableFields fields) : Tree.OkMembers (treeFields platform fields) := by
  rcases fields with - | ⟨⟨key, item⟩, fields⟩
  · trivial
  · exact ⟨treeOf_ok hplatform item h.1, treeFields_ok hplatform fields h.2⟩

end

theorem treeFields_names (fields : List (String × JsValue)) :
    (treeFields platform fields).map Prod.fst = fields.map Prod.fst := by
  induction fields with
  | nil => rfl
  | cons field fields ih => rw [treeFields, List.map_cons, List.map_cons, ih]

theorem treeFields_length (fields : List (String × JsValue)) : (treeFields platform fields).length = fields.length := by
  rw [← List.length_map Prod.fst, treeFields_names, List.length_map]

theorem nodup_of_apart (hplatform : platform.Reliable) {names : List String}
    (h : names.Pairwise fun key other => platform.localeCompare key other ≠ .eq) : names.Nodup := by
  have := hplatform.localeCompare
  refine h.imp fun {key other} hne heq => ?_
  subst heq
  exact hne Std.ReflCmp.compare_self

mutual

theorem distinct_of_apart (hplatform : platform.Reliable) (value : JsValue) (h : NamesApart platform value) :
    NamesDistinct value := by
  cases value with
  | arr items => exact distinctItems_of_apart hplatform items h
  | obj fields => exact ⟨nodup_of_apart hplatform h.1, distinctFields_of_apart hplatform fields h.2⟩
  | _ => trivial

theorem distinctItems_of_apart (hplatform : platform.Reliable) (items : List JsValue) (h : ItemsApart platform items) :
    ItemsDistinct items := by
  cases items with
  | nil => trivial
  | cons item items => exact ⟨distinct_of_apart hplatform item h.1, distinctItems_of_apart hplatform items h.2⟩

theorem distinctFields_of_apart (hplatform : platform.Reliable) (fields : List (String × JsValue))
    (h : FieldsApart platform fields) : FieldsDistinct fields := by
  rcases fields with - | ⟨⟨key, item⟩, fields⟩
  · trivial
  · exact ⟨distinct_of_apart hplatform item h.1, distinctFields_of_apart hplatform fields h.2⟩

end

variable {fields : List (String × JsValue)} {key : String}

theorem mem_treeFields (hnodup : (fields.map Prod.fst).Nodup) {tree : Tree} : (key, tree) ∈ treeFields platform fields ↔
      ∃ item, fields.lookup key = some item ∧ treeOf platform item = tree := by
  induction fields with
  | nil => simp [treeFields]
  | cons field fields ih =>
    obtain ⟨name, item⟩ := field
    obtain ⟨hnew, hrest⟩ := List.nodup_cons.mp hnodup
    rw [treeFields, List.mem_cons, ih hrest, List.lookup_cons]
    by_cases hkey : key = name
    · subst hkey
      have hnone : fields.lookup key = none := List.lookup_eq_none_iff.mpr fun field hfield => by
        refine bne_iff_ne.mpr ?_
        rintro rfl
        exact hnew (List.mem_map.mpr ⟨field, hfield, rfl⟩)
      simp [hnone, eq_comm]
    · have hbeq : (key == name) = false := beq_eq_false_iff_ne.mpr hkey
      simp [hkey, hbeq]

theorem lookup_field {item : JsValue} (h : fields.lookup key = some item) (hportable : PortableFields fields)
    (hdistinct : FieldsDistinct fields) : Portable item ∧ NamesDistinct item := by
  induction fields with
  | nil => cases h
  | cons field fields ih =>
    obtain ⟨name, first⟩ := field
    rw [List.lookup_cons] at h
    cases hkey : key == name with
    | true =>
      rw [hkey] at h
      cases h
      exact ⟨hportable.1, hdistinct.1⟩
    | false =>
      rw [hkey] at h
      exact ih h hportable.2 hdistinct.2

theorem sortBy_treeFields (hplatform : platform.Reliable) {others : List (String × JsValue)}
    (hapart : (fields.map Prod.fst).Pairwise fun key other => platform.localeCompare key other ≠ .eq) :
    sortBy platform.compareNames (treeFields platform fields) =
        sortBy platform.compareNames (treeFields platform others) ↔ fields.length = others.length ∧
        ∀ member ∈ treeFields platform fields, member ∈ treeFields platform others := by
  have := hplatform.localeCompare
  have : Std.TransCmp (platform.compareNames (α := Tree)) := transCmp_on platform.localeCompare Prod.fst
  have hnames : (treeFields platform fields).map Prod.fst = fields.map Prod.fst := treeFields_names fields
  have hnodup : (treeFields platform fields).Nodup :=
    List.Nodup.of_map Prod.fst (hnames ▸ nodup_of_apart hplatform hapart)
  constructor
  · intro h
    have hperm : (treeFields platform fields).Perm (treeFields platform others) := by
      refine (sortBy_perm platform.compareNames _).symm.trans ?_
      rw [h]
      exact sortBy_perm _ _
    refine ⟨?_, fun member hmember => hperm.mem_iff.mp hmember⟩
    rw [← treeFields_length, hperm.length_eq, treeFields_length]
  · rintro ⟨hlength, hsubset⟩
    have hperm : (treeFields platform fields).Perm (treeFields platform others) := by
      refine (List.subperm_of_subset hnodup hsubset).perm_of_length_le ?_
      rw [treeFields_length, treeFields_length, hlength]
    refine sortBy_eq_of_perm _ hperm fun one hone other hother heq => ?_
    -- different members have different names, which are told apart
    by_contra hne
    have hpairwise := List.pairwise_map.mp (hnames.symm ▸ hapart)
    have : Std.Symm fun one other : String × Tree => platform.localeCompare one.1 other.1 ≠ .eq :=
      ⟨fun _ _ hne heq => hne (Std.OrientedCmp.eq_symm heq)⟩
    exact hpairwise.forall hone hother hne heq

mutual

theorem treeOf_eq_iff (hplatform : platform.Reliable) (value other : JsValue) (hvalue : Portable value)
    (hother : Portable other) (hapart : NamesApart platform value) (hdistinct : NamesDistinct other) :
    treeOf platform value = treeOf platform other ↔ sameJson value other = true := by
  cases value with
  | foreign complaint => exact hvalue.elim
  | num value =>
    cases other with
    | num other =>
      simp only [treeOf, sameJson, Tree.number.injEq, beq_iff_eq]
      exact ⟨fun h => hplatform.numberText_injective (String.toList_injective h), fun h => by rw [h]⟩
    | foreign complaint => exact hother.elim
    | _ => simp [treeOf, sameJson]
  | arr items =>
    cases other with
    | arr others =>
      simp only [treeOf, sameJson, Tree.array.injEq]
      exact treeItems_eq_iff hplatform items others hvalue hother hapart hdistinct
    | _ => simp [treeOf, sameJson]
  | obj fields =>
    cases other with
    | obj others =>
      simp only [treeOf, sameJson, Tree.object.injEq, Bool.and_eq_true, beq_iff_eq]
      rw [sortBy_treeFields hplatform hapart.1,
        treeFields_subset_iff hplatform fields others hvalue hother hapart.2 hdistinct]
    | _ => simp [treeOf, sameJson]
  | null | bool | str =>
    cases other with
    | foreign complaint => exact hother.elim
    | _ => simp [treeOf, sameJson]

theorem treeItems_eq_iff (hplatform : platform.Reliable) (items others : List JsValue)
    (hitems : PortableItems items) (hothers : PortableItems others)
    (hapart : ItemsApart platform items) (hdistinct : ItemsDistinct others) :
    treeItems platform items = treeItems platform others ↔ sameItems items others = true := by
  cases items with
  | nil => cases others <;> simp [treeItems, sameItems]
  | cons item items =>
    cases others with
    | nil => simp [treeItems, sameItems]
    | cons other others =>
      rw [treeItems, treeItems, List.cons.injEq, sameItems, Bool.and_eq_true,
        treeOf_eq_iff hplatform item other hitems.1 hothers.1 hapart.1 hdistinct.1,
        treeItems_eq_iff hplatform items others hitems.2 hothers.2 hapart.2 hdistinct.2]

theorem treeFields_subset_iff (hplatform : platform.Reliable) (fields others : List (String × JsValue))
    (hfields : PortableFields fields) (hothers : PortableFields others)
    (hapart : FieldsApart platform fields) (hdistinct : NamesDistinct (.obj others)) :
    (∀ member ∈ treeFields platform fields, member ∈ treeFields platform others) ↔ sameFields fields others = true := by
  rcases fields with - | ⟨⟨key, item⟩, fields⟩
  · simp [treeFields, sameFields]
  · rw [treeFields, List.forall_mem_cons, sameFields, Bool.and_eq_true, mem_treeFields hdistinct.1,
      treeFields_subset_iff hplatform fields others hfields.2 hothers hapart.2 hdistinct]
    refine and_congr_left fun _ => ?_
    cases hlookup : others.lookup key with
    | none => simp
    | some other =>
      obtain ⟨hportable, hfield⟩ := lookup_field hlookup hothers hdistinct.2
      have hsame := treeOf_eq_iff hplatform item other hfields.1 hportable hapart.1 hfield
      simp [← hsame, eq_comm]

end

theorem stableJson_eq (hplatform : platform.Reliable) {value other : JsValue} (hvalue : Portable value)
    (hother : Portable other) : stableJson platform value = stableJson platform other ↔
      treeOf platform value = treeOf platform other := by
  rw [stableJson_text, stableJson_text]
  exact ⟨Tree.text_injective (treeOf_ok hplatform _ hvalue) (treeOf_ok hplatform _ hother), fun h => by rw [h]⟩

theorem materialHash_eq_iff (hplatform : platform.Reliable) {request other : PlanRunStartRequest}
    (hrequest : Portable (material request)) (hother : Portable (material other))
    (hapart : NamesApart platform (material request)) (hdistinct : NamesDistinct (material other)) :
    materialHash platform request = materialHash platform other ↔ sameMaterial request other = true := by
  have hsame := treeOf_eq_iff hplatform _ _ hrequest hother hapart hdistinct
  rw [sameMaterial, ← hsame, materialHash, materialHash, hplatform.sha256_injective.eq_iff,
    stableJson_eq hplatform hrequest hother]

end Text

theorem material_portable {request : PlanRunStartRequest} (h : request.portable = .ok ()) :
    Portable (material request) := by
  have hportable := assertPortable_ok _ h
  obtain ⟨hingredients, hgoals, hrest⟩ := hportable
  cases hgoalSpec : request.goalSpec with
  | none =>
    rw [hgoalSpec] at hrest
    simp only [material, hgoalSpec]
    exact ⟨trivial, trivial, trivial, hingredients, hgoals, hrest.1, trivial⟩
  | some goalSpec =>
    rw [hgoalSpec] at hrest
    simp only [material, hgoalSpec]
    exact ⟨trivial, trivial, trivial, hingredients, hgoals, hrest.1, hrest.2.1, trivial⟩

end AvenOS.ActorRunner
