import AvenOS.ActorRunner.SingleExecution

/-! # Canonical texts

A value has one text, in whatever order its members come, if and only if `localeCompare` tells the names of its objects
apart: where it does not, the members in the opposite order have another text. -/
namespace AvenOS.ActorRunner
open Actors Json StableSort

/-! ## The opposite order -/

mutual

def reversed : JsValue → JsValue
  | .arr items => .arr (reversedItems items)
  | .obj fields => .obj (reversedFields fields).reverse
  | value => value

def reversedItems : List JsValue → List JsValue
  | [] => []
  | item :: items => reversed item :: reversedItems items

def reversedFields : List (String × JsValue) → List (String × JsValue)
  | [] => []
  | (key, item) :: fields => (key, reversed item) :: reversedFields fields

end

theorem reversedFields_names (fields : List (String × JsValue)) :
    (reversedFields fields).map Prod.fst = fields.map Prod.fst := by
  induction fields with
  | nil => rfl
  | cons field fields ih => rw [reversedFields, List.map_cons, List.map_cons, ih]

variable {fields : List (String × JsValue)}

theorem portableFields_iff : PortableFields fields ↔ ∀ field ∈ fields, Portable field.2 := by
  induction fields with
  | nil => simp [PortableFields]
  | cons field fields ih => simp [PortableFields, ih]

theorem distinctFields_iff : FieldsDistinct fields ↔ ∀ field ∈ fields, NamesDistinct field.2 := by
  induction fields with
  | nil => simp [FieldsDistinct]
  | cons field fields ih => simp [FieldsDistinct, ih]

theorem sameFields_iff {others : List (String × JsValue)} : sameFields fields others = true ↔
    ∀ field ∈ fields, ∃ other, others.lookup field.1 = some other ∧ sameJson field.2 other = true := by
  induction fields with
  | nil => simp [sameFields]
  | cons field fields ih =>
    rw [sameFields, Bool.and_eq_true, List.forall_mem_cons, ih]
    refine and_congr_left fun _ => ?_
    cases others.lookup field.1 <;> simp

theorem lookup_member (hnodup : (fields.map Prod.fst).Nodup) {field : String × JsValue} (h : field ∈ fields) :
    fields.lookup field.1 = some field.2 := by
  induction fields with
  | nil => cases h
  | cons first fields ih =>
    obtain ⟨hnew, hrest⟩ := List.nodup_cons.mp hnodup
    rcases List.mem_cons.mp h with rfl | h
    · exact List.lookup_cons_self
    · have hne : (field.1 == first.1) = false := beq_eq_false_iff_ne.mpr fun hkey =>
        hnew (hkey ▸ List.mem_map_of_mem h)
      rw [List.lookup_cons, hne]
      exact ih hrest h

mutual

theorem reversed_same (value : JsValue) (hvalue : Portable value) (hdistinct : NamesDistinct value) :
    Portable (reversed value) ∧ NamesDistinct (reversed value) ∧ sameJson value (reversed value) = true := by
  cases value with
  | arr items => exact reversedItems_same items hvalue hdistinct
  | obj fields =>
    obtain ⟨hportable, hfields, hsame⟩ := reversedFields_same fields hvalue hdistinct.2
    have hnames : ((reversedFields fields).reverse.map Prod.fst).Nodup := by
      rw [List.map_reverse, reversedFields_names, List.nodup_reverse]
      exact hdistinct.1
    refine ⟨?_, ⟨hnames, ?_⟩, ?_⟩
    · exact portableFields_iff.2 fun field hfield => portableFields_iff.1 hportable field (List.mem_reverse.mp hfield)
    · exact distinctFields_iff.2 fun field hfield => distinctFields_iff.1 hfields field (List.mem_reverse.mp hfield)
    · have hlength : fields.length = (reversedFields fields).reverse.length := by
        rw [List.length_reverse, ← List.length_map (f := Prod.fst), ← List.length_map (f := Prod.fst), reversedFields_names]
      rw [reversed, sameJson, Bool.and_eq_true, beq_iff_eq, sameFields_iff]
      refine ⟨hlength, fun field hfield => ?_⟩
      obtain ⟨other, hother, hsame⟩ := hsame field hfield
      exact ⟨other, lookup_member hnames (List.mem_reverse.mpr hother), hsame⟩
  | foreign complaint => exact hvalue.elim
  | _ => exact ⟨trivial, trivial, by simp [reversed, sameJson]⟩

theorem reversedItems_same (items : List JsValue) (hitems : PortableItems items) (hdistinct : ItemsDistinct items) :
    PortableItems (reversedItems items) ∧ ItemsDistinct (reversedItems items) ∧
      sameItems items (reversedItems items) = true := by
  cases items with
  | nil => exact ⟨trivial, trivial, rfl⟩
  | cons item items =>
    obtain ⟨hportable, hnames, hsame⟩ := reversed_same item hitems.1 hdistinct.1
    obtain ⟨hportables, hrest, hsames⟩ := reversedItems_same items hitems.2 hdistinct.2
    exact ⟨⟨hportable, hportables⟩, ⟨hnames, hrest⟩, by rw [reversedItems, sameItems, hsame, hsames]; rfl⟩

theorem reversedFields_same (fields : List (String × JsValue)) (hfields : PortableFields fields)
    (hdistinct : FieldsDistinct fields) :
    PortableFields (reversedFields fields) ∧ FieldsDistinct (reversedFields fields) ∧
      ∀ field ∈ fields, ∃ other, (field.1, other) ∈ reversedFields fields ∧ sameJson field.2 other = true := by
  rcases fields with - | ⟨⟨key, item⟩, fields⟩
  · exact ⟨trivial, trivial, fun _ h => by cases h⟩
  · obtain ⟨hportable, hnames, hsame⟩ := reversed_same item hfields.1 hdistinct.1
    obtain ⟨hportables, hrest, hsames⟩ := reversedFields_same fields hfields.2 hdistinct.2
    refine ⟨⟨hportable, hportables⟩, ⟨hnames, hrest⟩, fun field hfield => ?_⟩
    rcases List.mem_cons.mp hfield with rfl | hfield
    · exact ⟨reversed item, List.mem_cons_self, hsame⟩
    · obtain ⟨other, hother, hsame⟩ := hsames field hfield
      exact ⟨other, List.mem_cons_of_mem _ hother, hsame⟩

end

/-! ## Texts in the opposite order -/

section Canonical
variable {platform : Platform}

theorem treeFields_eq_map (fields : List (String × JsValue)) :
    treeFields platform fields = fields.map fun field => (field.1, treeOf platform field.2) := by
  induction fields with
  | nil => rfl
  | cons field fields ih => rw [treeFields, List.map_cons, ih]

variable {fields others : List (String × JsValue)}

/-- Members of the same distinct names in one order. -/
theorem treeFields_agree (hnames : others.map Prod.fst = fields.map Prod.fst) (hnodup : (fields.map Prod.fst).Nodup)
    (hperm : (treeFields platform fields).Perm (treeFields platform others)) :
    treeFields platform fields = treeFields platform others := by
  have hkeys : (treeFields platform others).map Prod.fst = (treeFields platform fields).map Prod.fst := by
    rw [treeFields_names, treeFields_names, hnames]
  have hnodup' : ((treeFields platform fields).map Prod.fst).Nodup := @treeFields_names platform fields ▸ hnodup
  refine List.ext_getElem hperm.length_eq fun i hi hi' => ?_
  have hmem : (treeFields platform others)[i] ∈ treeFields platform fields := hperm.mem_iff.mpr (List.getElem_mem hi')
  have hkey : (treeFields platform others)[i].1 = (treeFields platform fields)[i].1 := by
    have h := congrArg (fun names => names[i]?) hkeys
    simpa [hi, hi'] using h
  exact List.inj_on_of_nodup_map hnodup' (List.getElem_mem hi) hmem hkey.symm

theorem treeFields_reversed (hplatform : platform.Reliable) (hnames : others.map Prod.fst = fields.map Prod.fst)
    (hnodup : (fields.map Prod.fst).Nodup) (h : sortBy platform.compareNames (treeFields platform fields) =
      sortBy platform.compareNames (treeFields platform others.reverse)) :
    treeFields platform fields = treeFields platform others ∧
      (fields.map Prod.fst).Pairwise fun key other => platform.localeCompare key other ≠ .eq := by
  have := hplatform.localeCompare
  have : Std.TransCmp (platform.compareNames (α := Tree)) := transCmp_on platform.localeCompare Prod.fst
  have hreverse : treeFields platform others.reverse = (treeFields platform others).reverse := by
    rw [treeFields_eq_map, treeFields_eq_map, List.map_reverse]
  rw [hreverse] at h
  have hsame := treeFields_agree hnames hnodup
    ((sortBy_perm platform.compareNames _).symm.trans (h ▸ (sortBy_perm _ _).trans (List.reverse_perm _)))
  rw [← hsame] at h
  have hmembers : (treeFields platform fields).Nodup := by
    rw [← @treeFields_names platform fields] at hnodup
    exact List.Nodup.of_map Prod.fst hnodup
  refine ⟨hsame, ?_⟩
  rw [← @treeFields_names platform fields]
  exact List.pairwise_map.mpr (apart_of_reverse platform.compareNames hmembers h)

mutual

theorem apart_of_reversed (hplatform : platform.Reliable) (value : JsValue) (hdistinct : NamesDistinct value)
    (h : treeOf platform value = treeOf platform (reversed value)) : NamesApart platform value := by
  cases value with
  | arr items =>
    rw [reversed, treeOf, treeOf, Tree.array.injEq] at h
    exact apartItems_of_reversed hplatform items hdistinct h
  | obj fields =>
    rw [reversed, treeOf, treeOf, Tree.object.injEq] at h
    obtain ⟨hsame, hapart⟩ := treeFields_reversed hplatform (reversedFields_names fields) hdistinct.1 h
    exact ⟨hapart, apartFields_of_reversed hplatform fields hdistinct.2 hsame⟩
  | _ => trivial

theorem apartItems_of_reversed (hplatform : platform.Reliable) (items : List JsValue) (hdistinct : ItemsDistinct items)
    (h : treeItems platform items = treeItems platform (reversedItems items)) : ItemsApart platform items := by
  cases items with
  | nil => trivial
  | cons item items =>
    rw [reversedItems, treeItems, treeItems, List.cons.injEq] at h
    exact ⟨apart_of_reversed hplatform item hdistinct.1 h.1, apartItems_of_reversed hplatform items hdistinct.2 h.2⟩

theorem apartFields_of_reversed (hplatform : platform.Reliable) (fields : List (String × JsValue))
    (hdistinct : FieldsDistinct fields) (h : treeFields platform fields = treeFields platform (reversedFields fields)) :
    FieldsApart platform fields := by
  rcases fields with - | ⟨⟨key, item⟩, fields⟩
  · trivial
  · rw [reversedFields, treeFields, treeFields, List.cons.injEq, Prod.mk.injEq] at h
    exact ⟨apart_of_reversed hplatform item hdistinct.1 h.1.2, apartFields_of_reversed hplatform fields hdistinct.2 h.2⟩

end

/-- A value with one text has the text of its reverse. -/
theorem canonical_iff (hplatform : platform.Reliable) {value : JsValue} (hvalue : Portable value)
    (hdistinct : NamesDistinct value) : (∀ other, Portable other → NamesDistinct other →
      (stableJson platform value = stableJson platform other ↔ sameJson value other = true)) ↔ NamesApart platform value := by
  constructor
  · intro h
    obtain ⟨hportable, hnames, hsame⟩ := reversed_same value hvalue hdistinct
    have htext := (h _ hportable hnames).2 hsame
    exact apart_of_reversed hplatform value hdistinct ((stableJson_eq hplatform hvalue hportable).1 htext)
  · intro hapart other hother hnames
    rw [stableJson_eq hplatform hvalue hother]
    exact treeOf_eq_iff hplatform value other hvalue hother hapart hnames

/-! ## Materials -/

def materialNames : List String :=
  ["protocol", "skillRef", "executionEnvironment", "ingredients", "goals", "goalSpec", "parameters"]

def reversedRequest (request : PlanRunStartRequest) : PlanRunStartRequest :=
  { request with
    ingredients := reversed request.ingredients
    goals := reversed request.goals
    goalSpec := request.goalSpec.map fun goalSpec => (reversedFields goalSpec).reverse
    parameters := (reversedFields request.parameters).reverse }

/-- The members that a caller fills. -/
def parts (request : PlanRunStartRequest) : List (String × JsValue) :=
  [("ingredients", request.ingredients), ("goals", request.goals)] ++
    (request.goalSpec.map fun goalSpec => ("goalSpec", JsValue.obj goalSpec)).toList ++ [("parameters", .obj request.parameters)]

def heads (request : PlanRunStartRequest) : List (String × JsValue) :=
  [("protocol", .str request.protocol), ("skillRef", .str request.skillRef),
    ("executionEnvironment", .str request.executionEnvironment.text)]

def members (request : PlanRunStartRequest) : List (String × JsValue) := heads request ++ parts request

section
variable (request : PlanRunStartRequest)
include request

theorem material_members : material request = .obj (members request) := by
  rw [material, members, heads, parts]
  rfl

theorem parts_reversed : parts (reversedRequest request) = reversedFields (parts request) := by
  unfold parts reversedRequest
  cases request.goalSpec <;> rfl

theorem members_reversed : members (reversedRequest request) = heads request ++ reversedFields (parts request) := by
  rw [members, parts_reversed]
  rfl

theorem members_names : ((members request).map Prod.fst).Sublist materialNames := by
  unfold members heads parts
  cases request.goalSpec with
  | none => exact (show ["protocol", "skillRef", "executionEnvironment", "ingredients", "goals", "parameters"].Sublist
      materialNames by decide)
  | some goalSpec => exact List.Sublist.refl materialNames

theorem members_nodup : ((members request).map Prod.fst).Nodup := (members_names request).nodup (by decide)

theorem reversed_names : (members (reversedRequest request)).map Prod.fst = (members request).map Prod.fst := by
  rw [members_reversed, members, List.map_append, List.map_append, reversedFields_names]

theorem reversedRequest_same (hportable : Portable (material request)) (hdistinct : NamesDistinct (material request)) :
    Portable (material (reversedRequest request)) ∧ NamesDistinct (material (reversedRequest request)) ∧
      sameMaterial request (reversedRequest request) = true := by
  rw [material_members] at hportable hdistinct
  obtain ⟨hportables, hfields, hsame⟩ := reversedFields_same (parts request) hportable.2.2.2 hdistinct.2.2.2.2
  have hnames : ((members (reversedRequest request)).map Prod.fst).Nodup := members_nodup _
  have hmembers := members_reversed request
  have hlength : (members request).length = (members (reversedRequest request)).length := by
    rw [← List.length_map (f := Prod.fst), ← reversed_names, List.length_map]
  rw [sameMaterial, material_members, material_members, sameJson, Bool.and_eq_true, beq_iff_eq, sameFields_iff]
  refine ⟨hmembers ▸ ⟨trivial, trivial, trivial, hportables⟩, ⟨hnames, hmembers ▸ ⟨trivial, trivial, trivial, hfields⟩⟩,
    hlength, fun field hfield => ?_⟩
  rcases List.mem_append.mp hfield with hhead | hpart
  · refine ⟨field.2, lookup_member hnames (hmembers ▸ List.mem_append_left _ hhead), ?_⟩
    simp only [heads, List.mem_cons, List.not_mem_nil, or_false] at hhead
    rcases hhead with rfl | rfl | rfl <;> simp [sameJson]
  · obtain ⟨other, hother, hsame⟩ := hsame field hpart
    exact ⟨other, lookup_member hnames (hmembers ▸ List.mem_append_right _ hother), hsame⟩

end

theorem material_apart (hplatform : platform.Reliable)
    (hnames : materialNames.Pairwise fun name other => platform.localeCompare name other ≠ .eq)
    {request : PlanRunStartRequest} (hdistinct : NamesDistinct (material request))
    (h : treeOf platform (material request) = treeOf platform (material (reversedRequest request))) :
    NamesApart platform (material request) := by
  rw [material_members] at hdistinct ⊢
  rw [material_members, material_members, treeOf, treeOf, Tree.object.injEq] at h
  have hperm := (sortBy_perm platform.compareNames (treeFields platform (members request))).symm.trans
    (h ▸ sortBy_perm platform.compareNames (treeFields platform (members (reversedRequest request))))
  have hagree := treeFields_agree (reversed_names request) (members_nodup request) hperm
  rw [treeFields_eq_map, treeFields_eq_map, members_reversed, members, List.map_append, List.map_append] at hagree
  have hsame := List.append_cancel_left hagree
  rw [← treeFields_eq_map, ← treeFields_eq_map] at hsame
  have hparts := apartFields_of_reversed hplatform (parts request) hdistinct.2.2.2.2 hsame
  exact ⟨hnames.sublist (members_names request), trivial, trivial, trivial, hparts⟩

end Canonical

/-- Values, and requests, have one text in all orders of their members if and only if the names of their objects are
told apart. -/
theorem stableJson_canonical {platform : Platform} (hplatform : platform.Reliable)
    (hnames : materialNames.Pairwise fun name other => platform.localeCompare name other ≠ .eq) :
    (∀ value, Portable value → NamesDistinct value → ((∀ other, Portable other → NamesDistinct other →
          (stableJson platform value = stableJson platform other ↔ sameJson value other = true)) ↔
        NamesApart platform value)) ∧
      ∀ request, Portable (material request) → NamesDistinct (material request) →
        ((∀ other, Portable (material other) → NamesDistinct (material other) →
            (materialHash platform request = materialHash platform other ↔ sameMaterial request other = true)) ↔
          NamesApart platform (material request)) := by
  refine ⟨fun value hvalue hdistinct => canonical_iff hplatform hvalue hdistinct, fun request hrequest hdistinct => ?_⟩
  constructor
  · intro h
    obtain ⟨hportable, hothers, hsame⟩ := reversedRequest_same request hrequest hdistinct
    have hhash := (h _ hportable hothers).2 hsame
    rw [materialHash, materialHash, hplatform.sha256_injective.eq_iff, stableJson_eq hplatform hrequest hportable] at hhash
    exact material_apart hplatform hnames hdistinct hhash
  · intro hapart other hother hothers
    exact materialHash_eq_iff hplatform hrequest hother hapart hothers

theorem stableJson_canonical_reading : stableJson readingPlatform (.obj [("b", .null), ("a", .str "x")]) =
      stableJson readingPlatform (.obj [("a", .str "x"), ("b", .null)]) := by
  have hnames : materialNames.Pairwise fun name other => readingPlatform.localeCompare name other ≠ .eq := by decide +kernel
  have hapart : NamesApart readingPlatform (.obj [("b", .null), ("a", .str "x")]) :=
    ⟨by decide +kernel, trivial, trivial, trivial⟩
  have hone := (stableJson_canonical readingPlatform_reliable hnames).1 (.obj [("b", .null), ("a", .str "x")])
    ⟨trivial, trivial, trivial⟩ ⟨by decide, trivial, trivial, trivial⟩
  exact (hone.2 hapart (.obj [("a", .str "x"), ("b", .null)]) ⟨trivial, trivial, trivial⟩
    ⟨by decide, trivial, trivial, trivial⟩).2 (by decide +kernel)

/-- An accent that is part of its letter or follows it. -/
theorem accented_names_keep_order : ¬ ∀ (platform : Platform), platform.Reliable → ∀ value other, Portable value →
    Portable other → NamesDistinct value → NamesDistinct other →
    (stableJson platform value = stableJson platform other ↔ sameJson value other = true) := by
  intro hall
  have htexts : sameJson (.obj accentFirst) (.obj accentFirst.reverse) = true ∧
      stableJson readingPlatform (.obj accentFirst) ≠ stableJson readingPlatform (.obj accentFirst.reverse) := by decide +kernel
  have h := hall readingPlatform readingPlatform_reliable (.obj accentFirst) (.obj accentFirst.reverse)
    ⟨trivial, trivial, trivial⟩ ⟨trivial, trivial, trivial⟩ ⟨by decide, trivial, trivial, trivial⟩
    ⟨by decide, trivial, trivial, trivial⟩
  exact htexts.2 (h.2 htexts.1)

end AvenOS.ActorRunner
