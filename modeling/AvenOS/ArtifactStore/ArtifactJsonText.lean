import AvenOS.ArtifactStore.ArtifactJson
import AvenOS.ArtifactStore.CanonicalRoundTrip
import AvenOS.Foundations.ExceptLoop

/-! # The client's canonical text

A value of the client denotes a value of the store when its strings are those of characters and the keys
of its objects are distinct. The canonical text of the one is then that of the other: scalar values are
ordered as characters are. -/
namespace AvenOS.ArtifactStore.Client
open Json OrderedEntries StableSort ExceptLoop

/-! ## The value of the store -/

def unitsString (units : List ℕ) : Option String :=
  if ∀ u ∈ units, u < 0x10000 then (decodeUtf16 units).map String.ofList else none

theorem unitsString_some {units : List ℕ} {text : String} (h : unitsString units = some text) :
    units = unitsOf text.toList := by
  obtain ⟨hunits, hdecode⟩ := Option.ite_none_right_eq_some.mp h
  obtain ⟨chars, hchars, rfl⟩ := Option.map_eq_some_iff.mp hdecode
  rw [String.toList_ofList, unitsOf_decodeUtf16 hunits hchars]

namespace ArtifactJson

mutual

/-- What a value is in the store, if it is anything there. -/
def tree : ArtifactJson → Option CanonicalTree
  | .null => some .null
  | .boolean value => some (.bool value)
  | .number value => some (.integer value)
  | .string units => (unitsString units).map .string
  | .array values => (treeAll values).map .array
  | .object members => (treeEach members).bind fun entries => (insertAll [] entries).map .object

def treeAll : List ArtifactJson → Option (List CanonicalTree)
  | [] => some []
  | value :: values => value.tree.bind fun item => (treeAll values).map fun items => item :: items

def treeEach : List (List ℕ × ArtifactJson) → Option (List (String × CanonicalTree))
  | [] => some []
  | (key, value) :: members =>
    (unitsString key).bind fun key => value.tree.bind fun item =>
      (treeEach members).map fun entries => (key, item) :: entries

end

end ArtifactJson

/-! ## Strings -/

theorem quotedPiece_high {c : Char} (h : ¬ c.toNat < 0x10000) : quotedPiece c = .plain c := by
  refine quotedPiece_plain (by omega) ?_
  rintro (rfl | rfl) <;> exact absurd (by decide) h

theorem stringifyUnits_utf16 (c : Char) (rest : List ℕ) :
    stringifyUnits (utf16 c ++ rest) = (quotedPiece c).text ++ stringifyUnits rest := by
  have hvalid := toNat_valid c
  unfold utf16
  by_cases hsmall : c.toNat < 0x10000
  · rw [if_pos hsmall, List.singleton_append, stringifyUnits.eq_def]
    have hhigh : isHigh c.toNat = false := by simp [isHigh]; omega
    have hlow : isLow c.toNat = false := by simp [isLow]; omega
    simp [hhigh, hlow]
  · rw [if_neg hsmall, List.cons_append, List.singleton_append, stringifyUnits.eq_def]
    have hhigh : isHigh (0xD800 + (c.toNat - 0x10000) / 0x400) = true := by simp [isHigh]; omega
    have hlow : isLow (0xDC00 + (c.toNat - 0x10000) % 0x400) = true := by simp [isLow]; omega
    have hvalue : 0x10000 + (0xD800 + (c.toNat - 0x10000) / 0x400 - 0xD800) * 0x400 +
        (0xDC00 + (c.toNat - 0x10000) % 0x400 - 0xDC00) = c.toNat := by omega
    dsimp only
    rw [if_pos hhigh, if_pos hlow, hvalue, Char.ofNat_toNat, quotedPiece_high hsmall]
    rfl

theorem stringifyUnits_unitsOf (text : Text) : stringifyUnits (unitsOf text) = piecesText (quotedPieces text) := by
  induction text with
  | nil => rfl
  | cons c text ih =>
    have hunits : unitsOf (c :: text) = utf16 c ++ unitsOf text := by simp [unitsOf]
    rw [hunits, stringifyUnits_utf16, ih]
    simp [piecesText, quotedPieces]

theorem stringify_unitsOf (text : Text) : stringify (unitsOf text) = quote text := by
  rw [stringify, stringifyUnits_unitsOf, quote]

/-! ## The order of keys -/

theorem codePoints_utf16 (c : Char) (rest : List ℕ) : codePoints (utf16 c ++ rest) = c.toNat :: codePoints rest := by
  have hvalid := toNat_valid c
  unfold utf16
  by_cases hsmall : c.toNat < 0x10000
  · rw [if_pos hsmall, List.singleton_append, codePoints.eq_def]
    have hhigh : isHigh c.toNat = false := by simp [isHigh]; omega
    simp [hhigh]
  · rw [if_neg hsmall, List.cons_append, List.singleton_append, codePoints.eq_def]
    have hhigh : isHigh (0xD800 + (c.toNat - 0x10000) / 0x400) = true := by simp [isHigh]; omega
    have hlow : isLow (0xDC00 + (c.toNat - 0x10000) % 0x400) = true := by simp [isLow]; omega
    have hvalue : 0x10000 + (0xD800 + (c.toNat - 0x10000) / 0x400 - 0xD800) * 0x400 +
        (0xDC00 + (c.toNat - 0x10000) % 0x400 - 0xDC00) = c.toNat := by omega
    dsimp only
    rw [if_pos hhigh, if_pos hlow, hvalue]

theorem codePoints_unitsOf (text : Text) : codePoints (unitsOf text) = text.map Char.toNat := by
  induction text with
  | nil => rfl
  | cons c text ih =>
    have hunits : unitsOf (c :: text) = utf16 c ++ unitsOf text := by simp [unitsOf]
    rw [hunits, codePoints_utf16, ih, List.map_cons]

theorem comparePoints_eq (left right : List ℕ) : comparePoints left right = compare left right := by
  fun_induction comparePoints left right with
  | case1 => rfl
  | case2 => rfl
  | case3 => rfl
  | case4 left lefts right rights hlt =>
    rw [List.compare_eq_compareLex, List.compareLex_cons_cons, Nat.compare_eq_lt.mpr hlt]
    rfl
  | case5 left lefts right rights hlt hgt =>
    rw [List.compare_eq_compareLex, List.compareLex_cons_cons, Nat.compare_eq_gt.mpr hgt]
    rfl
  | case6 left lefts right rights hlt hgt ih =>
    have heq : left = right := by omega
    rw [ih, List.compare_eq_compareLex, List.compareLex_cons_cons, Nat.compare_eq_eq.mpr heq]
    rfl

instance transCmp_compareScalarStrings : Std.TransCmp compareScalarStrings := by
  have heq : compareScalarStrings = fun left right => compare (codePoints left) (codePoints right) := by
    funext left right
    exact comparePoints_eq _ _
  rw [heq]
  exact transCmp_on compare codePoints

theorem comparePoints_lt {left right : Text} (h : left < right) :
    comparePoints (left.map Char.toNat) (right.map Char.toNat) = .lt := by
  induction left generalizing right with
  | nil =>
    cases right with
    | nil => exact absurd h (List.not_lt_nil _)
    | cons d right => rfl
  | cons c left ih =>
    cases right with
    | nil => exact absurd h (List.not_lt_nil _)
    | cons d right =>
      rw [List.map_cons, List.map_cons, comparePoints]
      rcases List.cons_lt_cons_iff.mp h with hlt | ⟨rfl, hrest⟩
      · have hnat : c.toNat < d.toNat := hlt
        rw [if_pos hnat]
      · rw [if_neg (lt_irrefl _), if_neg (lt_irrefl _), ih hrest]

theorem compareScalarStrings_lt {left right : String} (h : left < right) :
    compareScalarStrings (unitsOf left.toList) (unitsOf right.toList) = .lt := by
  rw [compareScalarStrings, codePoints_unitsOf, codePoints_unitsOf]
  exact comparePoints_lt (String.lt_iff_toList_lt.mp h)

def entryText (entry : String × CanonicalTree) : List ℕ × Text :=
  (unitsOf entry.1.toList, entry.2.writeCanonical)

theorem sortBy_entries {entries sorted : List (String × CanonicalTree)} (hperm : entries.Perm sorted)
    (hordered : Ordered sorted) :
    sortBy (fun left right => compareScalarStrings left.1 right.1) (entries.map entryText) = sorted.map entryText := by
  have : Std.TransCmp fun left right : List ℕ × Text => compareScalarStrings left.1 right.1 :=
    transCmp_on compareScalarStrings Prod.fst
  have hpairwise := sortBy_pairwise (fun left right : List ℕ × Text =>
    compareScalarStrings left.1 right.1) (entries.map entryText)
  have hsame : (sortBy (fun left right : List ℕ × Text => compareScalarStrings left.1 right.1)
      (entries.map entryText)).Perm (sorted.map entryText) :=
    (sortBy_perm _ _).trans (hperm.map _)
  have hless : ∀ one ∈ sorted, ∀ other ∈ sorted, one.1 < other.1 →
      compareScalarStrings (entryText one).1 (entryText other).1 = .lt :=
    fun one _ other _ hlt => compareScalarStrings_lt hlt
  refine hsame.eq_of_pairwise (fun a b ha hb hab hba => ?_) hpairwise ?_
  · obtain ⟨one, hone, rfl⟩ := List.mem_map.mp (hsame.mem_iff.mp ha)
    obtain ⟨other, hother, rfl⟩ := List.mem_map.mp hb
    rcases lt_trichotomy one.1 other.1 with hlt | heq | hgt
    · have hgt := Std.OrientedCmp.gt_of_lt (hless one hone other hother hlt)
      rw [hgt] at hba
      cases hba
    · rw [List.inj_on_of_nodup_map hordered.nodup hone hother heq]
    · have hgt := Std.OrientedCmp.gt_of_lt (hless other hother one hone hgt)
      rw [hgt] at hab
      cases hab
  · rw [List.pairwise_map]
    refine (List.pairwise_map.mp hordered).imp fun {one other} hlt => ?_
    have hcompare : compareScalarStrings (entryText one).1 (entryText other).1 = .lt := compareScalarStrings_lt hlt
    rw [hcompare]
    rfl

/-! ## Texts -/

theorem writeItems_intercalate (value : CanonicalTree) (values : List CanonicalTree) :
    value.writeCanonical ++ CanonicalTree.writeItems values =
      List.intercalate [','] ((value :: values).map CanonicalTree.writeCanonical) ++ [']'] := by
  induction values generalizing value with
  | nil => simp [CanonicalTree.writeItems, List.intercalate]
  | cons next values ih =>
    rw [CanonicalTree.writeItems, ih, List.map_cons, List.map_cons, List.map_cons, List.intercalate_cons_cons]
    simp

def memberText (entry : List ℕ × Text) : Text := stringify entry.1 ++ ':' :: entry.2

theorem memberText_entry (entry : String × CanonicalTree) :
    memberText (entryText entry) = quote entry.1.toList ++ ':' :: entry.2.writeCanonical := by
  rw [memberText, entryText, stringify_unitsOf]

theorem writeMembers_intercalate (key : String) (value : CanonicalTree) (members : List (String × CanonicalTree)) :
    quote key.toList ++ ':' :: (value.writeCanonical ++ CanonicalTree.writeMembers members) =
      List.intercalate [','] (((key, value) :: members).map fun entry => memberText (entryText entry)) ++ ['}'] := by
  induction members generalizing key value with
  | nil => simp [CanonicalTree.writeMembers, List.intercalate, memberText_entry]
  | cons next members ih =>
    obtain ⟨name, item⟩ := next
    have hfirst := memberText_entry (key, value)
    rw [CanonicalTree.writeMembers, ih, List.map_cons, List.map_cons, List.map_cons, List.intercalate_cons_cons, hfirst]
    simp

theorem safeEach_iff {members : List (String × CanonicalTree)} :
    CanonicalTree.SafeEach members ↔ ∀ entry ∈ members, entry.2.Safe := by
  induction members with
  | nil => exact ⟨fun _ _ h => (by cases h), fun _ => trivial⟩
  | cons entry members ih =>
    rw [List.forall_mem_cons, ← ih]
    exact Iff.rfl

/-! ## The text of a value -/

mutual

theorem text_of_tree (value : ArtifactJson) {tree : CanonicalTree} (h : value.tree = some tree)
    (hsafe : tree.Safe) : canonicalArtifactJsonText value = .ok tree.writeCanonical := by
  cases value with
  | null => cases h; rfl
  | boolean value => cases h; cases value <;> rfl
  | number value =>
    cases h
    have hrange : -maxSafeInteger ≤ value ∧ value ≤ maxSafeInteger := hsafe
    rw [canonicalArtifactJsonText, if_pos hrange]
    cases value <;> rfl
  | string units =>
    obtain ⟨text, htext, rfl⟩ := Option.map_eq_some_iff.mp h
    rw [canonicalArtifactJsonText, unitsString_some htext, stringify_unitsOf]
    rfl
  | array values =>
    obtain ⟨items, hitems, rfl⟩ := Option.map_eq_some_iff.mp h
    rw [canonicalArtifactJsonText, itemTexts_of_tree values hitems hsafe]
    cases items with
    | nil => rfl
    | cons item items =>
      rw [CanonicalTree.writeCanonical, writeItems_intercalate]
      rfl
  | object members =>
    obtain ⟨entries, hentries, hinsert⟩ := Option.bind_eq_some_iff.mp h
    obtain ⟨sorted, hsorted, rfl⟩ := Option.map_eq_some_iff.mp hinsert
    obtain ⟨hperm, hordered⟩ := (insertAll_iff ordered_nil).mp hsorted
    have hall : ∀ entry ∈ entries, entry.2.Safe := fun entry hentry =>
      safeEach_iff.1 hsafe entry (hperm.mem_iff.mp hentry)
    have hsort := sortBy_entries (show entries.Perm sorted from hperm) hordered
    rw [canonicalArtifactJsonText, memberTexts_of_tree members hentries hall]
    simp only [Except.map, hsort, List.map_map]
    cases sorted with
    | nil => rfl
    | cons entry sorted =>
      obtain ⟨key, item⟩ := entry
      rw [CanonicalTree.writeCanonical, writeMembers_intercalate]
      rfl

theorem itemTexts_of_tree (values : List ArtifactJson) {items : List CanonicalTree}
    (h : ArtifactJson.treeAll values = some items) (hsafe : CanonicalTree.SafeAll items) :
    itemTexts values = .ok (items.map CanonicalTree.writeCanonical) := by
  cases values with
  | nil => cases h; rfl
  | cons value values =>
    obtain ⟨item, hitem, hrest⟩ := Option.bind_eq_some_iff.mp h
    obtain ⟨others, hothers, rfl⟩ := Option.map_eq_some_iff.mp hrest
    rw [itemTexts, text_of_tree value hitem hsafe.1, itemTexts_of_tree values hothers hsafe.2]
    rfl

theorem memberTexts_of_tree (members : List (List ℕ × ArtifactJson))
    {entries : List (String × CanonicalTree)} (h : ArtifactJson.treeEach members = some entries)
    (hsafe : ∀ entry ∈ entries, entry.2.Safe) : memberTexts members = .ok (entries.map entryText) := by
  cases members with
  | nil => cases h; rfl
  | cons member members =>
    obtain ⟨key, value⟩ := member
    obtain ⟨name, hname, hvalue⟩ := Option.bind_eq_some_iff.mp h
    obtain ⟨item, hitem, hrest⟩ := Option.bind_eq_some_iff.mp hvalue
    obtain ⟨others, hothers, rfl⟩ := Option.map_eq_some_iff.mp hrest
    rw [List.forall_mem_cons] at hsafe
    rw [memberTexts, text_of_tree value hitem hsafe.1, memberTexts_of_tree members hothers hsafe.2,
      unitsString_some hname]
    rfl

end

theorem canonicalArtifactJson_tree {value : ArtifactJson} {canonical : CanonicalValue}
    (h : value.tree = some canonical.tree) (hsafe : canonical.tree.Safe) :
    canonicalArtifactJson value = .ok canonical.canonicalBytes := by
  rw [canonicalArtifactJson, text_of_tree value h hsafe]
  rfl

end AvenOS.ArtifactStore.Client
