import AvenOS.Foundations.JsonPointer
import AvenOS.Foundations.NumberText

/-! # Pointers of evidence

`pointerExists` checks a pointer that a model names, and `stringLeaves` makes the pointers of the texts of a value. The check
reads some tokens that RFC 6901 has no meaning for. -/
namespace AvenOS.DocumentIngest
open Json (Tree)
open Json.Pointer

/-! ## The check -/

/-- `text.replace(/…/g, by)` for a pattern of two characters. -/
def replacePair (first second replacement : Char) : Json.Text → Json.Text
  | a :: b :: rest =>
    if a = first ∧ b = second then replacement :: replacePair first second replacement rest
    else a :: replacePair first second replacement (b :: rest)
  | short => short

def decodeKey (encoded : Json.Text) : Json.Text := replacePair '~' '0' '~' (replacePair '~' '1' '/' encoded)

def itemIndex (length : ℕ) (key : Json.Text) : Option ℕ :=
  (NumberText.number key).bind fun index =>
    if index.isInt = true ∧ 0 ≤ index ∧ index < length then some index.num.toNat else none

/-- One round of the loop. -/
def descend (current : Tree) (encoded : Json.Text) : Option Tree :=
  match current with
  | .array items => (itemIndex items.length (decodeKey encoded)).bind fun index => items[index]?
  | .object members => members.lookup (String.ofList (decodeKey encoded))
  | _ => none

def reachesSome (current : Tree) : List Json.Text → Bool
  | [] =>
    match current with
    | .null => false
    | _ => true
  | encoded :: rest =>
    match descend current encoded with
    | none => false
    | some next => reachesSome next rest

def pointerExists (value : Tree) (pointer : Json.Text) : Bool :=
  match pointer with
  | [] => false
  | c :: rest => if c = '/' then reachesSome value (rest.splitOn '/') else false

/-! ## The leaves -/

structure Leaf where
  pointer : Json.Text
  value : Json.Text
deriving DecidableEq, Repr

def replaceEach (mark : Char) (replacement : Json.Text) (text : Json.Text) : Json.Text :=
  text.flatMap fun c => if c = mark then replacement else [c]

def encodeKey (key : Json.Text) : Json.Text := replaceEach '/' ['~', '1'] (replaceEach '~' ['~', '0'] key)

def candidateLeaf (pointer : Json.Text) (text : String) : List Leaf :=
  let candidate := Text.trimChars text.toList
  if 2 ≤ (Json.unitsOf candidate).length ∧ (Json.unitsOf candidate).length ≤ 1000 then [⟨pointer, candidate⟩] else []

mutual

def leavesAt : Tree → Json.Text → List Leaf
  | .string text, pointer => candidateLeaf pointer text
  | .array items, pointer => itemLeaves items pointer 0
  | .object members, pointer => memberLeaves members pointer
  | _, _ => []

def itemLeaves : List Tree → Json.Text → ℕ → List Leaf
  | [], _, _ => []
  | item :: items, pointer, index =>
    leavesAt item (pointer ++ '/' :: Nat.toDigits 10 index) ++ itemLeaves items pointer (index + 1)

def memberLeaves : List (String × Tree) → Json.Text → List Leaf
  | [], _ => []
  | (key, child) :: members, pointer =>
    leavesAt child (pointer ++ '/' :: encodeKey key.toList) ++ memberLeaves members pointer

end

def stringLeaves (value : Tree) : List Leaf := leavesAt value []

/-! ## Values as the engine holds them -/

mutual

/-- Every key of an object once, and arrays of fewer than 2³² items. -/
def Held : Tree → Prop
  | .array items => items.length < 2 ^ 32 ∧ HeldItems items
  | .object members => (members.map Prod.fst).Nodup ∧ HeldMembers members
  | _ => True

def HeldItems : List Tree → Prop
  | [] => True
  | item :: items => Held item ∧ HeldItems items

def HeldMembers : List (String × Tree) → Prop
  | [] => True
  | (_, child) :: members => Held child ∧ HeldMembers members

end

theorem HeldItems.item {items : List Tree} (h : HeldItems items) : ∀ item ∈ items, Held item := by
  induction items with
  | nil => exact fun item hitem => absurd hitem List.not_mem_nil
  | cons first items ih =>
    intro item hitem
    rcases List.mem_cons.mp hitem with rfl | hitem
    · exact h.1
    · exact ih h.2 item hitem

variable {members : List (String × Tree)} {key : String} {child next reached value : Tree} {token : Json.Text}

theorem HeldMembers.lookup (h : HeldMembers members) (hlookup : members.lookup key = some child) : Held child := by
  induction members with
  | nil => cases hlookup
  | cons member members ih =>
    obtain ⟨name, first⟩ := member
    rw [List.lookup_cons] at hlookup
    split at hlookup
    · cases hlookup
      exact h.1
    · exact ih h.2 hlookup

variable {current : Tree} {first second replacement : Char} {tokens : List Json.Text}

theorem Held.descend {encoded : Json.Text} (h : Held current) (hnext : descend current encoded = some next) :
    Held next := by
  cases current with
  | array items =>
    obtain ⟨index, -, hitem⟩ := Option.bind_eq_some_iff.mp hnext
    exact h.2.item next (List.mem_of_getElem? hitem)
  | object members => exact h.2.lookup hnext
  | null | bool | number | string => cases hnext

/-! ## The two spellings of a key -/

theorem replacePair_cons {c : Char} (h : c ≠ first) (rest : Json.Text) :
    replacePair first second replacement (c :: rest) = c :: replacePair first second replacement rest := by
  cases rest with
  | nil => rfl
  | cons d rest => rw [replacePair, if_neg fun hboth => h hboth.1]

theorem replacePair_first {d : Char} (h : d ≠ second) (rest : Json.Text) :
    replacePair first second replacement (first :: d :: rest) =
      first :: replacePair first second replacement (d :: rest) := by
  rw [replacePair, if_neg fun hboth => h hboth.2]

theorem replacePair_pair (rest : Json.Text) : replacePair first second replacement (first :: second :: rest) =
      replacement :: replacePair first second replacement rest := by
  rw [replacePair, if_pos ⟨rfl, rfl⟩]

theorem decodeKey_unescape {key : Json.Text} (h : unescape token = some key) : decodeKey token = key := by
  induction token using unescape.induct generalizing key with
  | case1 =>
    cases h
    rfl
  | case2 rest ih =>
    rw [unescape] at h
    obtain ⟨inner, hinner, rfl⟩ := Option.map_eq_some_iff.mp h
    rw [decodeKey, replacePair_first (by decide), replacePair_cons (show '0' ≠ '~' by decide), replacePair_pair, ← decodeKey,
      ih hinner]
  | case3 rest ih =>
    rw [unescape] at h
    obtain ⟨inner, hinner, rfl⟩ := Option.map_eq_some_iff.mp h
    rw [decodeKey, replacePair_pair, replacePair_cons (by decide), ← decodeKey, ih hinner]
  | case4 rest hzero hone =>
    rw [unescape, if_pos rfl] at h
    · cases h
    · exact hzero
    · exact hone
  | case5 c rest hzero hone hc ih =>
    rw [unescape_plain hc] at h
    obtain ⟨inner, hinner, rfl⟩ := Option.map_eq_some_iff.mp h
    rw [decodeKey, replacePair_cons hc, replacePair_cons hc, ← decodeKey, ih hinner]

theorem encodeKey_escape (key : Json.Text) : encodeKey key = escape key := by
  induction key with
  | nil => rfl
  | cons c rest ih =>
    rw [encodeKey, replaceEach, replaceEach] at ih ⊢
    rw [List.flatMap_cons, List.flatMap_append, ih, escape]
    by_cases htilde : c = '~'
    · rw [if_pos htilde, if_pos htilde]
      rfl
    · rw [if_neg htilde, if_neg htilde, List.flatMap_singleton]
      by_cases hslash : c = '/'
      · rw [if_pos hslash, if_pos hslash]
        rfl
      · rw [if_neg hslash, if_neg hslash]
        rfl

/-! ## Respelled pointers -/

/-- The token by which RFC 6901 names what the check descends to. -/
def respell (current : Tree) (encoded : Json.Text) : Json.Text :=
  match current with
  | .array items =>
    match itemIndex items.length (decodeKey encoded) with
    | some index => Nat.toDigits 10 index
    | none => escape (decodeKey encoded)
  | _ => escape (decodeKey encoded)

def respellAll (current : Tree) : List Json.Text → List Json.Text
  | [] => []
  | encoded :: rest =>
    respell current encoded ::
      match descend current encoded with
      | none => rest
      | some next => respellAll next rest

def respelled (value : Tree) (pointer : Json.Text) : Json.Text :=
  match pointer with
  | [] => []
  | c :: rest => c :: ['/'].intercalate (respellAll value (rest.splitOn '/'))

theorem itemIndex_toDigits {length index : ℕ} (hlength : length < 2 ^ 32) (hindex : index < length) :
    itemIndex length (Nat.toDigits 10 index) = some index := by
  have hsmall : index < 2 ^ 53 := hindex.trans (hlength.trans (by decide))
  have hbounds : ((index : ℚ)).isInt = true ∧ 0 ≤ (index : ℚ) ∧ (index : ℚ) < length :=
    ⟨rfl, Nat.cast_nonneg index, by exact_mod_cast hindex⟩
  rw [itemIndex, NumberText.number_toDigits hsmall, Option.bind_some, if_pos hbounds]
  rfl

theorem unescape_toDigits (n : ℕ) : unescape (Nat.toDigits 10 n) = some (Nat.toDigits 10 n) := by
  have hplain : ∀ text : Json.Text, (∀ c ∈ text, c.isDigit = true) → unescape text = some text := by
    intro text htext
    induction text with
    | nil => rfl
    | cons c rest ih =>
      have hc : c ≠ '~' := by
        rintro rfl
        exact absurd (htext '~' List.mem_cons_self) (by decide)
      rw [unescape_plain hc, ih fun d hd => htext d (List.mem_cons_of_mem _ hd)]
      rfl
  exact hplain _ (Json.toDigits_isDigit n)

theorem escape_toDigits (n : ℕ) : escape (Nat.toDigits 10 n) = Nat.toDigits 10 n :=
  escape_unescape (unescape_toDigits n) fun hmem => absurd (Json.toDigits_isDigit n '/' hmem) (by decide)

theorem step_respell (h : Held current) (encoded : Json.Text) :
    (unescape (respell current encoded)).bind (step current) = descend current encoded := by
  cases current with
  | array items =>
    rw [respell, descend]
    cases hindex : itemIndex items.length (decodeKey encoded) with
    | some index => simp only [unescape_toDigits, Option.bind_some, step, arrayIndex_iff.mpr rfl]
    | none =>
      simp only [unescape_escape, Option.bind_some, step, Option.bind_none]
      cases hnumeral : arrayIndex (decodeKey encoded) with
      | none => rfl
      | some index =>
        rw [Option.bind_some, List.getElem?_eq_none_iff]
        by_contra hless
        have hread := itemIndex_toDigits h.1 (not_le.mp hless)
        rw [← arrayIndex_iff.mp hnumeral, hindex] at hread
        cases hread
  | object members => simp only [respell, unescape_escape, Option.bind_some, step, descend]
  | null | bool | number | string => simp only [respell, unescape_escape, Option.bind_some, step, descend]

theorem reachesSome_iff (h : Held current) (tokens : List Json.Text) : reachesSome current tokens = true ↔
      ∃ reached, follow current (respellAll current tokens) = some reached ∧ reached ≠ .null := by
  induction tokens generalizing current with
  | nil => cases current <;> simp [reachesSome, respellAll, follow]
  | cons encoded rest ih =>
    rw [reachesSome, respellAll, follow, step_respell h]
    cases hnext : descend current encoded with
    | none => simp
    | some next => exact ih (h.descend hnext)

theorem respell_eq (h : Held current) (hslash : '/' ∉ token)
    (hstep : (unescape token).bind (step current) = some next) :
    respell current token = token ∧ descend current token = some next := by
  obtain ⟨key, hkey, hnext⟩ := Option.bind_eq_some_iff.mp hstep
  have hdecode := decodeKey_unescape hkey
  have hescape := escape_unescape hkey hslash
  cases current with
  | array items =>
    obtain ⟨index, hindex, hitem⟩ := Option.bind_eq_some_iff.mp hnext
    have hless : index < items.length := (List.getElem?_eq_some_iff.mp hitem).1
    have hread : itemIndex items.length key = some index := by
      rw [arrayIndex_iff.mp hindex, itemIndex_toDigits h.1 hless]
    have htoken : Nat.toDigits 10 index = token := by
      rw [← hescape, arrayIndex_iff.mp hindex, escape_toDigits]
    exact ⟨by simp only [respell, hdecode, hread, htoken], by simp only [descend, hdecode, hread, Option.bind_some, hitem]⟩
  | object members => exact ⟨by simp only [respell, hdecode, hescape], by simp only [descend, hdecode]; exact hnext⟩
  | null | bool | number | string => cases hnext

theorem respellAll_eq (h : Held current) (hslash : ∀ token ∈ tokens, '/' ∉ token)
    (hreached : follow current tokens = some reached) : respellAll current tokens = tokens := by
  induction tokens generalizing current with
  | nil => rfl
  | cons token rest ih =>
    obtain ⟨next, hnext, hrest⟩ := Option.bind_eq_some_iff.mp hreached
    obtain ⟨hsame, hdescend⟩ := respell_eq h (hslash token List.mem_cons_self) hnext
    simp only [respellAll, hsame, hdescend]
    rw [ih (h.descend hdescend) (fun other hother => hslash other (List.mem_cons_of_mem _ hother)) hrest]

/-! ## Splitting and joining -/

theorem slash_splitOn (text : Json.Text) : ∀ token ∈ text.splitOn '/', '/' ∉ token := by
  induction text with
  | nil => simp
  | cons c rest ih =>
    rw [List.splitOn_cons_eq_if_modifyHead]
    split
    · intro token htoken
      rcases List.mem_cons.mp htoken with rfl | htoken
      · exact List.not_mem_nil
      · exact ih token htoken
    · rename_i hc
      obtain ⟨head, tail, hsplit⟩ := List.exists_cons_of_ne_nil (List.splitOn_ne_nil '/' rest)
      rw [hsplit] at ih ⊢
      intro token htoken
      rcases List.mem_cons.mp htoken with rfl | htoken
      · have hhead := ih head List.mem_cons_self
        have hne : '/' ≠ c := fun heq => hc (beq_iff_eq.mpr heq.symm)
        simp [hhead, hne]
      · exact ih token (List.mem_cons_of_mem _ htoken)

theorem slash_respell (current : Tree) (encoded : Json.Text) : '/' ∉ respell current encoded := by
  unfold respell
  split
  · split
    · exact fun hmem => absurd (Json.toDigits_isDigit _ '/' hmem) (by decide)
    · exact slash_escape _
  · exact slash_escape _

theorem slash_respellAll (h : ∀ token ∈ tokens, '/' ∉ token) (current : Tree) :
    ∀ token ∈ respellAll current tokens, '/' ∉ token := by
  induction tokens generalizing current with
  | nil => exact fun token htoken => absurd htoken List.not_mem_nil
  | cons encoded rest ih =>
    have hrest : ∀ token ∈ rest, '/' ∉ token := fun token htoken => h token (List.mem_cons_of_mem _ htoken)
    intro token htoken
    rcases List.mem_cons.mp htoken with rfl | htoken
    · exact slash_respell current encoded
    · split at htoken
      · exact hrest token htoken
      · exact ih hrest _ token htoken

theorem respellAll_ne_nil (h : tokens ≠ []) (current : Tree) : respellAll current tokens ≠ [] := by
  cases tokens with
  | nil => exact absurd rfl h
  | cons encoded rest => exact List.cons_ne_nil _ _

theorem evaluate_respelled (value : Tree) (rest : Json.Text) :
    evaluate value (respelled value ('/' :: rest)) = follow value (respellAll value (rest.splitOn '/')) := by
  rw [respelled, evaluate, if_pos rfl, List.splitOn_intercalate _ (slash_respellAll (slash_splitOn rest) value)
    (respellAll_ne_nil (List.splitOn_ne_nil '/' rest) value)]

theorem pointerExists_iff (h : Held value) (rest : Json.Text) : pointerExists value ('/' :: rest) = true ↔
      ∃ reached, evaluate value (respelled value ('/' :: rest)) = some reached ∧ reached ≠ .null := by
  rw [evaluate_respelled, pointerExists, if_pos rfl]
  exact reachesSome_iff h _

theorem respelled_eq (h : Held value) {rest : Json.Text} (hreached : evaluate value ('/' :: rest) = some reached) :
    respelled value ('/' :: rest) = '/' :: rest := by
  rw [evaluate, if_pos rfl] at hreached
  rw [respelled, respellAll_eq h (slash_splitOn rest) hreached, List.intercalate_splitOn]

/-! ## The pointers of leaves -/

theorem lookup_of_mem (h : (members.map Prod.fst).Nodup) (hmem : (key, child) ∈ members) :
    members.lookup key = some child := by
  induction members with
  | nil => cases hmem
  | cons member members ih =>
    obtain ⟨hnew, hrest⟩ := List.nodup_cons.mp h
    rcases List.mem_cons.mp hmem with rfl | hmem
    · exact List.lookup_cons_self
    · have hne : (key == member.1) = false := by
        rw [beq_eq_false_iff_ne]
        rintro rfl
        exact hnew (List.mem_map.mpr ⟨_, hmem, rfl⟩)
      rw [List.lookup_cons, hne]
      exact ih hrest hmem

theorem pointerTo_item (index : ℕ) (places : List Place) :
    pointerTo (.item index :: places) = '/' :: Nat.toDigits 10 index ++ pointerTo places := by
  rw [pointerTo, List.flatMap_cons, Place.key, escape_toDigits, ← pointerTo]

theorem pointerTo_field (key : String) (places : List Place) :
    pointerTo (.field key :: places) = '/' :: encodeKey key.toList ++ pointerTo places := by
  rw [pointerTo, List.flatMap_cons, Place.key, ← encodeKey_escape, ← pointerTo]

mutual

theorem leavesAt_places (value : Tree) (h : Held value) (pointer : Json.Text) : ∀ leaf ∈ leavesAt value pointer,
    ∃ places text, at? value places = some (.string text) ∧ leaf = ⟨pointer ++ pointerTo places, Text.trimChars text.toList⟩ := by
  intro leaf hleaf
  cases value with
  | null | bool | number => cases hleaf
  | string text =>
    rw [leavesAt, candidateLeaf] at hleaf
    split at hleaf
    · exact ⟨[], text, rfl, by rw [List.mem_singleton.mp hleaf, pointerTo, List.flatMap_nil, List.append_nil]⟩
    · cases hleaf
  | array items =>
    rw [leavesAt] at hleaf
    obtain ⟨index, item, places, text, hitem, hplace, rfl⟩ := itemLeaves_places items h.2 pointer 0 leaf hleaf
    rw [Nat.zero_add]
    exact ⟨.item index :: places, text, by rw [at?, Place.get, hitem]; exact hplace, rfl⟩
  | object members =>
    rw [leavesAt] at hleaf
    obtain ⟨key, child, places, text, hmem, hplace, rfl⟩ := memberLeaves_places members h.2 pointer leaf hleaf
    exact ⟨.field key :: places, text, by rw [at?, Place.get, lookup_of_mem h.1 hmem]; exact hplace, rfl⟩

theorem itemLeaves_places (items : List Tree) (h : HeldItems items) (pointer : Json.Text) (start : ℕ) :
    ∀ leaf ∈ itemLeaves items pointer start, ∃ index item places text, items[index]? = some item ∧
      at? item places = some (.string text) ∧
      leaf = ⟨pointer ++ pointerTo (.item (start + index) :: places), Text.trimChars text.toList⟩ := by
  intro leaf hleaf
  cases items with
  | nil => cases hleaf
  | cons item items =>
    rw [itemLeaves] at hleaf
    rcases List.mem_append.mp hleaf with hleaf | hleaf
    · obtain ⟨places, text, hplace, rfl⟩ := leavesAt_places item h.1 _ leaf hleaf
      exact ⟨0, item, places, text, rfl, hplace, by rw [pointerTo_item, List.append_assoc]; rfl⟩
    · obtain ⟨index, other, places, text, hitem, hplace, rfl⟩ := itemLeaves_places items h.2 pointer (start + 1) leaf hleaf
      exact ⟨index + 1, other, places, text, hitem, hplace, by rw [Nat.add_right_comm, Nat.add_assoc]⟩

theorem memberLeaves_places (members : List (String × Tree)) (h : HeldMembers members) (pointer : Json.Text) :
    ∀ leaf ∈ memberLeaves members pointer, ∃ key child places text, (key, child) ∈ members ∧
      at? child places = some (.string text) ∧
      leaf = ⟨pointer ++ pointerTo (.field key :: places), Text.trimChars text.toList⟩ := by
  intro leaf hleaf
  cases members with
  | nil => cases hleaf
  | cons member members =>
    obtain ⟨key, child⟩ := member
    rw [memberLeaves] at hleaf
    rcases List.mem_append.mp hleaf with hleaf | hleaf
    · obtain ⟨places, text, hplace, rfl⟩ := leavesAt_places child h.1 _ leaf hleaf
      exact ⟨key, child, places, text, List.mem_cons_self, hplace, by rw [pointerTo_field, List.append_assoc]⟩
    · obtain ⟨name, other, places, text, hmem, hplace, rfl⟩ := memberLeaves_places members h.2 pointer leaf hleaf
      exact ⟨name, other, places, text, List.mem_cons_of_mem _ hmem, hplace, rfl⟩

end

/-! ## What the pointers are worth -/

structure PointersResolve (value : Tree) (pointer : Json.Text) : Prop where
  exists_iff : pointerExists value pointer = true ↔ ∃ reached, evaluate value pointer = some reached ∧ reached ≠ .null
  leaves : ∀ leaf ∈ stringLeaves value, leaf.pointer ≠ [] → ∃ places text, at? value places = some (.string text) ∧
    leaf = ⟨pointerTo places, Text.trimChars text.toList⟩ ∧ evaluate value leaf.pointer = some (.string text)

theorem leaves_resolve (h : Held value) {leaf : Leaf} (hleaf : leaf ∈ stringLeaves value) :
    ∃ places text, at? value places = some (.string text) ∧
      leaf = ⟨pointerTo places, Text.trimChars text.toList⟩ ∧ evaluate value leaf.pointer = some (.string text) := by
  obtain ⟨places, text, hplace, rfl⟩ := leavesAt_places value h [] leaf hleaf
  exact ⟨places, text, hplace, rfl, evaluate_pointerTo hplace⟩

/-- The check is right exactly where the pointer is spelled as it is read, or what it is read as reaches nothing. -/
theorem pointers_resolve {value : Tree} (hvalue : Held value) (rest : Json.Text) :
    PointersResolve value ('/' :: rest) ↔ respelled value ('/' :: rest) = '/' :: rest ∨
        ∀ reached, evaluate value (respelled value ('/' :: rest)) = some reached → reached = .null := by
  have hexists := pointerExists_iff hvalue rest
  constructor
  · intro hresolve
    by_cases hreaches : ∃ reached, evaluate value (respelled value ('/' :: rest)) = some reached ∧ reached ≠ .null
    · obtain ⟨reached, hreached, -⟩ := hresolve.exists_iff.mp (hexists.mpr hreaches)
      exact Or.inl (respelled_eq hvalue hreached)
    · refine Or.inr fun reached hreached => ?_
      by_contra hsome
      exact hreaches ⟨reached, hreached, hsome⟩
  · intro hcondition
    refine ⟨?_, fun leaf hleaf _ => leaves_resolve hvalue hleaf⟩
    rcases hcondition with hsame | hnothing
    · rw [hexists, hsame]
    · rw [hexists]
      constructor
      · rintro ⟨reached, hreached, hsome⟩
        exact absurd (hnothing reached hreached) hsome
      · rintro ⟨reached, hreached, hsome⟩
        rw [← respelled_eq hvalue hreached] at hreached
        exact absurd (hnothing reached hreached) hsome

theorem pointers_resolve_item : PointersResolve (.array [.string "ab"]) ['/', '0'] := by
  have hheld : Held (.array [.string "ab"]) := ⟨by decide, trivial, trivial⟩
  exact (pointers_resolve hheld ['0']).mpr (Or.inl (by decide +kernel))

/-- The empty token is no index, but its number is zero. -/
theorem empty_token_exists : ¬ ∀ (value : Tree) (rest : Json.Text), Held value → PointersResolve value ('/' :: rest) := by
  intro hall
  have hresolve := hall (.array [.string "ab"]) [] ⟨by decide, trivial, trivial⟩
  have hexists : pointerExists (.array [.string "ab"]) ['/'] = true := by decide +kernel
  obtain ⟨reached, hreached, -⟩ := hresolve.exists_iff.mp hexists
  have hnone : evaluate (.array [.string "ab"]) ['/'] = none := rfl
  rw [hnone] at hreached
  cases hreached

end AvenOS.DocumentIngest
