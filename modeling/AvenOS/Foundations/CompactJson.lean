import AvenOS.Foundations.JsonStrings

/-! # Compact JSON

Values that keep the tokens of their numbers, and their text without white space. The text is that of
one document, so two values with the same text are the same. -/
namespace AvenOS.Json

inductive Tree
  | null
  | bool (value : Bool)
  | number (token : Text)
  | string (value : String)
  | array (values : List Tree)
  | object (members : List (String × Tree))

def commas (texts : List Text) : Text := [','].intercalate texts

theorem commas_cons (text : Text) (texts : List Text) :
    commas (text :: texts) = text ++ texts.flatMap fun text => ',' :: text := by
  induction texts generalizing text with
  | nil => simp [commas]
  | cons next texts ih =>
    have hstep : commas (text :: next :: texts) = text ++ ',' :: commas (next :: texts) := by
      simp [commas, List.intercalate]
    rw [hstep, ih, List.flatMap_cons, List.cons_append]

namespace Tree

mutual

def text : Tree → Text
  | .null => ['n', 'u', 'l', 'l']
  | .bool true => ['t', 'r', 'u', 'e']
  | .bool false => ['f', 'a', 'l', 's', 'e']
  | .number token => token
  | .string value => quote value.toList
  | .array values => '[' :: (commas (textEach values) ++ [']'])
  | .object members => '{' :: (commas (textMembers members) ++ ['}'])

def textEach : List Tree → List Text
  | [] => []
  | value :: values => value.text :: textEach values

def textMembers : List (String × Tree) → List Text
  | [] => []
  | (key, value) :: members => (quote key.toList ++ ':' :: value.text) :: textMembers members

end

mutual

def Ok : Tree → Prop
  | .number token => isNumber token = true
  | .array values => OkEach values
  | .object members => OkMembers members
  | _ => True

def OkEach : List Tree → Prop
  | [] => True
  | value :: values => value.Ok ∧ OkEach values

def OkMembers : List (String × Tree) → Prop
  | [] => True
  | (_, value) :: members => value.Ok ∧ OkMembers members

end

/-! ## The document of a value -/

mutual

def doc : Tree → Doc
  | .null => .null
  | .bool value => .bool value
  | .number token => .number token
  | .string value => .string (quotedPieces value.toList)
  | .array [] => .emptyArray []
  | .array (value :: values) => .array (items value.doc values)
  | .object [] => .emptyObject []
  | .object ((key, value) :: members) => .object (entries key value.doc members)

def items (first : Doc) : List Tree → Items
  | [] => .last [] first []
  | value :: values => .more [] first [] (items value.doc values)

def entries (key : String) (first : Doc) : List (String × Tree) → Members
  | [] => .last [] (quotedPieces key.toList) [] [] first []
  | (next, value) :: members =>
    .more [] (quotedPieces key.toList) [] [] first [] (entries next value.doc members)

end

mutual

theorem doc_onto (tree : Tree) (r : Text) : tree.doc.onto r = tree.text ++ r := by
  cases tree with
  | null => rfl
  | bool value => cases value <;> rfl
  | number => rfl
  | string => simp [doc, Doc.onto, text, quote]
  | array values =>
    cases values with
    | nil => rfl
    | cons value values =>
      rw [doc, Doc.onto, items_onto values, doc_onto value, text, textEach, commas_cons]
      simp
  | object members =>
    rcases members with - | ⟨⟨key, value⟩, members⟩
    · rfl
    · rw [doc, Doc.onto, entries_onto members, doc_onto value, text, textMembers, commas_cons]
      simp [quote]

theorem items_onto (values : List Tree) (first : Doc) (r : Text) : (items first values).onto r =
    first.onto ((textEach values).flatMap (fun text => ',' :: text) ++ ']' :: r) := by
  cases values with
  | nil => rfl
  | cons value values =>
    rw [items, Items.onto, items_onto values, doc_onto value, textEach]
    simp

theorem entries_onto (members : List (String × Tree)) (key : String) (first : Doc) (r : Text) :
    (entries key first members).onto r = '"' :: (piecesText (quotedPieces key.toList) ++ '"' :: ':' ::
      first.onto ((textMembers members).flatMap (fun text => ',' :: text) ++ '}' :: r)) := by
  rcases members with - | ⟨⟨next, value⟩, members⟩
  · rfl
  · rw [entries, Members.onto, entries_onto members, doc_onto value, textMembers]
    simp [quote]

end

section Written
variable (space : Char → Bool)

theorem blank_empty : Blank space [] := fun _ h => absurd h List.not_mem_nil

mutual

theorem doc_ok (tree : Tree) (hok : tree.Ok) : tree.doc.Ok space := by
  cases tree with
  | null | bool => exact trivial
  | number token => exact hok
  | string value => exact quotedPieces_ok value.toList
  | array values =>
    cases values with
    | nil => exact blank_empty space
    | cons value values => exact items_ok values hok.2 (doc_ok value hok.1)
  | object members =>
    rcases members with - | ⟨⟨key, value⟩, members⟩
    · exact blank_empty space
    · exact entries_ok members key hok.2 (doc_ok value hok.1)

theorem items_ok (values : List Tree) {first : Doc} (hok : OkEach values) (hfirst : first.Ok space) :
    (items first values).Ok space := by
  cases values with
  | nil => exact ⟨blank_empty space, hfirst, blank_empty space⟩
  | cons value values =>
    exact ⟨blank_empty space, hfirst, blank_empty space, items_ok values hok.2 (doc_ok value hok.1)⟩

theorem entries_ok (members : List (String × Tree)) (key : String) {first : Doc}
    (hok : OkMembers members) (hfirst : first.Ok space) : (entries key first members).Ok space := by
  have hnil := blank_empty space
  have hkey := quotedPieces_ok key.toList
  rcases members with - | ⟨⟨next, value⟩, members⟩
  · exact ⟨hnil, hkey, hnil, hnil, hfirst, hnil⟩
  · exact ⟨hnil, hkey, hnil, hnil, hfirst, hnil, entries_ok members next hok.2 (doc_ok value hok.1)⟩

end

end Written

end Tree

/-! ## The value of a document -/

def piecesString (pieces : List Piece) : String :=
  String.ofList ((decodeUtf16 (piecesUnits pieces)).getD [])

theorem piecesString_quoted (value : String) : piecesString (quotedPieces value.toList) = value := by
  rw [piecesString, quotedPieces_units, decodeUtf16_unitsOf, Option.getD_some, String.ofList_toList]

mutual

def Doc.tree : Doc → Tree
  | .null => .null
  | .bool value => .bool value
  | .number token => .number token
  | .string pieces => .string (piecesString pieces)
  | .emptyArray _ => .array []
  | .array items => .array items.trees
  | .emptyObject _ => .object []
  | .object members => .object members.trees

def Items.trees : Items → List Tree
  | .last _ doc _ => [doc.tree]
  | .more _ doc _ rest => doc.tree :: rest.trees

def Members.trees : Members → List (String × Tree)
  | .last _ key _ _ doc _ => [(piecesString key, doc.tree)]
  | .more _ key _ _ doc _ rest => (piecesString key, doc.tree) :: rest.trees

end

namespace Tree

mutual

theorem tree_doc (tree : Tree) : tree.doc.tree = tree := by
  cases tree with
  | null | bool | number => rfl
  | string value => rw [doc, Doc.tree, piecesString_quoted]
  | array values =>
    cases values with
    | nil => rfl
    | cons value values => rw [doc, Doc.tree, trees_items values, tree_doc value]
  | object members =>
    rcases members with - | ⟨⟨key, value⟩, members⟩
    · rfl
    · rw [doc, Doc.tree, trees_entries members, tree_doc value]

theorem trees_items (values : List Tree) (first : Doc) : (items first values).trees = first.tree :: values := by
  cases values with
  | nil => rfl
  | cons value values => rw [items, Items.trees, trees_items values, tree_doc value]

theorem trees_entries (members : List (String × Tree)) (key : String) (first : Doc) :
    (entries key first members).trees = (key, first.tree) :: members := by
  rcases members with - | ⟨⟨next, value⟩, members⟩
  · rw [entries, Members.trees, piecesString_quoted]
  · rw [entries, Members.trees, trees_entries members, tree_doc value, piecesString_quoted]

end

theorem document_text (tree : Tree) : (⟨[], tree.doc, []⟩ : Document).text = tree.text := by
  simp only [Document.text, List.nil_append, doc_onto, List.append_nil]

theorem read_compact {space : Char → Bool} (hspace : Space space) {tree : Tree} (hok : tree.Ok) :
    read space tree.text = some ⟨[], tree.doc, []⟩ := by
  have hdocument : (⟨[], tree.doc, []⟩ : Document).Ok space :=
    ⟨blank_empty space, doc_ok space tree hok, blank_empty space⟩
  rw [← document_text, read_text hspace hdocument]

theorem text_injective {one other : Tree} (hone : one.Ok) (hother : other.Ok)
    (h : one.text = other.text) : one = other := by
  let space : Char → Bool := fun _ => false
  have hspace : Space space := ⟨fun c hc => by cases hc⟩
  have hread := read_compact hspace hone
  rw [h, read_compact hspace hother, Option.some.injEq] at hread
  have hdoc : other.doc = one.doc := congrArg Document.doc hread
  rw [← tree_doc one, ← hdoc, tree_doc]

end Tree

end AvenOS.Json
