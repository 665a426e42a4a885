import AvenOS.Foundations.JsonStrings
import AvenOS.Foundations.NumberText

/-! # What a JSON document denotes

`JSON.parse` of ECMAScript: strings are their code units, numbers are doubles, and the last of two fields of one name is the
one that counts. -/
namespace AvenOS.Json

def jsonSpace (c : Char) : Bool := c = ' ' || c = '\t' || c = '\n' || c = '\r'

theorem jsonSpace_space : Space jsonSpace where
  apart c hc := by
    have hcases : c = ' ' ∨ c = '\t' ∨ c = '\n' ∨ c = '\r' := by
      simpa [jsonSpace, or_assoc] using hc
    rcases hcases with rfl | rfl | rfl | rfl
    all_goals exact ⟨by decide, by decide⟩

inductive ParsedValue
  | null
  | bool (value : Bool)
  | number (negative : Bool) (size : Option ℚ)
  | string (units : List ℕ)
  | array (items : List ParsedValue)
  | object (fields : List (List ℕ × ParsedValue))

/-- A field keeps the place of an earlier one of its name. -/
def setField (key : List ℕ) (value : ParsedValue) : List (List ℕ × ParsedValue) → List (List ℕ × ParsedValue)
  | [] => [(key, value)]
  | field :: fields => if field.1 = key then (key, value) :: fields else field :: setField key value fields

def numberValue (token : Text) : ParsedValue :=
  match token with
  | '-' :: rest => .number true (NumberText.number rest)
  | _ => .number false (NumberText.number token)

mutual

def Doc.value : Doc → ParsedValue
  | .null => .null
  | .bool value => .bool value
  | .number token => numberValue token
  | .string pieces => .string (piecesUnits pieces)
  | .emptyArray _ => .array []
  | .array items => .array items.values
  | .emptyObject _ => .object []
  | .object members => .object (members.fields [])

def Items.values : Items → List ParsedValue
  | .last _ doc _ => [doc.value]
  | .more _ doc _ rest => doc.value :: rest.values

def Members.fields : Members → List (List ℕ × ParsedValue) → List (List ℕ × ParsedValue)
  | .last _ key _ _ doc _, fields => setField (piecesUnits key) doc.value fields
  | .more _ key _ _ doc _ rest, fields => rest.fields (setField (piecesUnits key) doc.value fields)

end

/-- `JSON.parse`: `none` where it throws. -/
def parse (text : Text) : Option ParsedValue := (read jsonSpace text).map fun document => document.doc.value

variable {doc : Doc}

theorem parse_doc (hok : doc.Ok jsonSpace) : parse (doc.onto []) = some doc.value := by
  have hdocument : (⟨[], doc, []⟩ : Document).Ok jsonSpace :=
    ⟨fun c hc => absurd hc List.not_mem_nil, hok, fun c hc => absurd hc List.not_mem_nil⟩
  have hread := read_text jsonSpace_space hdocument
  rw [Document.text, List.nil_append] at hread
  rw [parse, hread, Option.map_some]

theorem parse_sound {text : Text} {value : ParsedValue} (h : parse text = some value) :
    ∃ (before : Text) (doc : Doc) (after : Text), text = before ++ doc.onto after ∧ Blank jsonSpace before ∧
      doc.Ok jsonSpace ∧ doc.value = value := by
  obtain ⟨document, hread, hvalue⟩ := Option.map_eq_some_iff.mp h
  obtain ⟨htext, hbefore, hdoc, -⟩ := read_sound hread
  exact ⟨document.before, document.doc, document.after, htext, hbefore, hdoc, hvalue⟩

/-! ## Objects -/

def Doc.isObject : Doc → Bool
  | .emptyObject _ => true
  | .object _ => true
  | _ => false

theorem numberValue_ne_object (token : Text) (fields : List (List ℕ × ParsedValue)) : numberValue token ≠ .object fields := by
  unfold numberValue
  split <;> exact fun h => by cases h

theorem isObject_of_value {fields : List (List ℕ × ParsedValue)} (h : doc.value = .object fields) :
    doc.isObject = true := by
  cases doc with
  | emptyObject | object => rfl
  | number token => exact absurd h (numberValue_ne_object token fields)
  | null | bool | string | emptyArray | array =>
    rw [Doc.value] at h
    cases h

theorem value_of_isObject (h : doc.isObject = true) : ∃ fields, doc.value = .object fields := by
  cases doc with
  | emptyObject gap => exact ⟨[], by rw [Doc.value]⟩
  | object members => exact ⟨members.fields [], by rw [Doc.value]⟩
  | null | bool | number | string | emptyArray | array => cases h

theorem brace_of_isObject (h : doc.isObject = true) (r : Text) : ∃ rest, doc.onto r = '{' :: rest := by
  cases doc with
  | emptyObject gap => exact ⟨gap ++ '}' :: r, by rw [Doc.onto]⟩
  | object members => exact ⟨members.onto r, by rw [Doc.onto]⟩
  | null | bool | number | string | emptyArray | array => cases h

/-! ## What follows a document -/

mutual

theorem Doc.onto_append (doc : Doc) (r s : Text) : doc.onto (r ++ s) = doc.onto r ++ s := by
  cases doc with
  | null => rfl
  | bool value => cases value <;> rfl
  | number token => rw [Doc.onto, Doc.onto, List.append_assoc]
  | string pieces => simp [Doc.onto]
  | emptyArray gap => simp [Doc.onto]
  | array items => rw [Doc.onto, Doc.onto, Items.onto_append items, List.cons_append]
  | emptyObject gap => simp [Doc.onto]
  | object members => rw [Doc.onto, Doc.onto, Members.onto_append members, List.cons_append]

theorem Items.onto_append (items : Items) (r s : Text) : items.onto (r ++ s) = items.onto r ++ s := by
  cases items with
  | last before doc after =>
    rw [Items.onto, Items.onto, List.append_assoc, ← Doc.onto_append doc, List.append_assoc, List.cons_append]
  | more before doc after rest =>
    rw [Items.onto, Items.onto, List.append_assoc, ← Doc.onto_append doc, List.append_assoc, List.cons_append,
      Items.onto_append rest]

theorem Members.onto_append (members : Members) (r s : Text) : members.onto (r ++ s) = members.onto r ++ s := by
  cases members with
  | last before key middle start doc after =>
    simp only [Members.onto, List.append_assoc, List.cons_append, ← Doc.onto_append doc]
  | more before key middle start doc after rest =>
    simp only [Members.onto, List.append_assoc, List.cons_append, ← Doc.onto_append doc, Members.onto_append rest]

end

theorem Doc.onto_nil (doc : Doc) (r : Text) : doc.onto r = doc.onto [] ++ r := by
  rw [← Doc.onto_append, List.nil_append]

end AvenOS.Json
