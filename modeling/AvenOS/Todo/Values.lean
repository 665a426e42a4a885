import AvenOS.Actors.Portable
import AvenOS.Actors.Text

/-! # Values inside the sandbox

What a program in the sandbox reads from the values it is given: fields of objects, texts of values that are used as
property names, and entries of its own tables, which answer to inherited names too. The fields of an object are those
it answers to. -/
namespace AvenOS.Todo
open Actors

/-- What the engine computes and the program only calls. -/
structure Engine where
  numberText : ℚ → String
  /-- The text of what every object inherits under a name. -/
  inheritedText : String → String
  /-- `Math.round((done / total) * 100)`. -/
  percent : ℕ → ℕ → ℕ
  /-- `JSON.parse`; `none` where it throws. -/
  parse : String → Option JsValue
  /-- How many counters from zero on are below a value; `none` where the comparison throws. -/
  below : JsValue → Option ℕ

/-- `value.name`; `none` is `undefined`. -/
def field (value : JsValue) (name : String) : Option JsValue :=
  match value with
  | .obj fields =>
    match fields.lookup name with
    | some (.foreign _) => none
    | found => found
  | _ => none

def truthy : JsValue → Bool
  | .null => false
  | .bool value => value
  | .num value => value != 0
  | .str value => value != ""
  | .foreign _ => false
  | _ => true

/-- `typeof value === 'string'`. -/
def asText : Option JsValue → Option String
  | some (.str text) => some text
  | _ => none

/-- `Object.prototype.toString.call(value) === '[object Array]'`. -/
def asList : Option JsValue → Option (List JsValue)
  | some (.arr items) => some items
  | _ => none

def textsOf (items : List JsValue) : List String := items.filterMap fun item => asText (some item)

/-! ## Property names -/

mutual

/-- Whether a value can be made a text: an object whose `toString` is one of its fields cannot. -/
def converts : JsValue → Bool
  | .arr items => convertsEach items
  | .obj fields => !fields.any fun field => field.1 == "toString"
  | _ => true

def convertsEach : List JsValue → Bool
  | [] => true
  | item :: items => converts item && convertsEach items

end

section Names
variable (engine : Engine)

mutual

def keyText : JsValue → String
  | .null => "null"
  | .bool value => toString value
  | .num value => engine.numberText value
  | .str value => value
  | .arr items => ",".intercalate (keyTexts items)
  | .obj _ => "[object Object]"
  | .foreign _ => "undefined"

def keyTexts : List JsValue → List String
  | [] => []
  | .null :: items => "" :: keyTexts items
  | item :: items => keyText item :: keyTexts items

end

/-- What a table of the program answers: a text of its own, or what every object inherits. -/
inductive Word
  | text (value : String)
  | inherited (name : String)
deriving DecidableEq, Repr

def Word.shown : Word → String
  | .text value => value
  | .inherited name => engine.inheritedText name

inductive Thrown
  | typeError
deriving DecidableEq, Repr

def entry (table : List (String × String)) (key : String) : Option Word :=
  match table.lookup key with
  | some text => some (.text text)
  | none => if inheritedNames.contains key then some (.inherited key) else none

/-- `table[value]` for any value, which becomes a text first. -/
def tableAt (table : List (String × String)) : Option JsValue → Except Thrown (Option Word)
  | none => .ok (entry table "undefined")
  | some value => if converts value then .ok (entry table (keyText engine value)) else .error .typeError

end Names

variable {table : List (String × String)}

theorem tableAt_text {engine : Engine} (text : String) :
    tableAt engine table (some (.str text)) = .ok (entry table text) := by
  simp [tableAt, converts, keyText]

theorem entry_own {key text : String} (h : table.lookup key = some text) : entry table key = some (.text text) := by
  rw [entry, h]

end AvenOS.Todo
