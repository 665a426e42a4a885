import Mathlib.Data.Rat.Defs

/-! # Values that may cross a process boundary

`unknown` values as `assertPortableRunValue` sees them. An object is the list of its own fields in
the order they are enumerated. -/
namespace AvenOS.Actors

inductive JsValue
  | null
  | bool (value : Bool)
  | num (value : ℚ)
  | str (value : String)
  | arr (items : List JsValue)
  | obj (fields : List (String × JsValue))
  /-- A function, `undefined`, a number that is not finite, a cycle, an object with a prototype of
  its own: what the check says about it, after the path. -/
  | foreign (complaint : String)

/-- The fields of a plain object. -/
abbrev Record := List (String × JsValue)

mutual

def assertPortableRunValue : JsValue → String → Except String Unit
  | .null, _ => .ok ()
  | .bool _, _ => .ok ()
  | .num _, _ => .ok ()
  | .str _, _ => .ok ()
  | .arr items, path => assertPortableItems items path 0
  | .obj fields, path => assertPortableFields fields path
  | .foreign complaint, path => .error (path ++ complaint)

def assertPortableItems : List JsValue → String → ℕ → Except String Unit
  | [], _, _ => .ok ()
  | item :: items, path, index =>
    match assertPortableRunValue item (path ++ "[" ++ toString index ++ "]") with
    | .ok _ => assertPortableItems items path (index + 1)
    | .error e => .error e

def assertPortableFields : List (String × JsValue) → String → Except String Unit
  | [], _ => .ok ()
  | field :: fields, path =>
    match assertPortableField field path with
    | .ok _ => assertPortableFields fields path
    | .error e => .error e

def assertPortableField : String × JsValue → String → Except String Unit
  | (key, item), path => assertPortableRunValue item (path ++ "." ++ key)

end

/-- Names that every plain object answers to without having them. -/
def inheritedNames : List String :=
  ["constructor", "toString", "toLocaleString", "valueOf", "hasOwnProperty", "isPrototypeOf",
    "propertyIsEnumerable", "__proto__", "__defineGetter__", "__defineSetter__",
    "__lookupGetter__", "__lookupSetter__"]

def hasName (record : Record) (name : String) : Bool :=
  record.any (fun field => field.1 == name) || inheritedNames.contains name

/-- `record[name]`; what is inherited is no data. -/
def valueAt (record : Record) (name : String) : JsValue :=
  (record.lookup name).getD (.foreign " is not portable JSON")

def assign {α : Type} (record : List (String × α)) (name : String) (value : α) :
    List (String × α) :=
  if record.any fun field => field.1 == name then
    record.map fun field => if field.1 == name then (name, value) else field
  else record ++ [(name, value)]

def spread {α : Type} (record more : List (String × α)) : List (String × α) :=
  more.foldl (fun record field => assign record field.1 field.2) record

end AvenOS.Actors
