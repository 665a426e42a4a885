import AvenOS.Foundations.ExceptLoop
import AvenOS.Todo.Values

/-! # The todo program

`initState`, `reduce` and `shape` over a machine that is composed into the program. Every call takes its state and its
event as data and answers with data: nothing is shared between calls. -/
namespace AvenOS.Todo
open Actors

/-! ## The machine -/

structure Transition where
  event : String
  src : String
  dst : String
deriving DecidableEq, Repr

structure Move where
  src : String
  dst : String
deriving DecidableEq, Repr

structure Machine where
  states : List String
  transitions : List Transition
  cycles : List Move

/-- The moves between real states: no creation from the void, no deletion into it. -/
def Machine.statusMoves (machine : Machine) : List Move :=
  (machine.transitions.filter fun t => machine.states.contains t.src && machine.states.contains t.dst).map fun t =>
    ⟨t.src, t.dst⟩

/-! ## Items and what a view renders -/

def sparks : List (String × String) := [("me", "Me"), ("team", "Team")]

def statusLabel : List (String × String) := [("open", "Open"), ("doing", "In Progress"), ("done", "Done")]

def wireLabel : List (String × String) := [("open", "open"), ("doing", "in progress"), ("done", "done")]

def wireStatus : List (String × String) := [("open", "open"), ("in_progress", "doing"), ("done", "done")]

def eventFor : List (String × String) := [("create", "CREATE"), ("update", "UPDATE"), ("delete", "DELETE")]

/-- The status of an item: a text, or another value that is spelled like a label's name. -/
inductive Status
  | text (value : String)
  | spelled (value : JsValue)

inductive Due
  | never
  | text (value : String)
  | date (date : String)
  | range (start : String) (stop : Option String)
deriving DecidableEq, Repr

structure Item where
  id : String
  title : String
  status : Status
  spark : String
  tags : List String
  due : Due
  responsible : String

structure Row where
  id : String
  title : String
  status : Status
  spark : String
  metaLabel : String
  statusLabel : Option Word
  checked : Bool
  rowClass : String
  badgeClass : String

structure Column where
  status : String
  label : Option Word
  count : ℕ
  rows : List Row

structure Domain where
  items : List Item
  active : String
  nextId : ℕ

/-- Counters by name; `none` is what is no number. -/
abbrev Counts := List (String × Option ℕ)

structure Board extends Domain where
  rows : List Row
  columns : List Column
  counts : Counts
  progressPct : ℕ
  progressText : String
  sparkName : String
  empty : Bool

def Status.is : Status → String → Bool
  | .text value, expected => value == expected
  | .spelled _, _ => false

def isSpark (id : Option JsValue) : Option String :=
  (asText id).filter fun id => sparks.any fun spark => spark.1 == id

def sparkName (id : String) : String := (sparks.lookup id).getD id

def dueLabel : Due → String
  | .never => ""
  | .text value => value
  | .date date => date
  | .range start stop =>
    match stop with
    | some stop => if start != "" && stop != "" then start ++ " → " ++ stop else if start != "" then "from " ++ start else ""
    | none => if start != "" then "from " ++ start else ""

def metaLabel (item : Item) : String :=
  let due := dueLabel item.due
  " · ".intercalate (item.tags.map (fun tag => "#" ++ tag) ++ (if due != "" then [due] else []) ++
    (if item.responsible != "" then ["@" ++ item.responsible] else []))

/-- `counts[key]++`: of what is inherited the sum is no number, and the prototype is not replaced by it. -/
def bump (counts : Counts) (key : String) : Counts :=
  if counts.any fun count => count.1 == key then
    counts.map fun count => if count.1 == key then (key, count.2.map (· + 1)) else count
  else if key == "__proto__" then counts
  else counts ++ [(key, none)]

def countAt (counts : Counts) (key : String) : ℕ := ((counts.lookup key).getD none).getD 0

section Program
variable (engine : Engine) (machine : Machine)

def Status.key : Status → String
  | .text value => value
  | .spelled value => keyText engine value

def wordText (word : Option Word) : String := (word.map (Word.shown engine)).getD "undefined"

/-- One task, spoken. -/
def line (item : Item) : String :=
  let extra := metaLabel item
  item.id ++ " " ++ item.title ++ " (" ++ wordText engine (entry wireLabel (item.status.key engine)) ++ ", " ++
    item.spark ++ (if extra != "" then ", " ++ extra else "") ++ ")"

def lines (items : List Item) : String := "; ".intercalate (items.map (line engine))

def listSaid (items : List Item) : String :=
  if items.isEmpty then "list: empty" else "list (" ++ toString items.length ++ "): " ++ lines engine items

def row (item : Item) : Row where
  id := item.id
  title := item.title
  status := item.status
  spark := item.spark
  metaLabel := metaLabel item
  statusLabel := entry statusLabel (item.status.key engine)
  checked := item.status.is "done"
  rowClass := "wi-row" ++ (if item.status.is "done" then " wi-row--done" else "")
  badgeClass := "wi-badge wi-badge--" ++ item.status.key engine

def visible (domain : Domain) : List Item := domain.items.filter fun item => item.spark == domain.active

def countsOf (items : List Item) : Counts :=
  items.foldl (fun counts item => bump counts (item.status.key engine))
    [("open", some 0), ("doing", some 0), ("done", some 0), ("total", some items.length)]

def column (rows : List Row) (status : String) : Column :=
  let own := rows.filter fun row => row.status.is status
  ⟨status, entry statusLabel status, own.length, own⟩

/-- Derive everything a view renders from the domain fields. -/
def present (domain : Domain) : Board :=
  let shown := visible domain
  let rows := shown.map (row engine)
  let counts := countsOf engine shown
  { domain with
    rows := rows
    columns := machine.states.map (column rows)
    counts := counts
    progressPct := if countAt counts "total" = 0 then 0 else engine.percent (countAt counts "done") (countAt counts "total")
    progressText := toString (countAt counts "done") ++ " of " ++ toString (countAt counts "total") ++ " done"
    sparkName := sparkName domain.active
    empty := rows.isEmpty }

/-! ## The initial state -/

def cleanTags (value : Option JsValue) : List String :=
  (textsOf ((asList value).getD [])).filter fun tag => tag != ""

def cleanDue : Option JsValue → Due
  | some (.str text) => if text != "" then .text text else .never
  | some (.obj fields) =>
    match asText (field (.obj fields) "date") with
    | some date => .date date
    | none =>
      match asText (field (.obj fields) "start") with
      | some start => .range start (asText (field (.obj fields) "end"))
      | none => .never
  | _ => .never

/-- `raw[0]`, `raw[1]`, … up to `raw.length`. The characters of a text have no fields, and other values no length. -/
def elementsOf : Option JsValue → Except Thrown (List (Option JsValue))
  | some (.arr items) => .ok (items.map some)
  | some (.obj fields) =>
    match field (.obj fields) "length" with
    | none => .ok []
    | some length =>
      match engine.below length with
      | none => .error .typeError
      | some n => .ok ((List.range n).map fun i => field (.obj fields) (toString i))
  | _ => .ok []

def itemId (n : ℕ) : String := "w" ++ toString n

def statusOf : JsValue → Status
  | .str text => .text text
  | value => .spelled value

def initialStatus (value : Option JsValue) : Except Thrown Status :=
  (tableAt engine statusLabel value).map fun word =>
    match word, value with
    | some _, some value => statusOf value
    | _, _ => .text "open"

/-- The items so far, and the number of the next one. -/
abbrev Gathered := List Item × ℕ

def gather (gathered : Gathered) (it : Option JsValue) : Except Thrown Gathered :=
  match it with
  | none => .ok gathered
  | some it =>
    match asText (field it "title") with
    | none => .ok gathered
    | some title =>
      (initialStatus engine (field it "status")).map fun status =>
        (gathered.1 ++ [{
          id := itemId gathered.2
          title := title
          status := status
          spark := (isSpark (field it "spark")).getD "me"
          tags := cleanTags (field it "tags")
          due := cleanDue (field it "due")
          responsible := (asText (field it "responsible")).getD "" }], gathered.2 + 1)

def rawItems (source : JsValue) : Option JsValue := (field source "items").filter truthy

def initState (source : JsValue) : Except Thrown Board := do
  let raw ← elementsOf engine (rawItems source)
  let gathered ← raw.foldlM (gather engine) ([], 1)
  return present engine machine
    ⟨gathered.1, (isSpark (field source "active")).getD "me", gathered.2⟩

/-! ## Events -/

structure Event where
  /-- `none` where it is no text. -/
  send : Option String
  payload : JsValue

/-- The structured result beside the sentence. -/
inductive Report
  | refused (error : String) (items : Option (List Item))
  | created (items : List Item)
  | updated (items : List Item) (unknownIds rejected : List String)
  | deleted (items : List Item) (unknownIds : Option (List String))
  | spark (spark : String)
  | listed (items : List Item)

structure Outcome where
  state : Board
  said : Option String
  record : Option Report

def speak (domain : Domain) (said : String) (record : Report) : Outcome :=
  ⟨present engine machine domain, some said, some record⟩

/-- A next state that says nothing. -/
def silent (board : Board) : Outcome := ⟨board, none, none⟩

def byId (items : List Item) (id : String) : Option Item := items.find? fun item => item.id == id

/-- The item that `byId` finds is changed in place. -/
def changeById (items : List Item) (id : String) (f : Item → Item) : List Item :=
  match items with
  | [] => []
  | item :: rest => if item.id == id then f item :: rest else item :: changeById rest id f

def idList (payload : JsValue) : List String :=
  match asList (field payload "ids") with
  | some ids => textsOf ids
  | none => (asText (field payload "id")).toList

def legalStatus (src : Status) (dst : String) : Bool :=
  src.is dst || machine.statusMoves.any fun move => src.is move.src && move.dst == dst

def nextStatus (src : Status) : Status :=
  match machine.cycles.find? fun move => src.is move.src with
  | some move => .text move.dst
  | none => src

def titlesOf (payload : JsValue) : List String :=
  match asList (field payload "titles") with
  | some titles => textsOf titles
  | none => (asText (field payload "text")).toList

def creation (payload : JsValue) (spark : String) (n : ℕ) (title : String) : Item where
  id := itemId n
  title := title
  status := .text "open"
  spark := spark
  tags := cleanTags (field payload "tags")
  due := cleanDue (field payload "due")
  responsible := (asText (field payload "responsible")).getD ""

def creations (payload : JsValue) (spark : String) : ℕ → List String → List Item
  | _, [] => []
  | n, title :: titles =>
    if Text.trim title = "" then creations payload spark n titles
    else creation payload spark n (Text.trim title) :: creations payload spark (n + 1) titles

def reduceCreate (domain : Domain) (payload : JsValue) : Outcome :=
  let spark := (isSpark (field payload "spark")).getD domain.active
  let created := creations payload spark domain.nextId (titlesOf payload)
  let domain := { domain with items := domain.items ++ created, nextId := domain.nextId + created.length }
  if created.isEmpty then speak engine machine domain "no titles given" (.refused "no titles given" none)
  else
    let sparkNote := if spark != domain.active then " — in spark " ++ spark ++ ", not visible on the current view" else ""
    speak engine machine domain
      ("created (" ++ toString created.length ++ "): " ++ lines engine created ++ sparkNote) (.created created)

/-- The status an update asks for: the `status` of the wire wins over `done`. -/
def wanted (payload : JsValue) : Except Thrown (Option Word) :=
  (tableAt engine wireStatus (field payload "status")).map fun word =>
    match word, field payload "done" with
    | none, some (.bool finished) => some (.text (if finished then "done" else "open"))
    | _, _ => word

/-- The machine allows no move to what is asked for. -/
def refuses (status : Status) : Option Word → Bool
  | none => false
  | some (.text dst) => !legalStatus machine status dst
  | some (.inherited _) => true

/-- The gate of an update. -/
def moved (wanted : Option Word) (item : Item) : Item :=
  match wanted with
  | some (.text dst) => if legalStatus machine item.status dst then { item with status := .text dst } else item
  | _ => item

def edited (payload : JsValue) (item : Item) : Item where
  id := item.id
  title := ((asText (field payload "title")).filter fun title => Text.trim title != "").elim item.title Text.trim
  status := item.status
  spark := (isSpark (field payload "spark")).getD item.spark
  tags := if (field payload "tags").isSome then cleanTags (field payload "tags") else item.tags
  due := if (field payload "due").isSome then cleanDue (field payload "due") else item.due
  responsible := (asText (field payload "responsible")).getD item.responsible

/-- Whether an update touches one of the other fields. -/
def edits (payload : JsValue) : Bool :=
  ((asText (field payload "title")).filter fun title => Text.trim title != "").isSome ||
    (field payload "tags").isSome || (field payload "due").isSome ||
    (asText (field payload "responsible")).isSome || (isSpark (field payload "spark")).isSome

/-- The loop of an update: the items, and the ids that changed, that are unknown, that were refused. -/
structure Updating where
  items : List Item
  updated : List String
  unknown : List String
  rejected : List String

def updateOne (wanted : Option Word) (payload : JsValue) (loop : Updating) (id : String) : Updating :=
  match byId loop.items id with
  | none => { loop with unknown := loop.unknown ++ [id] }
  | some item =>
    let differs := match wanted with
      | none => false
      | some (.text dst) => !item.status.is dst
      | some (.inherited _) => true
    let refused := differs && refuses machine item.status wanted
    { items := changeById loop.items id fun item => edited payload (moved machine wanted item)
      updated := if (differs && !refused) || edits payload then loop.updated ++ [id] else loop.updated
      unknown := loop.unknown
      rejected :=
        if refused then
          loop.rejected ++ [item.id ++ " " ++ item.status.key engine ++ "->" ++ wordText engine wanted]
        else loop.rejected }

def noIds (domain : Domain) : Outcome :=
  speak engine machine domain ("no valid ids given — take the ids from this list. " ++ listSaid engine domain.items)
    (.refused "no valid ids given" (some domain.items))

def updateSaid (updated : List Item) (unknown rejected : List String) : String :=
  let notes := (if unknown.isEmpty then [] else ["unknown ids: " ++ ", ".intercalate unknown]) ++
    (if rejected.isEmpty then [] else ["illegal transition: " ++ ", ".intercalate rejected])
  if updated.isEmpty then "nothing changed" ++ (if notes.isEmpty then "" else "; " ++ "; ".intercalate notes)
  else "changed (" ++ toString updated.length ++ "): " ++ lines engine updated ++
    (if notes.isEmpty then "" else ". " ++ "; ".intercalate notes)

def reduceUpdate (domain : Domain) (payload : JsValue) : Except Thrown Outcome :=
  if (idList payload).isEmpty then .ok (noIds engine machine domain)
  else
    (wanted engine payload).map fun wanted =>
      let loop := (idList payload).foldl (updateOne engine machine wanted payload) ⟨domain.items, [], [], []⟩
      let updated := loop.updated.filterMap (byId loop.items)
      speak engine machine { domain with items := loop.items } (updateSaid engine updated loop.unknown loop.rejected)
        (.updated updated loop.unknown loop.rejected)

def reduceDelete (domain : Domain) (payload : JsValue) : Outcome :=
  let gone := idList payload
  if gone.isEmpty then noIds engine machine domain
  else
    let missing := gone.filter fun id => (byId domain.items id).isNone
    let deleted := domain.items.filter fun item => gone.contains item.id
    let domain := { domain with items := domain.items.filter fun item => !gone.contains item.id }
    speak engine machine domain
      (if deleted.isEmpty then "nothing deleted; unknown ids: " ++ ", ".intercalate missing
        else "deleted (" ++ toString deleted.length ++ "): " ++ lines engine deleted)
      (.deleted deleted (some missing))

def toggled (status : Status) : String := if status.is "done" then "open" else "done"

def toggle (item : Item) : Item :=
  if legalStatus machine item.status (toggled item.status) then { item with status := .text (toggled item.status) }
  else item

def cycle (item : Item) : Item := { item with status := nextStatus machine item.status }

/-- `TOGGLE` and `CYCLE`: the item that the payload names, if there is one, is changed. -/
def reduceOne (domain : Domain) (payload : JsValue) (f : Item → Item) : Outcome :=
  silent (present engine machine
    { domain with items := (asText (field payload "id")).elim domain.items fun id => changeById domain.items id f })

def reduceShow (domain : Domain) (payload : JsValue) : Outcome :=
  let active := (isSpark (field payload "spark")).getD domain.active
  speak engine machine { domain with active := active } ("The active spark is now " ++ active ++ ".") (.spark active)

def reduceClearDone (domain : Domain) : Outcome :=
  let cleared := domain.items.filter fun item => item.spark == domain.active && item.status.is "done"
  speak engine machine
    { domain with items := domain.items.filter fun item => item.spark != domain.active || !item.status.is "done" }
    (if cleared.isEmpty then "deleted: nothing"
      else "deleted (" ++ toString cleared.length ++ "): " ++ lines engine cleared)
    (.deleted cleared none)

def reduce (state : Board) (ev : Event) : Except Thrown Outcome :=
  let domain := state.toDomain
  let payload := if truthy ev.payload then ev.payload else .obj []
  match ev.send with
  | some "CREATE" => .ok (reduceCreate engine machine domain payload)
  | some "ADD" => .ok (reduceCreate engine machine domain payload)
  | some "UPDATE" => reduceUpdate engine machine domain payload
  | some "DELETE" => .ok (reduceDelete engine machine domain payload)
  | some "TOGGLE" => .ok (reduceOne engine machine domain payload (toggle machine))
  | some "CYCLE" => .ok (reduceOne engine machine domain payload (cycle machine))
  | some "SHOW" => .ok (reduceShow engine machine domain payload)
  | some "CLEAR_DONE" => .ok (reduceClearDone engine machine domain)
  | some "LIST" => .ok (speak engine machine domain (listSaid engine domain.items) (.listed domain.items))
  | _ => .ok (silent state)

/-! ## Model text -/

structure ShapeResult where
  state : Board
  ops : List (Option JsValue)

/-- What the name of an operation is sent as; an inherited name is no text, so no event answers to it. -/
def opEvent (word : Word) (op : JsValue) : Event where
  send := match word with
    | .text send => some send
    | .inherited _ => none
  payload := op

/-- The loop of `shape`: `none` once an operation is not known. -/
def shapeOps (next : Board) (applied : List (Option JsValue)) : List JsValue → Except Thrown (Option ShapeResult)
  | [] => .ok (some ⟨next, applied⟩)
  | op :: ops =>
    if truthy op then
      match tableAt engine eventFor (field op "op") with
      | .error e => .error e
      | .ok none => .ok none
      | .ok (some word) =>
        match reduce engine machine next (opEvent word op) with
        | .error e => .error e
        | .ok outcome => shapeOps outcome.state (applied ++ [field op "op"]) ops
    else .ok none

/-- Raw model text in, validated transitions out, or `none`. -/
def shape (state : Board) (rawText : String) : Except Thrown (Option ShapeResult) :=
  match engine.parse rawText with
  | none => .ok none
  | some parsed =>
    match asList (field parsed "ops") with
    | none => .ok none
    | some ops => shapeOps engine machine state [] ops

end Program

end AvenOS.Todo
