import AvenOS.Todo.BoardInvariant

/-! # Runs of the board

A run starts from a source and goes on with events and with texts of the model. An update that the machine refuses still
changes the other fields of its item; and a name that every object inherits is taken for a status or an operation. Where
no step of a run does either, every board of the run is well formed. -/
namespace AvenOS.Todo
open Actors ExceptLoop KeyedTable

section Runs
variable (engine : Engine) (machine : Machine)

inductive Call
  | event (ev : Event)
  | shape (text : String)

def next (board : Board) (ev : Event) : Board :=
  match reduce engine machine board ev with
  | .ok outcome => outcome.state
  | .error _ => board

structure Reduction where
  before : Board
  event : Event
  after : Board

def reductions (board : Board) : List Event → List Reduction
  | [] => []
  | ev :: events => ⟨board, ev, next engine machine board ev⟩ :: reductions (next engine machine board ev) events

def opsOf (text : String) : Option (List JsValue) := (engine.parse text).bind fun parsed => asList (field parsed "ops")

/-- The event that `shape` makes of an operation. -/
def sentOp (op : JsValue) : Event :=
  match tableAt engine eventFor (field op "op") with
  | .ok (some word) => opEvent word op
  | _ => ⟨none, op⟩

/-- The events whose reductions the host keeps. -/
def callEvents (board : Board) : Call → List Event
  | .event ev => [ev]
  | .shape text =>
    match shape engine machine board text with
    | .ok (some _) => ((opsOf engine text).getD []).map (sentOp engine)
    | _ => []

def afterCall (board : Board) : Call → Board
  | .event ev => next engine machine board ev
  | .shape text =>
    match shape engine machine board text with
    | .ok (some result) => result.state
    | _ => board

def runEvents (board : Board) : List Call → List Event
  | [] => []
  | call :: calls => callEvents engine machine board call ++ runEvents (afterCall engine machine board call) calls

def history (start : Board) (calls : List Call) : List Reduction :=
  reductions engine machine start (runEvents engine machine start calls)

/-- The boards of a run, the first one first. -/
def boards (start : Board) (calls : List Call) : List Board :=
  start :: (history engine machine start calls).map Reduction.after

/-! ## What is promised -/

/-- The payload as `reduce` reads it. -/
def Event.read (ev : Event) : JsValue := if truthy ev.payload then ev.payload else .obj []

def asked (ev : Event) (item : Item) : Option Word :=
  match ev.send with
  | some "UPDATE" =>
    if item.id ∈ idList ev.read then
      match wanted engine ev.read with
      | .ok word => word
      | .error _ => none
    else none
  | some "TOGGLE" => if asText (field ev.read "id") = some item.id then some (.text (toggled item.status)) else none
  | _ => none

def Refused (ev : Event) (item : Item) : Prop := refuses machine item.status (asked engine ev item) = true

instance (ev : Event) (item : Item) : Decidable (Refused engine machine ev item) :=
  inferInstanceAs (Decidable (_ = true))

/-- The event that an operation names: create, update or delete. -/
def opSend (op : JsValue) : Option String := (asText (field op "op")).bind fun name => eventFor.lookup name

/-- The text is an object with a list of operations, each of which names an event. -/
def Listed (text : String) (ops : List JsValue) : Prop := opsOf engine text = some ops ∧ ∀ op ∈ ops, opSend op ≠ none

structure ShapeLaw (board : Board) (text : String) : Prop where
  listed : ∀ ops, Listed engine text ops →
    shape engine machine board text = .ok (some
      ⟨(ops.map fun op => ⟨opSend op, op⟩).foldl (next engine machine) board, ops.map fun op => field op "op"⟩)
  garbage : (¬ ∃ ops, Listed engine text ops) → shape engine machine board text = .ok none

/-- What holds of a run from a first board. -/
structure BoardKept (start : Board) (calls : List Call) : Prop where
  distinct : ∀ board ∈ boards engine machine start calls, Keyed Item.id board.items
  among : ∀ board ∈ boards engine machine start calls, ∀ item ∈ board.items, item.status.Among machine
  shows : ∀ board ∈ boards engine machine start calls, Shows engine machine board
  beyond : ∀ (i j : ℕ) (earlier later : Board), i ≤ j → (boards engine machine start calls)[i]? = some earlier →
    (boards engine machine start calls)[j]? = some later → ∀ item ∈ earlier.items, ∃ n < later.nextId, item.id = itemId n
  neverReused : ∀ (i j k : ℕ) (first second third : Board), i ≤ j → j ≤ k →
    (boards engine machine start calls)[i]? = some first → (boards engine machine start calls)[j]? = some second →
    (boards engine machine start calls)[k]? = some third → ∀ id ∈ first.items.map Item.id,
    id ∉ second.items.map Item.id → id ∉ third.items.map Item.id
  moves : ∀ r ∈ history engine machine start calls, Moves machine r.before.toDomain r.after.toDomain
  untouched : ∀ r ∈ history engine machine start calls, ∀ item ∈ r.before.items, Refused engine machine r.event item →
    item ∈ r.after.items
  shape : ∀ before text after, calls = before ++ .shape text :: after →
    ShapeLaw engine machine (before.foldl (afterCall engine machine) start) text

/-! ## Where it holds -/

structure Unedited (payload : JsValue) (item : Item) : Prop where
  title : ∀ title, field payload "title" = some (.str title) → Text.trim title = "" ∨ Text.trim title = item.title
  tags : ∀ value, field payload "tags" = some value → cleanTags (some value) = item.tags
  due : ∀ value, field payload "due" = some value → cleanDue (some value) = item.due
  responsible : ∀ name, field payload "responsible" = some (.str name) → name = item.responsible
  spark : ∀ spark, isSpark (field payload "spark") = some spark → spark = item.spark

/-- An update asks nothing else of the items whose move it asks for in vain. -/
def Spares (board : Board) (ev : Event) : Prop :=
  ev.send = some "UPDATE" → ∀ item ∈ board.items, Refused engine machine ev item → Unedited ev.read item

def Convertible (value : Option JsValue) : Prop := ∀ v, value = some v → converts v = true

/-- The name of an operation and the status of an update can be read, and the name is not an inherited one. -/
structure PlainOp (op : JsValue) : Prop where
  own : OwnEntry engine eventFor (field op "op")
  name : Convertible (field op "op")
  status : opSend op = some "UPDATE" → idList op ≠ [] → Convertible (field op "status")

/-- Up to the first operation that names no event, all are plain. -/
def PlainText (text : String) : Prop :=
  ∀ before op after, opsOf engine text = some (before ++ op :: after) → (∀ earlier ∈ before, opSend earlier ≠ none) →
    PlainOp engine op

structure PlainRun (start : Board) (calls : List Call) : Prop where
  spares : ∀ r ∈ history engine machine start calls, Spares engine machine r.before r.event
  texts : ∀ text, .shape text ∈ calls → PlainText engine text

end Runs

/-! ## Refused items -/

section Refusals
variable {engine : Engine} {machine : Machine}

variable {item : Item} {board : Board} {ev : Event}

theorem Unedited.edited {payload : JsValue} (h : Unedited payload item) : edited payload item = item := by
  have htitle : ((asText (field payload "title")).filter fun title => Text.trim title != "").elim item.title Text.trim =
      item.title := by
    cases htext : asText (field payload "title") with
    | none => rfl
    | some title =>
      have hfield : field payload "title" = some (.str title) := by
        unfold asText at htext
        split at htext
        next text heq => rw [heq, Option.some.inj htext]
        next => cases htext
      rcases h.title title hfield with hblank | hsame
      · simp [Option.filter, hblank]
      · by_cases hblank : Text.trim title = ""
        · simp [Option.filter, hblank]
        · have hkeeps : (some title).filter (fun title => Text.trim title != "") = some title := by
            simp [Option.filter, hblank]
          rw [hkeeps]
          exact hsame
  have htags : (if (field payload "tags").isSome then cleanTags (field payload "tags") else item.tags) = item.tags := by
    cases hvalue : field payload "tags" with
    | none => rfl
    | some value => exact h.tags value hvalue
  have hdue : (if (field payload "due").isSome then cleanDue (field payload "due") else item.due) = item.due := by
    cases hvalue : field payload "due" with
    | none => rfl
    | some value => exact h.due value hvalue
  have hresponsible : (asText (field payload "responsible")).getD item.responsible = item.responsible := by
    unfold asText
    split
    next name heq => exact h.responsible name heq
    next => rfl
  have hspark : (isSpark (field payload "spark")).getD item.spark = item.spark := by
    cases hvalue : isSpark (field payload "spark") with
    | none => rfl
    | some spark => exact h.spark spark hvalue
  unfold Todo.edited
  rw [htitle, htags, hdue, hresponsible, hspark]

theorem moved_of_refuses {wanted : Option Word} (h : refuses machine item.status wanted = true) :
    moved machine wanted item = item := by
  unfold moved
  split
  next dst =>
    rw [if_neg]
    simpa [refuses] using h
  next => rfl

theorem reduceUpdate_untouched {outcome : Outcome}
    (hsend : ev.send = some "UPDATE") (h : reduceUpdate engine machine board.toDomain ev.read = .ok outcome)
    (hitem : item ∈ board.items) (hrefused : Refused engine machine ev item) (hunedited : Unedited ev.read item) :
    item ∈ outcome.state.items := by
  unfold reduceUpdate at h
  split at h
  · cases h
    exact hitem
  · obtain ⟨word, hword, rfl⟩ := map_eq_ok h
    refine updates_mem (idList ev.read) hitem fun hnamed => ?_
    have hasked : asked engine ev item = word := by
      simp only [asked, hsend, if_pos hnamed, hword]
    rw [Refused, hasked] at hrefused
    rw [moved_of_refuses hrefused]
    exact hunedited.edited

theorem reduceToggle_untouched (hsend : ev.send = some "TOGGLE")
    (hitem : item ∈ board.items) (hrefused : Refused engine machine ev item) :
    item ∈ (reduceOne engine machine board.toDomain ev.read (toggle machine)).state.items := by
  show item ∈ (asText (field ev.read "id")).elim board.items fun id => changeById board.items id (toggle machine)
  cases hid : asText (field ev.read "id") with
  | none => exact hitem
  | some id =>
    refine mem_changeById hitem fun hsame => ?_
    have hasked : asked engine ev item = some (.text (toggled item.status)) := by
      simp only [asked, hsend, hid, hsame, if_true]
    rw [Refused, hasked] at hrefused
    unfold toggle
    rw [if_neg]
    simpa [refuses] using hrefused

theorem reduce_untouched {outcome : Outcome}
    (h : reduce engine machine board ev = .ok outcome) (hspares : Spares engine machine board ev)
    (hitem : item ∈ board.items) (hrefused : Refused engine machine ev item) : item ∈ outcome.state.items := by
  have hnone : ev.send ≠ some "UPDATE" → ev.send ≠ some "TOGGLE" → False := by
    intro hupdate htoggle
    have hasked : asked engine ev item = none := by
      unfold asked
      split
      next hsend => exact absurd hsend hupdate
      next hsend => exact absurd hsend htoggle
      next => rfl
    rw [Refused, hasked] at hrefused
    cases hrefused
  by_cases hupdate : ev.send = some "UPDATE"
  · have hreduce : reduceUpdate engine machine board.toDomain ev.read = .ok outcome := by
      unfold reduce at h
      rw [hupdate] at h
      exact h
    exact reduceUpdate_untouched hupdate hreduce hitem hrefused (hspares hupdate item hitem hrefused)
  · by_cases htoggle : ev.send = some "TOGGLE"
    · unfold reduce at h
      rw [htoggle] at h
      cases h
      exact reduceToggle_untouched htoggle hitem hrefused
    · exact absurd (hnone hupdate htoggle) id

end Refusals

/-! ## Model text -/

section Texts
variable {engine : Engine} {machine : Machine}

variable {text : String}

theorem asText_some {value : Option JsValue} (h : asText value = some text) : value = some (.str text) := by
  unfold asText at h
  split at h
  · rw [Option.some.inj h]
  · cases h

variable (engine) in
theorem opSend_some {op : JsValue} {send : String} (h : opSend op = some send) :
    truthy op = true ∧ tableAt engine eventFor (field op "op") = .ok (some (.text send)) := by
  obtain ⟨name, hname, hsend⟩ := Option.bind_eq_some_iff.mp h
  have hfield := asText_some hname
  constructor
  · cases op <;> first | rfl | cases hfield
  · rw [hfield, tableAt_text, entry_own hsend]

variable (machine) in
theorem reduce_op {op : JsValue} {send : String} (hsend : opSend op = some send) (hplain : PlainOp engine op)
    (board : Board) : ∃ outcome, reduce engine machine board ⟨some send, op⟩ = .ok outcome := by
  have htruthy := (opSend_some engine hsend).1
  by_cases hupdate : send = "UPDATE"
  · subst hupdate
    unfold reduce
    simp only [htruthy, if_true]
    unfold reduceUpdate
    by_cases hids : (idList op).isEmpty = true
    · rw [if_pos hids]
      exact ⟨_, rfl⟩
    · rw [if_neg hids]
      have hconverts := hplain.status hsend (by simpa using hids)
      have hwanted : ∃ word, wanted engine op = .ok word := by
        unfold wanted tableAt
        split
        · exact ⟨_, rfl⟩
        next value hvalue =>
          rw [if_pos (hconverts value hvalue)]
          exact ⟨_, rfl⟩
      obtain ⟨word, hword⟩ := hwanted
      rw [hword]
      exact ⟨_, rfl⟩
  · unfold reduce
    dsimp only
    split
    case h_3 heq => exact absurd (Option.some.inj heq) hupdate
    all_goals exact ⟨_, rfl⟩

theorem next_of_ok {board : Board} {ev : Event} {outcome : Outcome} (h : reduce engine machine board ev = .ok outcome) :
    next engine machine board ev = outcome.state := by
  rw [next, h]

theorem shapeOps_listed {ops : List JsValue} (hnamed : ∀ op ∈ ops, opSend op ≠ none) (hplain : ∀ op ∈ ops, PlainOp engine op)
    (board : Board) (applied : List (Option JsValue)) : shapeOps engine machine board applied ops = .ok (some
      ⟨(ops.map fun op => ⟨opSend op, op⟩).foldl (next engine machine) board,
        applied ++ ops.map fun op => field op "op"⟩) := by
  induction ops generalizing board applied with
  | nil => simp [shapeOps]
  | cons op ops ih =>
    obtain ⟨send, hsend⟩ := Option.ne_none_iff_exists'.mp (hnamed op List.mem_cons_self)
    obtain ⟨outcome, houtcome⟩ := reduce_op machine hsend (hplain op List.mem_cons_self) board
    have hrest := ih (fun op hop => hnamed op (List.mem_cons_of_mem _ hop))
      (fun op hop => hplain op (List.mem_cons_of_mem _ hop)) outcome.state (applied ++ [field op "op"])
    obtain ⟨htruthy, hentry⟩ := opSend_some engine hsend
    have hevent : opEvent (.text send) op = ⟨some send, op⟩ := rfl
    rw [shapeOps, if_pos htruthy, hentry]
    simp only [hevent, houtcome]
    rw [hrest, List.map_cons, List.foldl_cons, hsend, next_of_ok houtcome, List.map_cons, List.append_assoc,
      List.singleton_append]

theorem shapeOps_garbage {ops : List JsValue} (hunnamed : ∃ op ∈ ops, opSend op = none)
    (hplain : ∀ before op after, ops = before ++ op :: after → (∀ earlier ∈ before, opSend earlier ≠ none) → PlainOp engine op)
    (board : Board) (applied : List (Option JsValue)) : shapeOps engine machine board applied ops = .ok none := by
  induction ops generalizing board applied with
  | nil =>
    obtain ⟨op, hop, _⟩ := hunnamed
    cases hop
  | cons op ops ih =>
    have hop := hplain [] op ops rfl fun earlier hmem => absurd hmem List.not_mem_nil
    unfold shapeOps
    cases hsend : opSend op with
    | none =>
      split
      next =>
        cases hentry : tableAt engine eventFor (field op "op") with
        | error e =>
          unfold tableAt at hentry
          split at hentry
          · cases hentry
          next value hvalue =>
            rw [if_pos (hop.name value hvalue)] at hentry
            cases hentry
        | ok word =>
          cases word with
          | none => rfl
          | some word =>
            obtain ⟨key, text, hfield, htext⟩ := hop.own word hentry
            rw [opSend, hfield] at hsend
            exact absurd (hsend.symm.trans htext) (by simp)
      next => rfl
    | some send =>
      obtain ⟨outcome, houtcome⟩ := reduce_op machine hsend hop board
      obtain ⟨htruthy, hentry⟩ := opSend_some engine hsend
      have hevent : opEvent (.text send) op = ⟨some send, op⟩ := rfl
      rw [if_pos htruthy, hentry]
      simp only [hevent, houtcome]
      refine ih ?_ (fun before later after hsplit hearlier => ?_) _ _
      · obtain ⟨unnamed, hmem, hnone⟩ := hunnamed
        rcases List.mem_cons.mp hmem with rfl | hrest
        · exact absurd (hsend.symm.trans hnone) (by simp)
        · exact ⟨unnamed, hrest, hnone⟩
      · refine hplain (op :: before) later after (by rw [hsplit, List.cons_append]) fun earlier hmem => ?_
        rcases List.mem_cons.mp hmem with rfl | hrest
        · rw [hsend]
          simp
        · exact hearlier earlier hrest

theorem shape_ops (board : Board) : shape engine machine board text = match opsOf engine text with
      | none => .ok none
      | some ops => shapeOps engine machine board [] ops := by
  unfold shape opsOf
  cases engine.parse text with
  | none => rfl
  | some parsed =>
    cases hops : asList (field parsed "ops") with
    | none => simp only [Option.bind_some, hops]
    | some ops => simp only [Option.bind_some, hops]

theorem shapeLaw (hplain : PlainText engine text) (board : Board) : ShapeLaw engine machine board text := by
  constructor
  · rintro ops ⟨hops, hnamed⟩
    rw [shape_ops, hops]
    refine shapeOps_listed hnamed (fun op hop => ?_) board []
    obtain ⟨before, after, rfl⟩ := List.append_of_mem hop
    exact hplain before op after hops fun earlier hearlier => hnamed earlier (List.mem_append_left _ hearlier)
  · intro hnone
    rw [shape_ops]
    cases hops : opsOf engine text with
    | none => rfl
    | some ops =>
      refine shapeOps_garbage ?_ (fun before op after hsplit => hplain before op after (by rw [hops, hsplit])) board []
      by_contra hall
      refine hnone ⟨ops, hops, fun op hop hsend => hall ⟨op, hop, hsend⟩⟩

end Texts

end AvenOS.Todo
