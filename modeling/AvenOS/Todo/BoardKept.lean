import AvenOS.Todo.BoardRun

/-! # Boards that are kept

From a plain source, a run whose steps are plain keeps every board well formed, hands out every id once, moves statuses
only along the machine and leaves what is refused alone. -/
namespace AvenOS.Todo
open Actors KeyedTable

section Kept
variable {engine : Engine} {machine : Machine}

/-- A board that a run may go on from. -/
def Sane (engine : Engine) (machine : Machine) (board : Board) : Prop :=
  Sound machine board.toDomain ∧ Shows engine machine board

theorem next_change (hmachine : TodoMachine machine) (board : Board) (ev : Event) :
    next engine machine board ev = board ∨ ∃ after, next engine machine board ev = present engine machine after ∧
      Change machine board.toDomain after := by
  unfold next
  cases hreduce : reduce engine machine board ev with
  | error e => exact .inl rfl
  | ok outcome => exact reduce_change hmachine hreduce

variable {board start : Board} {ev : Event}

theorem next_sane (hmachine : TodoMachine machine) (h : Sane engine machine board) (ev : Event) :
    Sane engine machine (next engine machine board ev) := by
  rcases next_change hmachine board ev with hsame | ⟨after, hafter, hchange⟩
  · rw [hsame]
    exact h
  · rw [hafter]
    have hsound := hchange.sound hmachine h.1
    exact ⟨hsound, present_shows hmachine hsound.among⟩

theorem next_grows (hmachine : TodoMachine machine) (board : Board) (ev : Event) :
    Grows board.toDomain (next engine machine board ev).toDomain := by
  rcases next_change hmachine board ev with hsame | ⟨after, hafter, hchange⟩
  · rw [hsame]
    exact Grows.refl _
  · rw [hafter]
    exact hchange.grows

theorem next_moves (hmachine : TodoMachine machine) (h : Sane engine machine board) (ev : Event) :
    Moves machine board.toDomain (next engine machine board ev).toDomain := by
  rcases next_change hmachine board ev with hsame | ⟨after, hafter, hchange⟩
  · rw [hsame]
    exact (Change.kept rfl rfl).moves h.1
  · rw [hafter]
    exact hchange.moves h.1

theorem next_untouched {item : Item} (hspares : Spares engine machine board ev) (hitem : item ∈ board.items)
    (hrefused : Refused engine machine ev item) : item ∈ (next engine machine board ev).items := by
  unfold next
  cases hreduce : reduce engine machine board ev with
  | error e => exact hitem
  | ok outcome => exact reduce_untouched hreduce hspares hitem hrefused

/-! ## All reductions of a run -/

theorem reductions_sane (hmachine : TodoMachine machine) (h : Sane engine machine board) (events : List Event) :
    ∀ r ∈ reductions engine machine board events,
      Sane engine machine r.before ∧ r.after = next engine machine r.before r.event := by
  induction events generalizing board with
  | nil => exact fun r hr => absurd hr List.not_mem_nil
  | cons ev events ih =>
    intro r hr
    rcases List.mem_cons.mp hr with rfl | hrest
    · exact ⟨h, rfl⟩
    · exact ih (next_sane hmachine h ev) r hrest

theorem reductions_grow (hmachine : TodoMachine machine) (board : Board) (events : List Event) :
    (board :: (reductions engine machine board events).map Reduction.after).Pairwise fun earlier later =>
      Grows earlier.toDomain later.toDomain := by
  induction events generalizing board with
  | nil => exact List.pairwise_singleton _ _
  | cons ev events ih =>
    have hrest := ih (next engine machine board ev)
    refine List.pairwise_cons.mpr ⟨fun later hlater => ?_, hrest⟩
    have hnext : Grows board.toDomain (next engine machine board ev).toDomain := next_grows hmachine board ev
    rcases List.mem_cons.mp hlater with rfl | hmem
    · exact hnext
    · exact hnext.trans ((List.pairwise_cons.mp hrest).1 later hmem)

theorem boards_sane (hmachine : TodoMachine machine) (h : Sane engine machine start) (calls : List Call) :
    ∀ board ∈ boards engine machine start calls, Sane engine machine board := by
  intro board hboard
  rcases List.mem_cons.mp hboard with rfl | hmem
  · exact h
  · obtain ⟨r, hr, rfl⟩ := List.mem_map.mp hmem
    obtain ⟨hbefore, hafter⟩ := reductions_sane hmachine h _ r hr
    rw [hafter]
    exact next_sane hmachine hbefore r.event

theorem boards_grow (hmachine : TodoMachine machine) {calls : List Call} {i j : ℕ} {earlier later : Board}
    (hij : i ≤ j) (hi : (boards engine machine start calls)[i]? = some earlier)
    (hj : (boards engine machine start calls)[j]? = some later) : Grows earlier.toDomain later.toDomain := by
  rcases hij.eq_or_lt with rfl | hlt
  · cases hi.symm.trans hj
    exact Grows.refl _
  · obtain ⟨hilt, rfl⟩ := List.getElem?_eq_some_iff.mp hi
    obtain ⟨hjlt, rfl⟩ := List.getElem?_eq_some_iff.mp hj
    exact List.pairwise_iff_getElem.mp (reductions_grow hmachine start _) i j hilt hjlt hlt

theorem Grows.fresh {before after : Domain} (h : Grows before after) {id : String} (hnew : id ∈ after.items.map Item.id)
    (hold : id ∉ before.items.map Item.id) : ∃ n, before.nextId ≤ n ∧ id = itemId n := by
  obtain ⟨item, hitem, rfl⟩ := List.mem_map.mp hnew
  rcases h.ids item hitem with ⟨earlier, hearlier, hid⟩ | ⟨n, hn, _, hid⟩
  · exact absurd (hid ▸ List.mem_map_of_mem hearlier) hold
  · exact ⟨n, hn, hid⟩

theorem board_kept {source : JsValue} {start : Board} {calls : List Call} (hmachine : TodoMachine machine)
    (hstart : initState engine machine source = .ok start) (hsource : PlainSource engine source)
    (hrun : PlainRun engine machine start calls) : BoardKept engine machine start calls := by
  have hsane : Sane engine machine start := initState_sound hmachine hsource hstart
  have hboards := boards_sane hmachine hsane calls
  have hreductions := reductions_sane hmachine hsane (runEvents engine machine start calls)
  have hbeyond : ∀ (i j : ℕ) (earlier later : Board), i ≤ j → (boards engine machine start calls)[i]? = some earlier →
      (boards engine machine start calls)[j]? = some later →
      ∀ item ∈ earlier.items, ∃ n < later.nextId, item.id = itemId n := by
    intro i j earlier later hij hi hj item hitem
    obtain ⟨n, hn, hid⟩ := (hboards earlier (List.mem_of_getElem? hi)).1.numbered item hitem
    exact ⟨n, hn.trans_le (boards_grow hmachine hij hi hj).nextId, hid⟩
  refine ⟨fun board hboard => (hboards board hboard).1.distinct, fun board hboard => (hboards board hboard).1.among,
    fun board hboard => (hboards board hboard).2, hbeyond, ?_, ?_, ?_, ?_⟩
  · intro i j k first second third hij hjk hi hj hk id hfirst hsecond hthird
    obtain ⟨item, hitem, rfl⟩ := List.mem_map.mp hfirst
    obtain ⟨n, hn, hid⟩ := hbeyond i j first second hij hi hj item hitem
    obtain ⟨m, hm, hmid⟩ := (boards_grow hmachine hjk hj hk).fresh hthird hsecond
    have hnm : n = m := itemId_injective (hid.symm.trans hmid)
    omega
  · intro r hr
    obtain ⟨hbefore, hafter⟩ := hreductions r hr
    rw [hafter]
    exact next_moves hmachine hbefore r.event
  · intro r hr item hitem hrefused
    obtain ⟨_, hafter⟩ := hreductions r hr
    rw [hafter]
    exact next_untouched (hrun.spares r hr) hitem hrefused
  · intro before text after hsplit
    exact shapeLaw (hrun.texts text (hsplit ▸ by simp)) _

theorem spares_of_bare
    (h : ∀ name ∈ ["title", "tags", "due", "responsible", "spark"], (field ev.read name).isNone = true) :
    Spares engine machine board ev := by
  have hnone : ∀ name ∈ ["title", "tags", "due", "responsible", "spark"], field ev.read name = none :=
    fun name hname => Option.isNone_iff_eq_none.mp (h name hname)
  intro _ item _ _
  refine ⟨?_, ?_, ?_, ?_, ?_⟩ <;> intro value hvalue
  · rw [hnone "title" (by simp)] at hvalue
    cases hvalue
  · rw [hnone "tags" (by simp)] at hvalue
    cases hvalue
  · rw [hnone "due" (by simp)] at hvalue
    cases hvalue
  · rw [hnone "responsible" (by simp)] at hvalue
    cases hvalue
  · rw [hnone "spark" (by simp)] at hvalue
    cases hvalue

end Kept

/-! ## A board with the machine of the todo skill -/

namespace TodoSkill

def machine : Machine where
  states := ["open", "doing", "done"]
  transitions := [⟨"create", "none", "open"⟩, ⟨"start", "open", "doing"⟩, ⟨"finish", "doing", "done"⟩,
    ⟨"complete", "open", "done"⟩, ⟨"reopen", "done", "open"⟩, ⟨"delete", "open", "deleted"⟩,
    ⟨"delete", "doing", "deleted"⟩, ⟨"delete", "done", "deleted"⟩, ⟨"clear_done", "done", "deleted"⟩]
  cycles := [⟨"open", "doing"⟩, ⟨"doing", "done"⟩, ⟨"done", "open"⟩]

theorem machine_todo : TodoMachine machine := ⟨List.Perm.refl _, by decide⟩

def answer : String := "create and delete"

def ops : List JsValue :=
  [.obj [("op", .str "create"), ("titles", .arr [.str "Call"])], .obj [("op", .str "delete"), ("ids", .arr [.str "w1"])]]

def engine : Engine where
  numberText value := toString value.num
  inheritedText name := name
  percent finished total := (200 * finished + total) / (2 * total)
  parse text := if text = answer then some (.obj [("ops", .arr ops)]) else none
  below value := match value with
    | .num n => some n.ceil.toNat
    | _ => some 0

def source : JsValue := .obj [("items", .arr [.obj [("title", .str "Task"), ("status", .str "done")]])]

def start : Board := present engine machine
  ⟨[⟨"w1", "Task", .text "done", "me", [], .never, ""⟩], "me", 2⟩

theorem initState_source : initState engine machine source = .ok start := rfl

def refusedMove : Call := .event ⟨some "UPDATE", .obj [("ids", .arr [.str "w1"]), ("status", .str "in_progress")]⟩

def refusedEdit : Call :=
  .event ⟨some "UPDATE", .obj [("ids", .arr [.str "w1"]), ("status", .str "in_progress"), ("title", .str "Renamed")]⟩

def calls : List Call :=
  [refusedMove, .event ⟨some "CREATE", .obj [("titles", .arr [.str "Write", .str " "])]⟩,
    .event ⟨some "CYCLE", .obj [("id", .str "w2")]⟩, .shape answer]

end TodoSkill

open TodoSkill in
theorem board_kept_shaped : ((boards engine machine start calls).map fun board => board.items.map Item.id) =
      [["w1"], ["w1"], ["w1", "w2"], ["w1", "w2"], ["w1", "w2", "w3"], ["w2", "w3"]] ∧
    BoardKept engine machine start calls := by
  refine ⟨by decide +kernel, board_kept machine_todo initState_source ?_ ⟨?_, ?_⟩⟩
  · intro raw hraw it hit word hword
    cases hraw
    obtain ⟨value, hmem, heq⟩ := List.mem_map.mp hit
    cases heq
    rw [List.mem_singleton.mp hmem]
    exact ⟨"done", "Done", rfl, rfl⟩
  · have hbare : ∀ r ∈ history engine machine start calls, r.event.send = some "UPDATE" →
        ∀ name ∈ ["title", "tags", "due", "responsible", "spark"], (field r.event.read name).isNone = true := by
      decide +kernel
    exact fun r hr hsend => spares_of_bare (hbare r hr hsend) hsend
  · intro text htext before op after hops _
    have htext' : text = answer := by simpa [calls, refusedMove] using htext
    have hall : opsOf engine text = some ops := by rw [htext']; rfl
    have hop : op ∈ ops := by
      rw [Option.some.inj (hall.symm.trans hops)]
      simp
    rcases List.mem_cons.mp hop with rfl | hop
    · exact ⟨fun word hword => ⟨"create", "CREATE", rfl, rfl⟩, fun v hv => by cases hv; rfl, fun hsend => absurd hsend (by decide)⟩
    · rw [List.mem_singleton.mp hop]
      exact ⟨fun word hword => ⟨"delete", "DELETE", rfl, rfl⟩, fun v hv => by cases hv; rfl, fun hsend => absurd hsend (by decide)⟩

open TodoSkill in
theorem refused_item_edited : TodoMachine machine ∧ initState engine machine source = .ok start ∧
    ¬ BoardKept engine machine start [refusedEdit] := by
  refine ⟨machine_todo, initState_source, fun h => ?_⟩
  have hrefused : ∃ r ∈ history engine machine start [refusedEdit], ∃ item ∈ r.before.items,
      Refused engine machine r.event item ∧ item.title = "Task" ∧ r.after.items.map Item.title = ["Renamed"] :=
    ⟨_, List.mem_cons_self, _, List.mem_cons_self, by decide +kernel⟩
  obtain ⟨r, hr, item, hitem, hrefuses, htitle, htitles⟩ := hrefused
  have hmem := List.mem_map_of_mem (f := Item.title) (h.untouched r hr item hitem hrefuses)
  rw [htitles, htitle] at hmem
  exact absurd hmem (by decide)

end AvenOS.Todo
