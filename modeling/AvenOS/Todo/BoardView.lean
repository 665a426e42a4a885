import Mathlib.Data.List.Perm.Basic
import AvenOS.Todo.Board

/-! # What a board shows

Over a machine with the three states, a board that is derived from items with these states has one column for each, and
its counters are the sizes of the columns. -/
namespace AvenOS.Todo
open Actors

structure TodoMachine (machine : Machine) : Prop where
  states : machine.states.Perm ["open", "doing", "done"]
  cycles : ∀ edge ∈ machine.cycles, edge ∈ machine.statusMoves

def Status.Among (machine : Machine) (status : Status) : Prop := ∃ state ∈ machine.states, status = .text state

/-- What a view renders is derived from the domain fields. -/
structure Shows (engine : Engine) (machine : Machine) (board : Board) : Prop where
  rows : board.rows = (board.items.filter fun item => item.spark == board.active).map (row engine)
  columns : board.columns.map Column.status = machine.states
  columnRows : ∀ column ∈ board.columns, ∀ row ∈ column.rows, row.status = .text column.status
  partition : (board.columns.flatMap Column.rows).Perm board.rows
  count : ∀ column ∈ board.columns, column.count = column.rows.length
  counts : ∀ column ∈ board.columns, countAt board.counts column.status = column.rows.length
  total : countAt board.counts "total" = board.rows.length
  progressPct : ∀ column ∈ board.columns, column.status = "done" →
    board.progressPct = if board.rows.length = 0 then 0 else engine.percent column.rows.length board.rows.length
  progressText : ∀ column ∈ board.columns, column.status = "done" →
    board.progressText = toString column.rows.length ++ " of " ++ toString board.rows.length ++ " done"

variable {engine : Engine} {machine : Machine}

theorem TodoMachine.nodup (h : TodoMachine machine) : machine.states.Nodup := h.states.nodup_iff.mpr (by decide)

theorem TodoMachine.mem (h : TodoMachine machine) {state : String} :
    state ∈ machine.states ↔ state = "open" ∨ state = "doing" ∨ state = "done" := by
  rw [h.states.mem_iff]
  simp

theorem TodoMachine.among_open (h : TodoMachine machine) : Status.Among machine (.text "open") :=
  ⟨"open", h.mem.mpr (.inl rfl), rfl⟩

/-! ## Counters -/

theorem lookup_map_count (counts : Counts) (key name : String) :
    (counts.map fun count => if count.1 == key then (key, count.2.map (· + 1)) else count).lookup name =
      if name = key then (counts.lookup name).map (Option.map (· + 1)) else counts.lookup name := by
  induction counts with
  | nil => simp
  | cons count counts ih =>
    obtain ⟨own, value⟩ := count
    by_cases hkey : own = key
    · subst hkey
      by_cases hname : name = own
      · subst hname
        simp
      · simp only [List.map_cons, beq_self_eq_true, if_true, List.lookup_cons, beq_eq_false_iff_ne.mpr hname, ih,
          if_neg hname]
    · by_cases hname : name = own
      · subst hname
        simp [hkey]
      · simp only [List.map_cons, beq_eq_false_iff_ne.mpr hkey, Bool.false_eq_true, if_false, List.lookup_cons,
          beq_eq_false_iff_ne.mpr hname, ih]

variable {counts : Counts} {name : String} {n : ℕ} {items : List Item} {status : Status} {domain : Domain}

theorem lookup_append_of_some {found : Option ℕ} (more : Counts) (h : counts.lookup name = some found) :
    (counts ++ more).lookup name = some found := by
  rw [List.lookup_append, h]
  rfl

theorem lookup_bump (key : String) (h : counts.lookup name = some (some n)) :
    (bump counts key).lookup name = some (some (n + if key = name then 1 else 0)) := by
  unfold bump
  by_cases hany : (counts.any fun count => count.1 == key) = true
  · rw [if_pos hany, lookup_map_count, h]
    by_cases hname : name = key
    · simp [hname]
    · simp [hname, Ne.symm hname]
  · have hname : key ≠ name := by
      rintro rfl
      have hmem := List.lookup_eq_some_iff.mp h
      obtain ⟨l₁, l₂, rfl, _⟩ := hmem
      exact hany (by simp)
    rw [if_neg hany, if_neg hname, Nat.add_zero]
    by_cases hproto : (key == "__proto__") = true
    · rw [if_pos hproto, h]
    · rw [if_neg hproto]
      exact lookup_append_of_some _ h

theorem lookup_bumps (items : List Item) (h : counts.lookup name = some (some n)) :
    (items.foldl (fun counts item => bump counts (item.status.key engine)) counts).lookup name =
      some (some (n + items.countP fun item => item.status.key engine == name)) := by
  induction items generalizing counts n with
  | nil => exact h
  | cons item items ih =>
    rw [List.foldl_cons, ih (lookup_bump _ h), List.countP_cons]
    simp only [beq_iff_eq, Option.some.injEq]
    omega

theorem countAt_countsOf
    (h : ([("open", some 0), ("doing", some 0), ("done", some 0), ("total", some items.length)] : Counts).lookup name =
      some (some n)) :
    countAt (countsOf engine items) name = n + items.countP fun item => item.status.key engine == name := by
  rw [countAt, countsOf, lookup_bumps items h]
  rfl

/-! ## Columns -/

theorem is_iff {text : String} : status.is text = true ↔ status = .text text := by
  cases status with
  | text value => simp [Status.is]
  | spelled value => simp [Status.is]

theorem Status.Among.key (h : Status.Among machine status) (name : String) :
    (status.key engine == name) = status.is name := by
  obtain ⟨state, _, rfl⟩ := h
  rfl

theorem visible_among (h : ∀ item ∈ domain.items, Status.Among machine item.status) :
    ∀ item ∈ visible domain, Status.Among machine item.status :=
  fun item hitem => h item (List.mem_of_mem_filter hitem)

theorem countP_rows (h : ∀ item ∈ items, Status.Among machine item.status) (name : String) :
    (items.countP fun item => item.status.key engine == name) =
      ((items.map (row engine)).filter fun row => row.status.is name).length := by
  rw [← List.countP_eq_length_filter, List.countP_map]
  exact List.countP_congr fun item hitem => by rw [(h item hitem).key]; rfl

theorem flatMap_filter_perm {states : List String} (hnodup : states.Nodup) (rows : List Row)
    (h : ∀ row ∈ rows, ∃ state ∈ states, row.status = .text state) :
    (states.flatMap fun state => rows.filter fun row => row.status.is state).Perm rows := by
  induction rows with
  | nil => simp
  | cons first rows ih =>
    obtain ⟨state, hstate, hstatus⟩ := h first List.mem_cons_self
    obtain ⟨before, after, rfl⟩ := List.append_of_mem hstate
    have hrest := ih fun row hrow => h row (List.mem_cons_of_mem _ hrow)
    -- Only the column of its own state takes the first row.
    have hother : ∀ other ∈ before ++ after,
        ((first :: rows).filter fun row => row.status.is other) = rows.filter fun row => row.status.is other := by
      intro other hmem
      have hne : other ≠ state := by
        rintro rfl
        exact (List.nodup_cons.mp (List.perm_middle.nodup_iff.mp hnodup)).1 hmem
      rw [List.filter_cons_of_neg]
      rw [hstatus, is_iff]
      exact fun heq => hne (Status.text.inj heq).symm
    have hbefore : (before.flatMap fun other => (first :: rows).filter fun row => row.status.is other) =
        before.flatMap fun other => rows.filter fun row => row.status.is other :=
      List.flatMap_congr fun other hmem => hother other (List.mem_append_left _ hmem)
    have hafter : (after.flatMap fun other => (first :: rows).filter fun row => row.status.is other) =
        after.flatMap fun other => rows.filter fun row => row.status.is other :=
      List.flatMap_congr fun other hmem => hother other (List.mem_append_right _ hmem)
    have hown : ((first :: rows).filter fun row => row.status.is state) =
        first :: rows.filter fun row => row.status.is state :=
      List.filter_cons_of_pos (is_iff.2 hstatus)
    rw [List.flatMap_append, List.flatMap_cons] at hrest ⊢
    rw [hbefore, hafter, hown, List.cons_append]
    exact List.perm_middle.trans (hrest.cons first)

theorem present_shows (hmachine : TodoMachine machine) (h : ∀ item ∈ domain.items, Status.Among machine item.status) :
    Shows engine machine (present engine machine domain) := by
  have hshown := visible_among h
  have hrows : ∀ shown ∈ (visible domain).map (row engine), ∃ state ∈ machine.states, shown.status = .text state := by
    intro shown hmem
    obtain ⟨item, hitem, rfl⟩ := List.mem_map.mp hmem
    exact hshown item hitem
  have hcount : ∀ state ∈ machine.states, countAt (countsOf engine (visible domain)) state =
      (((visible domain).map (row engine)).filter fun row => row.status.is state).length := by
    intro state hstate
    rw [← countP_rows hshown]
    rcases hmachine.mem.mp hstate with rfl | rfl | rfl <;> rw [countAt_countsOf rfl, Nat.zero_add]
  have htotal : countAt (countsOf engine (visible domain)) "total" = ((visible domain).map (row engine)).length := by
    have hnone : ((visible domain).countP fun item => item.status.key engine == "total") = 0 := by
      rw [List.countP_eq_zero]
      intro item hitem htotal
      obtain ⟨state, hstate, hstatus⟩ := hshown item hitem
      rw [hstatus] at htotal
      have hname : state = "total" := by simpa [Status.key] using htotal
      rcases hmachine.mem.mp hstate with rfl | rfl | rfl <;> exact absurd hname (by decide)
    rw [countAt_countsOf rfl, hnone, List.length_map]
    rfl
  have hcolumn : ∀ shown ∈ (present engine machine domain).columns, ∃ state ∈ machine.states,
      column ((visible domain).map (row engine)) state = shown := fun _ hmem => List.mem_map.mp hmem
  refine ⟨rfl, ?_, ?_, ?_, ?_, ?_, htotal, ?_, ?_⟩
  · simp [present, column, Function.comp_def]
  · intro shown hmem row hrow
    obtain ⟨state, _, rfl⟩ := hcolumn shown hmem
    exact is_iff.1 (List.mem_filter.mp hrow).2
  · have hflat : (present engine machine domain).columns.flatMap Column.rows = machine.states.flatMap fun state =>
        ((visible domain).map (row engine)).filter fun row => row.status.is state := by
      simp [present, column, List.flatMap_map]
    rw [hflat]
    exact flatMap_filter_perm hmachine.nodup _ hrows
  · intro shown hmem
    obtain ⟨state, _, rfl⟩ := hcolumn shown hmem
    rfl
  · intro shown hmem
    obtain ⟨state, hstate, rfl⟩ := hcolumn shown hmem
    exact hcount state hstate
  · intro shown hmem hdone
    obtain ⟨state, hstate, rfl⟩ := hcolumn shown hmem
    change state = "done" at hdone
    subst hdone
    show (if countAt (countsOf engine (visible domain)) "total" = 0 then 0 else _) = _
    rw [hcount _ hstate, htotal]
    rfl
  · intro shown hmem hdone
    obtain ⟨state, hstate, rfl⟩ := hcolumn shown hmem
    change state = "done" at hdone
    subst hdone
    show toString (countAt (countsOf engine (visible domain)) "done") ++ " of " ++
      toString (countAt (countsOf engine (visible domain)) "total") ++ " done" = _
    rw [hcount _ hstate, htotal]
    rfl

end AvenOS.Todo
