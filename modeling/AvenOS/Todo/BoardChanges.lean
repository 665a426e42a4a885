import AvenOS.Todo.BoardView

/-! # What a reduction changes

An event adds items with the next ids, takes items away, or moves statuses along the machine. -/
namespace AvenOS.Todo
open Actors ExceptLoop

section Changes
variable (engine : Engine) (machine : Machine)

structure Stepped (item next : Item) : Prop where
  id : next.id = item.id
  status : next.status = item.status ∨
    ∃ move ∈ machine.statusMoves, item.status = .text move.src ∧ next.status = .text move.dst

inductive Change (before after : Domain) : Prop
  | added (payload : JsValue) (spark : String) (titles : List String)
      (items : after.items = before.items ++ creations payload spark before.nextId titles)
      (nextId : after.nextId = before.nextId + (creations payload spark before.nextId titles).length)
  | removed (keep : Item → Bool) (items : after.items = before.items.filter keep) (nextId : after.nextId = before.nextId)
  | stepped (items : List.Forall₂ (Stepped machine) before.items after.items) (nextId : after.nextId = before.nextId)

variable {engine machine}

theorem Stepped.refl (item : Item) : Stepped machine item item := ⟨rfl, .inl rfl⟩

theorem Change.kept {before after : Domain} (hitems : after.items = before.items) (hnext : after.nextId = before.nextId) :
    Change machine before after :=
  .stepped (hitems ▸ List.forall₂_same.mpr fun item _ => Stepped.refl item) hnext

/-! ## Changes in place -/

variable {f : Item → Item} {item : Item} {wanted : Option Word}

theorem changeById_forall₂ {R : Item → Item → Prop} (hrefl : ∀ item, R item item) (hf : ∀ item, R item (f item))
    (items : List Item) (id : String) : List.Forall₂ R items (changeById items id f) := by
  induction items with
  | nil => exact .nil
  | cons item items ih =>
    unfold changeById
    split
    · exact .cons (hf item) (List.forall₂_same.mpr fun item _ => hrefl item)
    · exact .cons (hrefl item) ih

theorem mem_changeById {items : List Item} {id : String} (hitem : item ∈ items)
    (hf : item.id = id → f item = item) : item ∈ changeById items id f := by
  induction items with
  | nil => cases hitem
  | cons first items ih =>
    unfold changeById
    by_cases hid : (first.id == id) = true
    · rw [if_pos hid]
      rcases List.mem_cons.mp hitem with rfl | hrest
      · rw [hf (by simpa using hid)]
        exact List.mem_cons_self
      · exact List.mem_cons_of_mem _ hrest
    · rw [if_neg hid]
      rcases List.mem_cons.mp hitem with rfl | hrest
      · exact List.mem_cons_self
      · exact List.mem_cons_of_mem _ (ih hrest)

/-! ## Moves -/

variable {dst : String} {next : Item} {payload : JsValue} {outcome : Outcome}

theorem legalStatus_cases {status : Status} (h : legalStatus machine status dst = true) :
    status = .text dst ∨ ∃ move ∈ machine.statusMoves, status = .text move.src ∧ Status.text dst = .text move.dst := by
  rcases Bool.or_eq_true_iff.mp h with hsame | hmove
  · exact .inl (is_iff.1 hsame)
  · obtain ⟨move, hmem, hboth⟩ := List.any_eq_true.mp hmove
    obtain ⟨hsrc, hdst⟩ := Bool.and_eq_true_iff.mp hboth
    exact .inr ⟨move, hmem, is_iff.1 hsrc, congrArg Status.text (beq_iff_eq.mp hdst).symm⟩

theorem stepped_of_legal (hid : next.id = item.id) (hlegal : legalStatus machine item.status dst = true)
    (hstatus : next.status = .text dst) : Stepped machine item next := by
  refine ⟨hid, ?_⟩
  rcases legalStatus_cases hlegal with hsame | ⟨move, hmove, hsrc, hdst⟩
  · exact .inl (hstatus.trans hsame.symm)
  · exact .inr ⟨move, hmove, hsrc, hstatus.trans hdst⟩

theorem toggle_stepped (item : Item) : Stepped machine item (toggle machine item) := by
  unfold toggle
  split
  next hlegal => exact stepped_of_legal rfl hlegal rfl
  next => exact Stepped.refl item

theorem nextStatus_cases (hmachine : TodoMachine machine) (status : Status) :
    nextStatus machine status = status ∨
      ∃ move ∈ machine.statusMoves, status = .text move.src ∧ nextStatus machine status = .text move.dst := by
  unfold nextStatus
  cases hfind : machine.cycles.find? fun move => status.is move.src with
  | none => exact .inl rfl
  | some move =>
    have hsrc : status.is move.src = true := by simpa using List.find?_some hfind
    exact .inr ⟨move, hmachine.cycles move (List.mem_of_find?_eq_some hfind), is_iff.1 hsrc, rfl⟩

theorem cycle_stepped (hmachine : TodoMachine machine) (item : Item) : Stepped machine item (cycle machine item) :=
  ⟨rfl, nextStatus_cases hmachine item.status⟩

/-! ## The loop of an update

Ids may be listed twice; once an item has the status that was asked for, asking again changes nothing. -/

/-- An item after some rounds of the loop. -/
structure Asked (machine : Machine) (wanted : Option Word) (item next : Item) : Prop where
  id : next.id = item.id
  status : next.status = item.status ∨
    ∃ dst, wanted = some (.text dst) ∧ legalStatus machine item.status dst = true ∧ next.status = .text dst

theorem Asked.refl (item : Item) : Asked machine wanted item item := ⟨rfl, .inl rfl⟩

theorem Asked.trans {a b c : Item} (h : Asked machine wanted a b) (h' : Asked machine wanted b c) :
    Asked machine wanted a c := by
  refine ⟨h'.id.trans h.id, ?_⟩
  rcases h'.status with hkept | ⟨dst, hwanted, hlegal, hdst⟩
  · rw [hkept]
    exact h.status
  · rcases h.status with hkept | ⟨earlier, hwanted', hlegal', _⟩
    · rw [hkept] at hlegal
      exact .inr ⟨dst, hwanted, hlegal, hdst⟩
    · cases hwanted.symm.trans hwanted'
      exact .inr ⟨dst, hwanted, hlegal', hdst⟩

theorem Asked.stepped (h : Asked machine wanted item next) : Stepped machine item next := by
  rcases h.status with hkept | ⟨dst, _, hlegal, hdst⟩
  · exact ⟨h.id, .inl hkept⟩
  · exact stepped_of_legal h.id hlegal hdst

theorem moved_asked (wanted : Option Word) (payload : JsValue) (item : Item) :
    Asked machine wanted item (edited payload (moved machine wanted item)) := by
  cases wanted with
  | none => exact ⟨rfl, .inl rfl⟩
  | some word =>
    cases word with
    | inherited name => exact ⟨rfl, .inl rfl⟩
    | text dst =>
      by_cases hlegal : legalStatus machine item.status dst = true
      · have hmoved : moved machine (some (.text dst)) item = { item with status := .text dst } := if_pos hlegal
        rw [hmoved]
        exact ⟨rfl, .inr ⟨dst, rfl, hlegal, rfl⟩⟩
      · have hkept : moved machine (some (.text dst)) item = item := if_neg hlegal
        rw [hkept]
        exact ⟨rfl, .inl rfl⟩

theorem asked_trans {l m n : List Item} (h : List.Forall₂ (Asked machine wanted) l m)
    (h' : List.Forall₂ (Asked machine wanted) m n) : List.Forall₂ (Asked machine wanted) l n := by
  induction h generalizing n with
  | nil => exact h'
  | cons hab _ ih =>
    cases h' with
    | cons hbc hrest => exact .cons (hab.trans hbc) (ih hrest)

theorem updateOne_items (wanted : Option Word) (payload : JsValue) (loop : Updating) (id : String) :
    (updateOne engine machine wanted payload loop id).items =
      changeById loop.items id (fun item => edited payload (moved machine wanted item)) ∨
    (updateOne engine machine wanted payload loop id).items = loop.items := by
  unfold updateOne
  split
  · exact .inr rfl
  · exact .inl rfl

theorem updates_asked (wanted : Option Word) (payload : JsValue) (ids : List String) (loop : Updating) :
    List.Forall₂ (Asked machine wanted) loop.items
      (ids.foldl (updateOne engine machine wanted payload) loop).items := by
  induction ids generalizing loop with
  | nil => exact List.forall₂_same.mpr fun item _ => Asked.refl item
  | cons id ids ih =>
    rw [List.foldl_cons]
    refine asked_trans ?_ (ih _)
    rcases updateOne_items wanted payload loop id with hchanged | hkept
    · rw [hchanged]
      exact changeById_forall₂ Asked.refl (moved_asked wanted payload) _ _
    · rw [hkept]
      exact List.forall₂_same.mpr fun item _ => Asked.refl item

theorem updates_mem (ids : List String) {loop : Updating} (hitem : item ∈ loop.items)
    (hkept : item.id ∈ ids → edited payload (moved machine wanted item) = item) :
    item ∈ (ids.foldl (updateOne engine machine wanted payload) loop).items := by
  induction ids generalizing loop with
  | nil => exact hitem
  | cons id ids ih =>
    rw [List.foldl_cons]
    refine ih ?_ fun hmem => hkept (List.mem_cons_of_mem _ hmem)
    rcases updateOne_items wanted payload loop id with hchanged | hsame
    · rw [hchanged]
      exact mem_changeById hitem fun hid => hkept (hid ▸ List.mem_cons_self)
    · rw [hsame]
      exact hitem

/-! ## One reduction -/

theorem reduceCreate_change (domain : Domain) (payload : JsValue) :
    ∃ after, (reduceCreate engine machine domain payload).state = present engine machine after ∧
      Change machine domain after := by
  have hadded : ∀ created, created = creations payload ((isSpark (field payload "spark")).getD domain.active) domain.nextId
        (titlesOf payload) → Change machine domain
          { domain with items := domain.items ++ created, nextId := domain.nextId + created.length } := by
    rintro created rfl
    exact .added payload _ _ rfl rfl
  refine ⟨_, ?_, hadded _ rfl⟩
  unfold reduceCreate
  dsimp only
  split <;> rfl

theorem reduceUpdate_change {domain : Domain} (h : reduceUpdate engine machine domain payload = .ok outcome) :
    ∃ after, outcome.state = present engine machine after ∧ Change machine domain after := by
  unfold reduceUpdate at h
  split at h
  · cases h
    exact ⟨domain, rfl, Change.kept rfl rfl⟩
  · obtain ⟨wanted, _, rfl⟩ := map_eq_ok h
    refine ⟨_, rfl, .stepped ?_ rfl⟩
    exact (updates_asked wanted payload (idList payload) ⟨domain.items, [], [], []⟩).imp fun _ _ => Asked.stepped

theorem reduceDelete_change (domain : Domain) (payload : JsValue) :
    ∃ after, (reduceDelete engine machine domain payload).state = present engine machine after ∧
      Change machine domain after := by
  unfold reduceDelete
  dsimp only
  split
  · exact ⟨domain, rfl, Change.kept rfl rfl⟩
  · exact ⟨_, rfl, .removed (fun item => !(idList payload).contains item.id) rfl rfl⟩

theorem reduceOne_change (hf : ∀ item, Stepped machine item (f item)) (domain : Domain) (payload : JsValue) :
    ∃ after, (reduceOne engine machine domain payload f).state = present engine machine after ∧
      Change machine domain after := by
  refine ⟨_, rfl, .stepped ?_ rfl⟩
  cases asText (field payload "id") with
  | none => exact List.forall₂_same.mpr fun item _ => Stepped.refl item
  | some id => exact changeById_forall₂ Stepped.refl hf domain.items id

theorem reduce_change (hmachine : TodoMachine machine) {board : Board} {ev : Event}
    (h : reduce engine machine board ev = .ok outcome) : outcome.state = board ∨
      ∃ after, outcome.state = present engine machine after ∧ Change machine board.toDomain after := by
  unfold reduce at h
  dsimp only at h
  split at h
  · cases h
    exact .inr (reduceCreate_change _ _)
  · cases h
    exact .inr (reduceCreate_change _ _)
  · exact .inr (reduceUpdate_change h)
  · cases h
    exact .inr (reduceDelete_change _ _)
  · cases h
    exact .inr (reduceOne_change toggle_stepped _ _)
  · cases h
    exact .inr (reduceOne_change (cycle_stepped hmachine) _ _)
  · cases h
    exact .inr ⟨_, rfl, Change.kept rfl rfl⟩
  · cases h
    exact .inr ⟨_, rfl, .removed (fun item => item.spark != board.active || !item.status.is "done") rfl rfl⟩
  · cases h
    exact .inr ⟨_, rfl, Change.kept rfl rfl⟩
  · cases h
    exact .inl rfl

end Changes

end AvenOS.Todo
