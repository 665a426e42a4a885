import AvenOS.Foundations.KeyedTable
import AvenOS.Todo.BoardChanges

/-! # The items of a board

Ids are handed out in order and never again, statuses are states of the machine, and an item that the machine refuses to
move is left alone where the event asks for nothing else. -/
namespace AvenOS.Todo
open Actors ExceptLoop KeyedTable

section Items
variable (engine : Engine) (machine : Machine)

structure Sound (domain : Domain) : Prop where
  distinct : Keyed Item.id domain.items
  numbered : ∀ item ∈ domain.items, ∃ n < domain.nextId, item.id = itemId n
  among : ∀ item ∈ domain.items, item.status.Among machine

/-- Later items are earlier ones, or have got an id since. -/
structure Grows (before after : Domain) : Prop where
  nextId : before.nextId ≤ after.nextId
  ids : ∀ item ∈ after.items, (∃ earlier ∈ before.items, earlier.id = item.id) ∨
    ∃ n, before.nextId ≤ n ∧ n < after.nextId ∧ item.id = itemId n

/-- Where an item is in both boards, its status is kept or moved by the machine. -/
def Moves (before after : Domain) : Prop :=
  ∀ item ∈ before.items, ∀ next ∈ after.items, next.id = item.id → Stepped machine item next

variable {engine machine}

variable {n : ℕ} {item next : Item} {l m : List Item} {before after : Domain}

theorem itemId_injective {m : ℕ} (h : itemId n = itemId m) : n = m := by
  have hrepr : toString n = toString m := (String.append_right_inj _).mp h
  have hdigits : Nat.toDigits 10 n = Nat.toDigits 10 m := String.ofList_inj.mp hrepr
  have hvalue := congrArg (fun digits => Nat.ofDigitChars 10 digits 0) hdigits
  simpa only [Nat.ofDigitChars_toDigits (b := 10) (by decide) (by decide)] using hvalue

/-! ## New items -/

theorem creations_ids (payload : JsValue) (spark : String) (n : ℕ) (titles : List String) :
    (creations payload spark n titles).map Item.id =
      (List.range' n (creations payload spark n titles).length).map itemId := by
  induction titles generalizing n with
  | nil => rfl
  | cons title titles ih =>
    unfold creations
    split
    · exact ih n
    · rw [List.map_cons, ih, List.length_cons, List.range'_succ, List.map_cons]
      rfl

theorem creations_open (payload : JsValue) (spark : String) (n : ℕ) (titles : List String) :
    ∀ item ∈ creations payload spark n titles, item.status = .text "open" := by
  induction titles generalizing n with
  | nil => exact fun item hitem => absurd hitem (List.not_mem_nil)
  | cons title titles ih =>
    unfold creations
    split
    · exact ih n
    · intro item hitem
      rcases List.mem_cons.mp hitem with rfl | hrest
      · rfl
      · exact ih (n + 1) item hrest

theorem creations_numbered {payload : JsValue} {spark : String} {titles : List String}
    (h : item ∈ creations payload spark n titles) :
    ∃ m, n ≤ m ∧ m < n + (creations payload spark n titles).length ∧ item.id = itemId m := by
  have hmem : item.id ∈ (creations payload spark n titles).map Item.id := List.mem_map_of_mem h
  rw [creations_ids, List.mem_map] at hmem
  obtain ⟨m, hrange, hid⟩ := hmem
  rw [List.mem_range'_1] at hrange
  exact ⟨m, hrange.1, hrange.2, hid.symm⟩

theorem creations_distinct (payload : JsValue) (spark : String) (n : ℕ) (titles : List String) :
    Keyed Item.id (creations payload spark n titles) := by
  rw [Keyed, creations_ids]
  exact List.Nodup.map (fun _ _ => itemId_injective) (List.nodup_range' 1)

/-! ## One change -/

theorem forall₂_ids (h : List.Forall₂ (Stepped machine) l m) : m.map Item.id = l.map Item.id := by
  induction h with
  | nil => rfl
  | cons hstep _ ih => rw [List.map_cons, List.map_cons, hstep.id, ih]

theorem Sound.same {domain : Domain} (h : Sound machine domain) {a b : Item} (ha : a ∈ domain.items) (hb : b ∈ domain.items)
    (hid : a.id = b.id) : a = b := h.distinct.eq ha hb hid

theorem Stepped.among (h : Stepped machine item next) (hitem : item.status.Among machine) :
    next.status.Among machine := by
  rcases h.status with hkept | ⟨move, hmove, _, hdst⟩
  · rw [hkept]
    exact hitem
  · obtain ⟨transition, htransition, rfl⟩ := List.mem_map.mp hmove
    have hboth := (List.mem_filter.mp htransition).2
    exact ⟨transition.dst, by simpa using (Bool.and_eq_true_iff.mp hboth).2, hdst⟩

theorem Change.grows (h : Change machine before after) : Grows before after := by
  cases h with
  | added payload spark titles hitems hnext =>
    refine ⟨hnext ▸ Nat.le_add_right _ _, fun item hitem => ?_⟩
    rw [hitems] at hitem
    rcases List.mem_append.mp hitem with hold | hnew
    · exact .inl ⟨item, hold, rfl⟩
    · rw [hnext]
      exact .inr (creations_numbered hnew)
  | removed keep hitems hnext =>
    refine ⟨hnext.ge, fun item hitem => .inl ⟨item, ?_, rfl⟩⟩
    rw [hitems] at hitem
    exact List.mem_of_mem_filter hitem
  | stepped hitems hnext =>
    refine ⟨hnext.ge, fun next hmem => ?_⟩
    obtain ⟨item, hitem, hstep⟩ := forall₂_right hitems hmem
    exact .inl ⟨item, hitem, hstep.id.symm⟩

theorem Grows.numbered (h : Grows before after)
    (hnumbered : ∀ item ∈ before.items, ∃ n < before.nextId, item.id = itemId n) :
    ∀ item ∈ after.items, ∃ n < after.nextId, item.id = itemId n := by
  intro item hitem
  rcases h.ids item hitem with ⟨earlier, hearlier, hid⟩ | ⟨n, _, hn, hid⟩
  · obtain ⟨n, hn, hown⟩ := hnumbered earlier hearlier
    exact ⟨n, hn.trans_le h.nextId, hid.symm.trans hown⟩
  · exact ⟨n, hn, hid⟩

theorem Change.sound (hmachine : TodoMachine machine) (hsound : Sound machine before)
    (h : Change machine before after) : Sound machine after := by
  refine ⟨?_, h.grows.numbered hsound.numbered, ?_⟩
  · cases h with
    | added payload spark titles hitems _ =>
      rw [hitems, Keyed, List.map_append]
      refine List.Nodup.append hsound.distinct (creations_distinct payload spark before.nextId titles) ?_
      intro id hold hnew
      obtain ⟨item, hitem, rfl⟩ := List.mem_map.mp hold
      obtain ⟨made, hmade, hid⟩ := List.mem_map.mp hnew
      obtain ⟨n, hn, hown⟩ := hsound.numbered item hitem
      obtain ⟨m, hm, _, hmid⟩ := creations_numbered hmade
      have hnm : m = n := itemId_injective (hmid.symm.trans (hid.trans hown))
      omega
    | removed keep hitems _ =>
      rw [hitems]
      exact List.Nodup.sublist (List.filter_sublist.map Item.id) hsound.distinct
    | stepped hitems _ =>
      rw [Keyed, forall₂_ids hitems]
      exact hsound.distinct
  · intro item hitem
    cases h with
    | added payload spark titles hitems _ =>
      rw [hitems] at hitem
      rcases List.mem_append.mp hitem with hold | hnew
      · exact hsound.among item hold
      · rw [creations_open payload spark before.nextId titles item hnew]
        exact hmachine.among_open
    | removed keep hitems _ =>
      rw [hitems] at hitem
      exact hsound.among item (List.mem_of_mem_filter hitem)
    | stepped hitems _ =>
      obtain ⟨earlier, hearlier, hstep⟩ := forall₂_right hitems hitem
      exact hstep.among (hsound.among earlier hearlier)

theorem Change.moves (hsound : Sound machine before) (h : Change machine before after) :
    Moves machine before after := by
  intro item hitem next hnext hid
  cases h with
  | added payload spark titles hitems _ =>
    rw [hitems] at hnext
    rcases List.mem_append.mp hnext with hold | hnew
    · rw [hsound.same hold hitem hid]
      exact Stepped.refl item
    · obtain ⟨n, hn, hown⟩ := hsound.numbered item hitem
      obtain ⟨m, hm, _, hmid⟩ := creations_numbered hnew
      have hnm : m = n := itemId_injective (hmid.symm.trans (hid.trans hown))
      omega
  | removed keep hitems _ =>
    rw [hitems] at hnext
    rw [hsound.same (List.mem_of_mem_filter hnext) hitem hid]
    exact Stepped.refl item
  | stepped hitems _ =>
    obtain ⟨earlier, hearlier, hstep⟩ := forall₂_right hitems hnext
    rw [← hsound.same hearlier hitem (hstep.id.symm.trans hid)]
    exact hstep

theorem Grows.refl (domain : Domain) : Grows domain domain := ⟨Nat.le_refl _, fun item hitem => .inl ⟨item, hitem, rfl⟩⟩

theorem Grows.trans {a b c : Domain} (h : Grows a b) (h' : Grows b c) : Grows a c := by
  refine ⟨h.nextId.trans h'.nextId, fun item hitem => ?_⟩
  rcases h'.ids item hitem with ⟨earlier, hearlier, hid⟩ | ⟨n, hn, hlt, hid⟩
  · rcases h.ids earlier hearlier with ⟨first, hfirst, hfirstid⟩ | ⟨n, hn, hlt, hnid⟩
    · exact .inl ⟨first, hfirst, hfirstid.trans hid⟩
    · exact .inr ⟨n, hn, hlt.trans_le h'.nextId, hid.symm.trans hnid⟩
  · exact .inr ⟨n, h.nextId.trans hn, hlt, hid⟩

end Items

/-! ## The initial state -/

section Initial
variable {engine : Engine} {machine : Machine}

variable (engine) in
def OwnEntry (table : List (String × String)) (value : Option JsValue) : Prop :=
  ∀ word, tableAt engine table value = .ok (some word) →
    ∃ key text, value = some (.str key) ∧ table.lookup key = some text

variable (engine) in
/-- No status of an item of the source names what every object inherits, or is a list that is spelled like a status. -/
def PlainSource (source : JsValue) : Prop :=
  ∀ raw, elementsOf engine (rawItems source) = .ok raw → ∀ it, some it ∈ raw →
    OwnEntry engine statusLabel (field it "status")

theorem initialStatus_among (hmachine : TodoMachine machine) {value : Option JsValue} {status : Status}
    (hplain : OwnEntry engine statusLabel value) (h : initialStatus engine value = .ok status) : status.Among machine := by
  obtain ⟨word, hword, rfl⟩ := map_eq_ok h
  cases word with
  | none => exact hmachine.among_open
  | some word =>
    obtain ⟨key, text, rfl, hkey⟩ := hplain word hword
    refine ⟨key, hmachine.mem.mpr ?_, rfl⟩
    obtain ⟨l₁, l₂, hsplit, _⟩ := List.lookup_eq_some_iff.mp hkey
    have hmem : (key, text) ∈ statusLabel := hsplit ▸ by simp
    simp only [statusLabel, List.mem_cons, Prod.mk.injEq, List.not_mem_nil, or_false] at hmem
    tauto

theorem gather_sound (hmachine : TodoMachine machine) {it : Option JsValue} {gathered next : Gathered} {active : String}
    (hplain : ∀ value, it = some value → OwnEntry engine statusLabel (field value "status"))
    (hsound : Sound machine ⟨gathered.1, active, gathered.2⟩) (h : gather engine gathered it = .ok next) :
    Sound machine ⟨next.1, active, next.2⟩ := by
  unfold gather at h
  split at h
  · cases h
    exact hsound
  next value =>
    split at h
    · cases h
      exact hsound
    · obtain ⟨status, hstatus, rfl⟩ := map_eq_ok h
      have hamong := initialStatus_among hmachine (hplain value rfl) hstatus
      refine ⟨?_, ?_, ?_⟩
      · refine hsound.distinct.concat fun item hitem hid => ?_
        obtain ⟨n, hn, hown⟩ := hsound.numbered item hitem
        have hnm : n = gathered.2 := itemId_injective (hown.symm.trans hid)
        exact absurd hn (by simp [hnm])
      · intro item hitem
        rcases List.mem_append.mp hitem with hold | hnew
        · obtain ⟨n, hn, hown⟩ := hsound.numbered item hold
          exact ⟨n, Nat.lt_succ_of_lt hn, hown⟩
        · rw [List.mem_singleton.mp hnew]
          exact ⟨gathered.2, Nat.lt_succ_self _, rfl⟩
      · intro item hitem
        rcases List.mem_append.mp hitem with hold | hnew
        · exact hsound.among item hold
        · rw [List.mem_singleton.mp hnew]
          exact hamong

theorem initState_sound (hmachine : TodoMachine machine) {source : JsValue} {board : Board}
    (hplain : PlainSource engine source) (h : initState engine machine source = .ok board) :
    Sound machine board.toDomain ∧ Shows engine machine board := by
  obtain ⟨raw, hraw, h⟩ := bind_eq_ok h
  obtain ⟨gathered, hgathered, h⟩ := bind_eq_ok h
  cases h
  have hsound : Sound machine ⟨gathered.1, (isSpark (field source "active")).getD "me", gathered.2⟩ := by
    refine foldlM_invariant (P := fun gathered : Gathered =>
      Sound machine ⟨gathered.1, (isSpark (field source "active")).getD "me", gathered.2⟩) ?_ hgathered ?_
    · intro before it hit after hbefore hstep
      refine gather_sound hmachine (fun value hvalue => ?_) hbefore hstep
      rw [hvalue] at hit
      exact hplain raw hraw value hit
    · exact ⟨List.nodup_nil, fun item hitem => absurd hitem List.not_mem_nil, fun item hitem => absurd hitem List.not_mem_nil⟩
  exact ⟨hsound, present_shows hmachine hsound.among⟩

end Initial

end AvenOS.Todo
