import AvenOS.Actors.PlannerSoundness

/-! # The steps a value comes from

`hasCapabilityInAncestry` searches depth first and hands its visited set from one branch to the
next. In a derived program a step only uses steps before it, so a step that was visited and is not
on the way down has been searched to the end; the search then answers for the whole ancestry. -/
namespace AvenOS.Actors

inductive Ancestor (steps : List PlanStep) : PlanValue → PlanStep → Prop
  | producer {v : PlanValue} {step : PlanStep} {output : ℕ} :
      v.source = .step step.id output → step ∈ steps → Ancestor steps v step
  | through {v input : PlanValue} {step s : PlanStep} {output : ℕ} :
      v.source = .step step.id output → step ∈ steps → input ∈ step.inputs →
      Ancestor steps input s → Ancestor steps v s

def Clear (steps : List PlanStep) (capabilityId stepId : String) : Prop :=
  ∀ (v : PlanValue) (output : ℕ) (s : PlanStep), v.source = .step stepId output →
    Ancestor steps v s → s.capability ≠ capabilityId

structure Ranked (steps : List PlanStep) (rank : String → ℕ) : Prop where
  distinct : (steps.map PlanStep.id).Nodup
  earlier : ∀ step ∈ steps, ∀ v ∈ step.inputs, ∀ id output, v.source = .step id output →
    rank id < rank step.id

section Ranked
variable {steps : List PlanStep} {rank : String → ℕ} {capabilityId : String}

theorem eq_of_id_eq (hdistinct : (steps.map PlanStep.id).Nodup) {a b : PlanStep} (ha : a ∈ steps)
    (hb : b ∈ steps) (h : a.id = b.id) : a = b :=
  List.inj_on_of_nodup_map hdistinct ha hb h

variable {stepId : String} {visited : List String} {v : PlanValue}

variable {step : PlanStep}

theorem findStep_some (h : findStep steps stepId = some step) : step ∈ steps ∧ step.id = stepId :=
  ⟨List.mem_of_find?_eq_some h, by simpa using List.find?_some h⟩

theorem findStep_none (h : findStep steps stepId = none) : ∀ step ∈ steps, step.id ≠ stepId := by
  intro step hstep
  simpa using List.find?_eq_none.mp h step hstep

inductive Answers (steps : List PlanStep) (capabilityId : String) (visited : List String)
    (values : List PlanValue) (answer : Bool × List String) : Prop
  | found : answer.1 = true →
      (∃ v ∈ values, ∃ s, Ancestor steps v s ∧ s.capability = capabilityId) →
      Answers steps capabilityId visited values answer
  | clear : answer.1 = false →
      (∀ v ∈ values, ∀ s, Ancestor steps v s → s.capability ≠ capabilityId) →
      (∀ id ∈ answer.2, id ∈ visited ∨ Clear steps capabilityId id) →
      Answers steps capabilityId visited values answer

theorem foldl_answers {search : List String → PlanValue → Bool × List String} {ready : List String → Prop}
    (hready : ∀ visited visited', ready visited →
      (∀ id ∈ visited', id ∈ visited ∨ Clear steps capabilityId id) → ready visited')
    {inputs : List PlanValue} (hvisited : ready visited) (hsearch : ∀ visited, ready visited → ∀ input ∈ inputs,
      Answers steps capabilityId visited [input] (search visited input)) :
    Answers steps capabilityId visited inputs (inputs.foldl (fun (found, visited) input =>
        if found then (true, visited) else search visited input) (false, visited)) := by
  have hstop : ∀ (rest : List PlanValue) (seen : List String), (rest.foldl (fun (found, visited) input =>
        if found then (true, visited) else search visited input) (true, seen)) = (true, seen) := by
    intro rest seen
    induction rest with
    | nil => rfl
    | cons v rest ih => exact ih
  induction inputs generalizing visited with
  | nil => exact .clear rfl (by simp) fun id hid => .inl hid
  | cons v rest ih =>
    rw [List.foldl_cons]
    simp only [Bool.false_eq_true, if_false]
    rcases hsearch visited hvisited v List.mem_cons_self with
      ⟨hfound, w, hw, hs⟩ | ⟨hfalse, hclear, hseen⟩
    · rw [List.mem_singleton] at hw
      rw [← Prod.mk.eta (p := search visited v), hfound, hstop]
      exact .found rfl ⟨v, List.mem_cons_self, hw ▸ hs⟩
    · rw [← Prod.mk.eta (p := search visited v), hfalse]
      have hrest := ih (hready visited _ hvisited hseen)
        fun seen hseen' input hin => hsearch seen hseen' input (List.mem_cons_of_mem v hin)
      rcases hrest with ⟨hf, w, hw, hs⟩ | ⟨hf, hclear', hseen'⟩
      · exact .found hf ⟨w, List.mem_cons_of_mem v hw, hs⟩
      · refine .clear hf ?_ ?_
        · intro w hw
          rcases List.mem_cons.mp hw with rfl | hw
          · exact hclear w List.mem_cons_self
          · exact hclear' w hw
        · intro id hid
          rcases hseen' id hid with hid | hid
          · exact hseen id hid
          · exact .inr hid

theorem Ancestor.source {s : PlanStep} (h : Ancestor steps v s) : ∃ id output, v.source = .step id output := by
  cases h with
  | producer hsource _ => exact ⟨_, _, hsource⟩
  | through hsource _ _ _ => exact ⟨_, _, hsource⟩

theorem clear_of_none (h : findStep steps stepId = none) : Clear steps capabilityId stepId := by
  intro v output s hv hs
  cases hs with
  | producer hsource hmem =>
    rw [hv] at hsource
    injection hsource with hid _
    exact absurd hid.symm (findStep_none h _ hmem)
  | through hsource hmem _ _ =>
    rw [hv] at hsource
    injection hsource with hid _
    exact absurd hid.symm (findStep_none h _ hmem)

theorem clear_of_inputs (hdistinct : (steps.map PlanStep.id).Nodup) (hmem : step ∈ steps)
    (hcap : step.capability ≠ capabilityId)
    (hin : ∀ v ∈ step.inputs, ∀ s, Ancestor steps v s → s.capability ≠ capabilityId) :
    Clear steps capabilityId step.id := by
  intro v output s hv hs
  cases hs with
  | producer hsource hmem' =>
    rw [hv] at hsource
    injection hsource with hid _
    rw [← eq_of_id_eq hdistinct hmem hmem' hid]
    exact hcap
  | through hsource hmem' hinput hanc =>
    rw [hv] at hsource
    injection hsource with hid _
    rw [← eq_of_id_eq hdistinct hmem hmem' hid] at hinput
    exact hin _ hinput s hanc

theorem answers_supplied (h : ∀ id output, v.source ≠ .step id output) :
    Answers steps capabilityId visited [v] (false, visited) := by
  refine .clear rfl ?_ fun id hid => .inl hid
  intro w hw s hs
  rw [List.mem_singleton.mp hw] at hs
  obtain ⟨id, output, hsource⟩ := hs.source
  exact absurd hsource (h id output)

theorem answers_leave {output : ℕ} (hsource : v.source = .step stepId output) {answer : Bool × List String}
    (hfalse : answer.1 = false) (hclear : Clear steps capabilityId stepId)
    (hseen : ∀ id ∈ answer.2, id ∈ stepId :: visited ∨ Clear steps capabilityId id) :
    Answers steps capabilityId visited [v] answer := by
  refine .clear hfalse ?_ ?_
  · intro w hw s hs
    rw [List.mem_singleton.mp hw] at hs
    exact hclear v output s hsource hs
  · intro id hid
    rcases hseen id hid with hid | hid
    · rcases List.mem_cons.mp hid with rfl | hid
      · exact .inr hclear
      · exact .inl hid
    · exact .inr hid

theorem ancestry_answers (h : Ranked steps rank) (depth : ℕ) (visited : List String) (v : PlanValue)
    (hdepth : ∀ id output, v.source = .step id output → rank id < depth)
    (hvisited : ∀ id output, v.source = .step id output →
      ∀ seen ∈ visited, rank seen ≤ rank id → Clear steps capabilityId seen) :
    Answers steps capabilityId visited [v] (ancestry capabilityId steps depth visited v) := by
  induction depth generalizing visited v with
  | zero => exact answers_supplied fun id output hs => absurd (hdepth id output hs) (by omega)
  | succ depth ih =>
    unfold ancestry
    cases hsource : v.source with
    | ingredient artifactId =>
      exact answers_supplied fun id output hs => by simp [hsource] at hs
    | step stepId output =>
      dsimp only
      split
      · rename_i hseen
        exact answers_leave hsource rfl (hvisited stepId output hsource stepId hseen (le_refl _))
          fun id hid => .inl (List.mem_cons_of_mem stepId hid)
      · cases hfind : findStep steps stepId with
        | none => exact answers_leave hsource rfl (clear_of_none hfind) fun id hid => .inl hid
        | some step =>
          obtain ⟨hmem, rfl⟩ := findStep_some hfind
          dsimp only
          split
          · rename_i hcap
            exact .found rfl ⟨v, List.mem_singleton_self v, step, .producer hsource hmem, hcap⟩
          · rename_i hcap
            -- below this step only steps of lower rank are met, so it is never met again
            have hrank := hdepth step.id output hsource
            have hlower : ∀ input ∈ step.inputs, ∀ id out, input.source = .step id out →
                rank id < rank step.id := h.earlier step hmem
            have hready : ∀ id ∈ step.id :: visited, rank id < rank step.id → Clear steps capabilityId id := by
              intro id hid hlt
              rcases List.mem_cons.mp hid with rfl | hid
              · exact absurd hlt (lt_irrefl _)
              · exact hvisited step.id output hsource id hid hlt.le
            have hsearch : ∀ seen : List String, (∀ id ∈ seen, rank id < rank step.id → Clear steps capabilityId id) →
                ∀ input ∈ step.inputs, Answers steps capabilityId seen [input]
                  (ancestry capabilityId steps depth seen input) := by
              intro seen hseen input hin
              apply ih seen input
              · intro id out hs
                have hlt := hlower input hin id out hs
                omega
              · intro id out hs x hx hle
                exact hseen x hx (lt_of_le_of_lt hle (hlower input hin id out hs))
            rcases foldl_answers (fun seen seen' hok hsub id hid hlt =>
                (hsub id hid).elim (fun hid => hok id hid hlt) fun hid => hid) hready hsearch with
              ⟨hf, w, hw, s, hs, heq⟩ | ⟨hf, hclear, hseen⟩
            · exact .found hf ⟨v, List.mem_singleton_self v, s, .through hsource hmem hw hs, heq⟩
            · exact answers_leave hsource hf (clear_of_inputs h.distinct hmem hcap hclear) hseen

theorem hasCapabilityInAncestry_iff (h : Ranked steps rank) (hbound : ∀ id, rank id ≤ steps.length) (v : PlanValue) :
    hasCapabilityInAncestry v capabilityId steps = true ↔ ∃ s, Ancestor steps v s ∧ s.capability = capabilityId := by
  have hanswer : Answers steps capabilityId [] [v] _ := ancestry_answers h (steps.length + 1) [] v
    (fun id _ _ => Nat.lt_succ_of_le (hbound id)) (by simp)
  unfold hasCapabilityInAncestry
  rcases hanswer with ⟨hfound, w, hw, hs⟩ | ⟨hfalse, hclear, -⟩
  · rw [List.mem_singleton] at hw
    exact ⟨fun _ => hw ▸ hs, fun _ => hfound⟩
  · constructor
    · intro htrue
      rw [hfalse] at htrue
      cases htrue
    · rintro ⟨s, hs, heq⟩
      exact absurd heq (hclear v (List.mem_singleton_self v) s hs)

end Ranked

/-! ## Derived programs -/

def Supplied (start : List PlanValue) : Prop :=
  ∀ v ∈ start, ∀ id output, v.source ≠ .step id output

theorem supplied_ingredients (ingredients : List Ingredient) : Supplied (ingredients.map ingredientValue) := by
  intro v hv id output h
  obtain ⟨i, -, rfl⟩ := List.mem_map.mp hv
  cases h

section Derived
variable {capabilities : List Capability} {start : List PlanValue} {steps before after : List PlanStep}

theorem Derived.producer (h : Derived capabilities start steps) (hstart : Supplied start)
    {v : PlanValue} (hv : v ∈ factsAfter start steps) {id : String} {output : ℕ}
    (hsource : v.source = .step id output) : ∃ step ∈ steps, step.id = id := by
  rcases h.fact_source hv with hv | ⟨step, hstep, output', hs, -⟩
  · exact absurd hsource (hstart v hv id output)
  · rw [hs] at hsource
    injection hsource with hid _
    exact ⟨step, hstep, hid⟩

theorem Derived.ranked (h : Derived capabilities start steps) (hstart : Supplied start) :
    Ranked steps fun id => (steps.map PlanStep.id).idxOf id where
  distinct := h.nodup_ids
  earlier := by
    intro step hstep v hv id output hsource
    obtain ⟨before, after, capability, m, rfl, happ, rfl⟩ := h.mem hstep
    obtain ⟨hbefore, -⟩ := h.split rfl
    have hfact := (mem_matchRequirements.1 happ.matched).1 v hv
    obtain ⟨earlier, hearlier, rfl⟩ := hbefore.producer hstart hfact hsource
    have hmem : earlier.id ∈ before.map PlanStep.id := List.mem_map_of_mem hearlier
    have hnodup := h.nodup_ids
    rw [List.map_append, List.map_cons, List.nodup_append] at hnodup
    have hnot : (planStep capability m before.length).id ∉ before.map PlanStep.id :=
      fun hin => hnodup.2.2 _ hin _ List.mem_cons_self rfl
    rw [List.map_append, List.map_cons, List.idxOf_append_of_mem hmem,
      List.idxOf_append_of_notMem hnot, List.idxOf_cons_self]
    exact lt_of_lt_of_le (List.idxOf_lt_length_of_mem hmem) (Nat.le_add_right _ _)

theorem Derived.hasCapabilityInAncestry_iff (h : Derived capabilities start steps)
    (hstart : Supplied start) (v : PlanValue) (capabilityId : String) :
    hasCapabilityInAncestry v capabilityId steps = true ↔ ∃ s, Ancestor steps v s ∧ s.capability = capabilityId := by
  refine AvenOS.Actors.hasCapabilityInAncestry_iff (h.ranked hstart) (fun id => ?_) v
  have hle := List.idxOf_le_length (l := steps.map PlanStep.id) (a := id)
  rwa [List.length_map] at hle

theorem Derived.ancestor_prefix (h : Derived capabilities start steps) (hstart : Supplied start)
    (hsteps : steps = before ++ after) {v : PlanValue} {s : PlanStep}
    (hanc : Ancestor steps v s) (hbefore : Derived capabilities start before)
    (hv : v ∈ factsAfter start before) : Ancestor before v s := by
  have hsame : ∀ {w : PlanValue} {step : PlanStep} {output : ℕ}, w ∈ factsAfter start before →
      w.source = .step step.id output → step ∈ steps → step ∈ before := by
    intro w step output hw hsource hmem
    obtain ⟨step', hmem', hid⟩ := hbefore.producer hstart hw hsource
    have hin : step' ∈ steps := hsteps ▸ List.mem_append_left after hmem'
    exact eq_of_id_eq h.nodup_ids hin hmem hid ▸ hmem'
  induction hanc with
  | producer hsource hmem => exact .producer hsource (hsame hv hsource hmem)
  | @through v input step s output hsource hmem hin _ ih =>
    have hstep := hsame hv hsource hmem
    obtain ⟨earlier, later, capability, m, hsplit, happ, rfl⟩ := hbefore.mem hstep
    have hinput := (mem_matchRequirements.1 happ.matched).1 input hin
    refine .through hsource hstep hin (ih ?_)
    rw [hsplit, factsAfter, List.flatMap_append, ← List.append_assoc]
    exact List.mem_append_left _ hinput

end Derived

end AvenOS.Actors
