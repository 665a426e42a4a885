import AvenOS.Actors.MergeLaw
import AvenOS.Foundations.Layering

/-! # Stages of the bus

The registered actors in the order in which they can fire: first those whose requirements are external facts, then each as soon
as an earlier stage produces what it requires. Actors that only wait for each other share a last stage. -/
namespace AvenOS.Actors
open Layering

structure MessageBus where
  actors : List Actor
  stored : (actors.map Actor.uuid).Nodup

namespace MessageBus

def empty : MessageBus := ⟨[], List.nodup_nil⟩

/-- `Map.set` of an actor under its uuid: in place where the uuid is known, else at the end. -/
def setActor (actors : List Actor) (actor : Actor) : List Actor :=
  if actors.any (·.uuid == actor.uuid) then actors.map fun a => if a.uuid == actor.uuid then actor else a
  else actors ++ [actor]

variable {actors earlier pending : List Actor} {a : Actor}

theorem setActor_stored (h : (actors.map Actor.uuid).Nodup) (actor : Actor) :
    ((setActor actors actor).map Actor.uuid).Nodup := by
  unfold setActor
  split
  · have hsame : (actors.map fun a => if a.uuid == actor.uuid then actor else a).map Actor.uuid = actors.map Actor.uuid := by
      rw [List.map_map]
      refine List.map_congr_left fun a _ => ?_
      by_cases ha : a.uuid = actor.uuid <;> simp [ha]
    rw [hsame]
    exact h
  · rename_i hnew
    rw [List.map_append, List.map_singleton, List.nodup_append]
    refine ⟨h, List.nodup_singleton _, ?_⟩
    intro id hid other hother heq
    obtain ⟨a, ha, rfl⟩ := List.mem_map.mp hid
    rw [List.mem_singleton.mp hother] at heq
    exact hnew (List.any_eq_true.mpr ⟨a, ha, beq_iff_eq.mpr heq⟩)

def register (bus : MessageBus) (actor : Actor) : MessageBus :=
  ⟨setActor bus.actors actor, setActor_stored bus.stored actor⟩

def unregister (bus : MessageBus) (uuid : String) : MessageBus :=
  ⟨bus.actors.filter (·.uuid != uuid), (List.Sublist.map _ List.filter_sublist).nodup bus.stored⟩

/-! ## The loop over pending actors -/

def isReady (allProduced known : List Predicate) (a : Actor) : Bool :=
  a.requires.all fun r => known.any (unifiable · r) || !allProduced.any (unifiable · r)

/-- `pending.splice(pending.indexOf(actor), 1)`; an actor that is not found takes out the last. -/
def splice (pending : List Actor) (actor : Actor) : List Actor :=
  match pending.findIdx? (·.uuid == actor.uuid) with
  | some i => pending.eraseIdx i
  | none => pending.dropLast

def takeActor (state : List Predicate × List Actor) (actor : Actor) : List Predicate × List Actor :=
  (state.1 ++ actor.produces, splice state.2 actor)

def stagesLoop (allProduced : List Predicate) :
    ℕ → List Predicate → List Actor → List (List Actor) → Option (List (List Actor))
  | _, _, [], result => some result
  | 0, _, _ :: _, _ => none
  | budget + 1, known, a :: pending, result =>
    match (a :: pending).filter (isReady allProduced known) with
    | [] => some (result ++ [a :: pending])
    | first :: rest =>
      let (known, pending) := (first :: rest).foldl takeActor (known, a :: pending)
      stagesLoop allProduced budget known pending (result ++ [first :: rest])

/-- `stages()`, within a budget of rounds. -/
def stages (bus : MessageBus) (budget : ℕ) : Option (List (List Actor)) :=
  stagesLoop (bus.actors.flatMap Actor.produces) budget [] bus.actors []

/-! ## The loop takes layers -/

def Ready (bus : MessageBus) (earlier : List Actor) (a : Actor) : Prop :=
  ∀ r ∈ a.requires, (∀ b ∈ bus.actors, ∀ p ∈ b.produces, unifiable p r = false) ∨
    ∃ b ∈ earlier, ∃ p ∈ b.produces, unifiable p r = true

def readyAfter (bus : MessageBus) (earlier : List Actor) (a : Actor) : Bool :=
  isReady (bus.actors.flatMap Actor.produces) (earlier.flatMap Actor.produces) a

variable {bus : MessageBus}

theorem offers_iff {r : Predicate} :
    (actors.flatMap Actor.produces).any (unifiable · r) = true ↔ ∃ b ∈ actors, ∃ p ∈ b.produces, unifiable p r = true := by
  simp [List.any_eq_true]

theorem readyAfter_iff : readyAfter bus earlier a = true ↔ Ready bus earlier a := by
  rw [readyAfter, isReady, List.all_eq_true]
  refine forall₂_congr fun r _ => ?_
  rw [Bool.or_eq_true, offers_iff, Bool.not_eq_true', Bool.eq_false_iff, Ne, offers_iff, or_comm]
  simp

theorem waits_of_not_ready (h : readyAfter bus earlier a = false) :
    ∃ r ∈ a.requires, (∃ b ∈ bus.actors, ∃ p ∈ b.produces, unifiable p r = true) ∧
      ∀ b ∈ earlier, ∀ p ∈ b.produces, unifiable p r = false := by
  have hnot : ¬ Ready bus earlier a := by
    rw [← readyAfter_iff, h]
    exact Bool.false_ne_true
  simpa [Ready] using hnot

theorem splice_eq {actor : Actor} (hstored : (pending.map Actor.uuid).Nodup) (hactor : actor ∈ pending) :
    splice pending actor = pending.filter (·.uuid != actor.uuid) := by
  induction pending with
  | nil => cases hactor
  | cons a pending ih =>
    obtain ⟨hnew, hrest⟩ := List.nodup_cons.mp hstored
    by_cases ha : a.uuid = actor.uuid
    · have hothers : ∀ b ∈ pending, (b.uuid != actor.uuid) = true := by
        intro b hb
        rw [bne_iff_ne, ← ha]
        exact fun heq => hnew (heq ▸ List.mem_map_of_mem hb)
      simp [splice, List.findIdx?_cons, ha, List.filter_eq_self.mpr hothers]
    · have hmem : actor ∈ pending := (List.mem_cons.mp hactor).resolve_left fun heq => ha (heq ▸ rfl)
      have hsplice := ih hrest hmem
      have hfound : (pending.findIdx? (·.uuid == actor.uuid)).isSome = true := by
        rw [List.findIdx?_isSome, List.any_eq_true]
        exact ⟨actor, hmem, beq_self_eq_true _⟩
      obtain ⟨i, hi⟩ := Option.isSome_iff_exists.mp hfound
      simp only [splice, hi] at hsplice
      simp [splice, List.findIdx?_cons, ha, hi, hsplice]

theorem foldl_takeActor {taken : List Actor} {known : List Predicate} (hstored : (pending.map Actor.uuid).Nodup)
    (htaken : (taken.map Actor.uuid).Nodup) (hsub : ∀ a ∈ taken, a ∈ pending) : taken.foldl takeActor (known, pending) =
      (known ++ taken.flatMap Actor.produces, pending.filter fun x => taken.all (x.uuid != ·.uuid)) := by
  induction taken generalizing known pending with
  | nil => simp
  | cons a taken ih =>
    obtain ⟨hnew, hrest⟩ := List.nodup_cons.mp htaken
    have hsplice := splice_eq hstored (hsub a List.mem_cons_self)
    rw [List.foldl_cons, takeActor, hsplice, ih ((List.Sublist.map _ List.filter_sublist).nodup hstored) hrest]
    · simp [List.filter_filter, Bool.and_comm]
    · intro b hb
      refine List.mem_filter.mpr ⟨hsub b (List.mem_cons_of_mem a hb), ?_⟩
      rw [bne_iff_ne]
      exact fun heq => hnew (heq ▸ List.mem_map_of_mem hb)

theorem take_ready (known : List Predicate) (hstored : (pending.map Actor.uuid).Nodup) (ready : Actor → Bool) :
    (pending.filter ready).foldl takeActor (known, pending) =
      (known ++ (pending.filter ready).flatMap Actor.produces, pending.filter fun x => !ready x) := by
  rw [foldl_takeActor hstored ((List.Sublist.map _ List.filter_sublist).nodup hstored)
    fun a ha => (List.mem_filter.mp ha).1]
  congr 1
  refine List.filter_congr fun x hx => ?_
  rw [Bool.eq_iff_iff, List.all_eq_true, Bool.not_eq_true']
  constructor
  · intro h
    by_contra hready
    have hx' := h x (List.mem_filter.mpr ⟨hx, by simpa using hready⟩)
    simp at hx'
  · intro h b hb
    obtain ⟨hb, hready⟩ := List.mem_filter.mp hb
    rw [bne_iff_ne]
    intro heq
    rw [List.inj_on_of_nodup_map hstored hx hb heq, hready] at h
    exact absurd h (by decide)

theorem stagesLoop_eq (budget : ℕ) (result : List (List Actor)) (hstored : (pending.map Actor.uuid).Nodup) :
    stagesLoop (bus.actors.flatMap Actor.produces) budget (result.flatten.flatMap Actor.produces) pending result =
      layers (readyAfter bus) budget result pending := by
  induction budget generalizing pending result with
  | zero => cases pending <;> rfl
  | succ budget ih =>
    cases pending with
    | nil => rfl
    | cons a pending =>
      have htake := take_ready (result.flatten.flatMap Actor.produces) hstored (readyAfter bus result.flatten)
      rw [stagesLoop, layers]
      change (match (a :: pending).filter (readyAfter bus result.flatten) with | [] => _ | _ :: _ => _) = _
      cases htaken : (a :: pending).filter (readyAfter bus result.flatten) with
      | nil => rfl
      | cons first rest =>
        rw [htaken] at htake
        simp only [htake]
        rw [← ih _ ((List.Sublist.map _ List.filter_sublist).nodup hstored)]
        simp

/-- The stages of a bus are its actors in layers: every actor once; in each stage but a fallback last one every requirement
comes from no actor or from an earlier stage; no actor was ready for an earlier stage than its own; and in the fallback every
actor waits for what only actors of the fallback offer. -/
theorem stages_layered (bus : MessageBus) :
    ∃ result, (∀ budget, bus.actors.length ≤ budget → bus.stages budget = some result) ∧
      result.flatten.Perm bus.actors ∧ result.flatten.Nodup ∧
      ∀ before stage after, result = before ++ stage :: after → stage ≠ [] ∧
        ((∀ a ∈ stage, Ready bus before.flatten a) ∨ after = [] ∧ ∀ a ∈ stage, ∃ r ∈ a.requires,
            (∃ b ∈ bus.actors, ∃ p ∈ b.produces, unifiable p r = true) ∧
            ∀ b ∈ bus.actors, ∀ p ∈ b.produces, unifiable p r = true → b ∈ stage) ∧
        ∀ a ∈ after.flatten, ¬ Ready bus before.flatten a := by
  obtain ⟨result, hlayers, hrun⟩ := layers_layered (rounds_start (readyAfter bus) bus.actors)
  have hdistinct : bus.actors.Nodup := bus.stored.of_map
  refine ⟨result, fun budget hbudget => ?_, hlayers.once, hlayers.once.nodup_iff.mpr hdistinct, ?_⟩
  · rw [stages, ← hrun budget hbudget]
    exact stagesLoop_eq budget [] bus.stored
  intro before stage after hsplit
  refine ⟨hlayers.nonempty stage (by simp [hsplit]), ?_, fun a ha hready => ?_⟩
  · rcases hlayers.stage before stage after hsplit with hstage | ⟨rfl, hstage⟩
    · exact Or.inl fun a ha => readyAfter_iff.1 (hstage a ha)
    · refine Or.inr ⟨rfl, fun a ha => ?_⟩
      obtain ⟨r, hr, hoffered, hearlier⟩ := waits_of_not_ready (hstage a ha)
      refine ⟨r, hr, hoffered, fun b hb p hp hunifies => ?_⟩
      have hplaced := hlayers.once.mem_iff.mpr hb
      rw [hsplit, List.flatten_append, List.flatten_singleton, List.mem_append] at hplaced
      refine hplaced.resolve_left fun hbefore => ?_
      rw [hearlier b hbefore p hp] at hunifies
      exact Bool.false_ne_true hunifies
  · have hnot := hlayers.earliest before stage after hsplit a ha
    rw [readyAfter_iff.2 hready] at hnot
    exact absurd hnot (by decide)

end MessageBus

end AvenOS.Actors
