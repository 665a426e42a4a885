import AvenOS.VoiceRuntime.OutputRun
import Mathlib

/-! # The count of buffered frames

The worker counts the frames of its generation that it has queued; the callback counts those that it has
taken. The difference is what is left, as long as no frame of another generation is counted. -/
namespace AvenOS.VoiceRuntime
open AvenOS.Voice

variable {Sample : Type} {sound : Sound Sample}

/-! ## Slices -/

theorem chunksOf_cons (size fuel : ℕ) (sample : Sample) (samples : List Sample) :
    chunksOf size (fuel + 1) (sample :: samples) =
      (sample :: samples).take size :: chunksOf size fuel ((sample :: samples).drop size) := rfl

theorem chunksOf_length (size : ℕ) (hsize : 0 < size) (fuel : ℕ) (samples : List Sample)
    (hfuel : samples.length ≤ fuel) : ((chunksOf size fuel samples).map List.length).sum = samples.length := by
  induction fuel generalizing samples with
  | zero =>
    rw [List.length_eq_zero_iff.mp (Nat.le_zero.mp hfuel)]
    rfl
  | succ fuel ih =>
    cases samples with
    | nil => rfl
    | cons sample samples =>
      have hrest : ((sample :: samples).drop size).length ≤ fuel := by
        rw [List.length_cons] at hfuel
        rw [List.length_drop, List.length_cons]
        omega
      rw [chunksOf_cons, List.map_cons, List.sum_cons, ih _ hrest, List.length_take, List.length_drop]
      omega

theorem chunks_length (size : ℕ) (hsize : 0 < size) (samples : List Sample) :
    ((chunks size samples).map List.length).sum = samples.length :=
  chunksOf_length size hsize samples.length samples (Nat.le_refl _)

theorem mem_chunksOf (size : ℕ) (hsize : 0 < size) (fuel : ℕ) (samples : List Sample) :
    ∀ values ∈ chunksOf size fuel samples, values ≠ [] := by
  induction fuel generalizing samples with
  | zero => exact nofun
  | succ fuel ih =>
    cases samples with
    | nil => exact nofun
    | cons sample samples =>
      intro values hmem
      rw [chunksOf_cons] at hmem
      rcases List.mem_cons.mp hmem with rfl | hrest
      · rw [← List.length_pos_iff, List.length_take, List.length_cons]
        omega
      · exact ih _ values hrest

theorem mem_chunks {size : ℕ} (hsize : 0 < size) {samples values : List Sample}
    (h : values ∈ chunks size samples) : values ≠ [] := mem_chunksOf size hsize _ samples values h

/-! ## Frames -/

def framesOf (generation : OutputGeneration) (chunks : List (RenderChunk Sample)) : ℕ :=
  ((chunks.filter fun chunk => chunk.generation = generation).map RenderChunk.len).sum

def RenderCursor.framesOf (generation : OutputGeneration) (cursor : RenderCursor Sample) : ℕ :=
  match cursor.chunk with
  | none => 0
  | some chunk => if chunk.generation = generation then chunk.len - cursor.index else 0

section Frames
variable {generation : OutputGeneration} {chunks more : List (RenderChunk Sample)} {chunk : RenderChunk Sample}

@[simp] theorem framesOf_nil : framesOf generation ([] : List (RenderChunk Sample)) = 0 := rfl

@[simp] theorem framesOf_append :
    framesOf generation (chunks ++ more) = framesOf generation chunks + framesOf generation more := by
  simp [framesOf]

theorem framesOf_cons : framesOf generation (chunk :: chunks) =
    (if chunk.generation = generation then chunk.len else 0) + framesOf generation chunks := by
  by_cases h : chunk.generation = generation <;> simp [framesOf, h]

theorem framesOf_other (h : ∀ chunk ∈ chunks, chunk.generation ≠ generation) : framesOf generation chunks = 0 := by
  have hnone : (chunks.filter fun chunk => chunk.generation = generation) = [] := by
    simpa [List.filter_eq_nil_iff] using h
  rw [framesOf, hnone]
  rfl

end Frames

/-- The frames of the worker's generation that are still queued. -/
def Output.framesLeft (o : Output sound) : ℕ :=
  framesOf o.preparation.activeGeneration o.preparation.pending +
    framesOf o.preparation.activeGeneration o.port.ready +
    o.port.cursor.framesOf o.preparation.activeGeneration

/-- The frames that a running callback has taken and not counted yet. -/
def Output.uncounted (o : Output sound) : ℕ := (o.callback.map Callback.activeConsumed).getD 0

/-! ## One frame of the callback -/

/-- The chunks that the callback comes to, in order. -/
def RenderPort.chunksAhead (port : RenderPort Sample) : List (RenderChunk Sample) :=
  port.cursor.current.toList ++ port.ready

/-- The chunk is passed over. -/
def RenderChunk.stale (active : OutputGeneration) (retiring : Option OutputGeneration)
    (chunk : RenderChunk Sample) : Bool := !chunk.heard active retiring

/-- The chunks that are passed over or begun for the next frame. -/
def lookedAt (active : OutputGeneration) (retiring : Option OutputGeneration)
    (chunks : List (RenderChunk Sample)) : List (RenderChunk Sample) :=
  chunks.takeWhile (RenderChunk.stale active retiring) ++
    (chunks.dropWhile (RenderChunk.stale active retiring)).head?.toList

variable {generation active : OutputGeneration} {cursor : RenderCursor Sample} {retiring : Option OutputGeneration}
  {ready : List (RenderChunk Sample)}

theorem cursor_framesOf_none (h : cursor.current = none) : cursor.framesOf generation = 0 := by
  unfold RenderCursor.framesOf
  split
  · rfl
  · rename_i chunk hchunk
    rw [RenderCursor.current, hchunk, Option.filter_eq_none_iff] at h
    have hdone := h chunk rfl
    rw [decide_eq_true_iff] at hdone
    split
    · omega
    · rfl

theorem cursor_framesOf_some (generation : OutputGeneration) {chunk : RenderChunk Sample}
    (h : cursor.current = some chunk) : cursor.chunk = some chunk ∧ cursor.index < chunk.len ∧
      cursor.framesOf generation = if chunk.generation = generation then chunk.len - cursor.index else 0 := by
  obtain ⟨hchunk, hindex⟩ := Option.filter_eq_some_iff.mp h
  exact ⟨hchunk, of_decide_eq_true hindex, by rw [RenderCursor.framesOf, hchunk]⟩

section Stale
variable {active : OutputGeneration} {retiring : Option OutputGeneration} {chunk : RenderChunk Sample}
  {chunks : List (RenderChunk Sample)}

theorem lookedAt_heard (h : chunk.heard active retiring = true) :
    lookedAt active retiring (chunk :: chunks) = [chunk] := by
  simp [lookedAt, RenderChunk.stale, h]

theorem lookedAt_stale (h : ¬chunk.heard active retiring = true) :
    lookedAt active retiring (chunk :: chunks) = chunk :: lookedAt active retiring chunks := by
  simp [lookedAt, RenderChunk.stale, h]

end Stale

/-- No chunk of a generation is passed over for the next frame. -/
def Kept (active : OutputGeneration) (retiring : Option OutputGeneration) (generation : OutputGeneration)
    (chunks : List (RenderChunk Sample)) : Prop :=
  ∀ chunk ∈ chunks.takeWhile (RenderChunk.stale active retiring), chunk.generation ≠ generation

theorem popFrame_frames (ready : List (RenderChunk Sample)) (hfilled : ∀ chunk ∈ ready, 0 < chunk.len)
    (hkept : Kept active retiring generation ready) : framesOf generation (popFrame active retiring ready).ready +
        (popFrame active retiring ready).cursor.framesOf generation +
        (if (popFrame active retiring ready).generation = some generation then 1 else 0) =
      framesOf generation ready := by
  induction ready with
  | nil => rfl
  | cons chunk ready ih =>
    rw [popFrame, framesOf_cons]
    by_cases hheard : chunk.heard active retiring = true
    · rw [if_pos hheard]
      have hpositive := hfilled chunk List.mem_cons_self
      by_cases hgeneration : chunk.generation = generation
      · simp only [RenderCursor.framesOf, hgeneration, if_true]
        omega
      · simp [RenderCursor.framesOf, hgeneration]
    · have hstale : RenderChunk.stale active retiring chunk = true := by simpa [RenderChunk.stale] using hheard
      rw [Kept, List.takeWhile_cons_of_pos hstale] at hkept
      rw [if_neg hheard, if_neg (hkept chunk List.mem_cons_self), Nat.zero_add]
      exact ih (fun later hlater => hfilled later (List.mem_cons_of_mem _ hlater))
        fun later hlater => hkept later (List.mem_cons_of_mem _ hlater)

theorem popFrame_looked (h : (popFrame active retiring ready).generation = some generation) :
    ∃ chunk ∈ lookedAt active retiring ready, chunk.generation = generation := by
  induction ready with
  | nil => cases h
  | cons chunk ready ih =>
    rw [popFrame] at h
    by_cases hheard : chunk.heard active retiring = true
    · rw [if_pos hheard] at h
      exact ⟨chunk, by rw [lookedAt_heard hheard]; exact List.mem_cons_self, Option.some.inj h⟩
    · rw [if_neg hheard] at h
      obtain ⟨later, hlater, hgeneration⟩ := ih h
      exact ⟨later, by rw [lookedAt_stale hheard]; exact List.mem_cons_of_mem _ hlater, hgeneration⟩

theorem popFrame_mem : ∀ chunk, chunk ∈ (popFrame active retiring ready).ready ∨
        (popFrame active retiring ready).cursor.chunk = some chunk → chunk ∈ ready := by
  induction ready with
  | nil =>
    intro chunk h
    exact h.elim id nofun
  | cons first ready ih =>
    intro chunk h
    rw [popFrame] at h
    split at h
    · rcases h with hrest | hcursor
      · exact List.mem_cons_of_mem _ hrest
      · rw [Option.some.inj hcursor]
        exact List.mem_cons_self
    · exact List.mem_cons_of_mem _ (ih chunk h)

section TakeFrame
variable {active generation : OutputGeneration} {retiring : Option OutputGeneration}
  {port : RenderPort Sample}

theorem takeFrame_pop (h : port.cursor.current = none) :
    takeFrame active retiring port.cursor port.ready = popFrame active retiring port.ready := by
  rw [takeFrame, h]

variable {chunk : RenderChunk Sample}

theorem takeFrame_heard (h : port.cursor.current = some chunk) (hheard : chunk.heard active retiring = true) :
    takeFrame active retiring port.cursor port.ready =
      ⟨port.ready, ⟨some chunk, port.cursor.index + 1⟩, some chunk.generation, 0⟩ := by
  rw [takeFrame, h]
  exact if_pos hheard

theorem takeFrame_stale (h : port.cursor.current = some chunk) (hheard : ¬chunk.heard active retiring = true) :
    takeFrame active retiring port.cursor port.ready =
      { popFrame active retiring port.ready with
        staleChunks := (popFrame active retiring port.ready).staleChunks + 1 } := by
  rw [takeFrame, h]
  exact if_neg hheard

theorem takeFrame_frames (hfilled : ∀ chunk ∈ port.ready, 0 < chunk.len)
    (hkept : Kept active retiring generation port.chunksAhead) :
    framesOf generation (takeFrame active retiring port.cursor port.ready).ready +
        (takeFrame active retiring port.cursor port.ready).cursor.framesOf generation +
        (if (takeFrame active retiring port.cursor port.ready).generation = some generation then 1 else 0) =
      framesOf generation port.ready + port.cursor.framesOf generation := by
  unfold RenderPort.chunksAhead at hkept
  cases hcurrent : port.cursor.current with
  | none =>
    rw [hcurrent] at hkept
    rw [takeFrame_pop hcurrent, cursor_framesOf_none hcurrent, Nat.add_zero]
    exact popFrame_frames port.ready hfilled hkept
  | some chunk =>
    obtain ⟨-, hindex, hframes⟩ := cursor_framesOf_some generation hcurrent
    rw [hframes]
    by_cases hheard : chunk.heard active retiring = true
    · rw [takeFrame_heard hcurrent hheard]
      by_cases hgeneration : chunk.generation = generation
      · simp only [RenderCursor.framesOf, hgeneration, if_true]
        omega
      · simp [RenderCursor.framesOf, hgeneration]
    · have hstale : RenderChunk.stale active retiring chunk = true := by simpa [RenderChunk.stale] using hheard
      rw [hcurrent, Option.toList_some, List.singleton_append, Kept, List.takeWhile_cons_of_pos hstale] at hkept
      rw [takeFrame_stale hcurrent hheard, if_neg (hkept chunk List.mem_cons_self), Nat.add_zero]
      exact popFrame_frames port.ready hfilled fun later hlater => hkept later (List.mem_cons_of_mem _ hlater)

theorem takeFrame_looked (h : (takeFrame active retiring port.cursor port.ready).generation = some generation) :
    ∃ chunk ∈ lookedAt active retiring port.chunksAhead, chunk.generation = generation := by
  unfold RenderPort.chunksAhead
  cases hcurrent : port.cursor.current with
  | none =>
    rw [takeFrame_pop hcurrent] at h
    exact popFrame_looked h
  | some chunk =>
    rw [Option.toList_some, List.singleton_append]
    by_cases hheard : chunk.heard active retiring = true
    · rw [takeFrame_heard hcurrent hheard] at h
      exact ⟨chunk, by rw [lookedAt_heard hheard]; exact List.mem_cons_self, Option.some.inj h⟩
    · rw [takeFrame_stale hcurrent hheard] at h
      obtain ⟨later, hlater, hgeneration⟩ := popFrame_looked h
      exact ⟨later, by rw [lookedAt_stale hheard]; exact List.mem_cons_of_mem _ hlater, hgeneration⟩

theorem takeFrame_mem (h : chunk ∈ (takeFrame active retiring port.cursor port.ready).ready ∨
      (takeFrame active retiring port.cursor port.ready).cursor.chunk = some chunk) :
    chunk ∈ port.ready ∨ port.cursor.chunk = some chunk := by
  cases hcurrent : port.cursor.current with
  | none =>
    rw [takeFrame_pop hcurrent] at h
    exact Or.inl (popFrame_mem chunk h)
  | some current =>
    by_cases hheard : current.heard active retiring = true
    · rw [takeFrame_heard hcurrent hheard] at h
      rcases h with hready | hcursor
      · exact Or.inl hready
      · cases hcursor
        exact Or.inr (Option.filter_eq_some_iff.mp hcurrent).1
    · rw [takeFrame_stale hcurrent hheard] at h
      exact Or.inl (popFrame_mem chunk h)

end TakeFrame

end AvenOS.VoiceRuntime
