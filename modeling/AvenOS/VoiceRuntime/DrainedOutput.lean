import AvenOS.VoiceRuntime.BufferedFrames

/-! # When the output has drained

As long as the callback counts only frames of the generation that the worker has, and the worker counts what
it queues, the output is empty only when nothing of the turn is left. -/
namespace AvenOS.VoiceRuntime
open AvenOS.Voice

variable {Sample : Type} {sound : Sound Sample}

/-! ## Runs that are counted -/

/-- A segment is cancelled when some of its chunks have been queued. -/
def OutputPreparation.cutShort (p : OutputPreparation sound) (generation : OutputGeneration)
    (pcm : SynthesizedPcm Sample) (polls : ℕ) : Bool :=
  (p.refusal generation (polls == 0)).isNone &&
    match p.resamplerFor pcm.sampleRateHz with
    | .error _ => false
    | .ok resampler =>
      let samples := (p.resampled resampler (pcm.samples.map sound.sanitize)).2
      decide (p.bufferedFrames + samples.length ≤ p.maximumLeadFrames) && decide (1 < polls) &&
        decide (polls ≤ (chunks p.chunkFrames samples).length)

/-- No segment is cut short; the worker changes its generation when every frame that was taken has been
counted and accounted for; and a callback that has read another generation than the worker's comes neither
to a chunk of its own generation nor to one of the worker's. -/
def Output.Careful (o : Output sound) : OutputEvent Sample → Prop
  | .prepare _ generation pcm polls => o.preparation.cutShort generation pcm polls = false
  | .setGeneration => o.port.activeConsumedFrames = 0 ∧ o.uncounted = 0
  | .frame => ∀ callback, o.callback = some callback →
    callback.active ≠ o.preparation.activeGeneration →
    o.preparation.activeGeneration = o.port.activeGeneration →
    ∀ chunk ∈ lookedAt callback.active callback.retiring o.port.chunksAhead,
      chunk.generation ≠ callback.active ∧ chunk.generation ≠ o.preparation.activeGeneration
  | _ => True

def Task.Filled : Task Sample → Prop
  | .values rest => ∀ slice ∈ rest, slice ≠ []
  | .takeSlice first rest => first ≠ [] ∧ ∀ slice ∈ rest, slice ≠ []
  | _ => True

/-- How the counts and the chunks belong together. -/
structure Accounted (o : Output sound) : Prop where
  lead : o.preparation.bufferedFrames ≤ o.preparation.maximumLeadFrames
  waiting : ∀ chunk ∈ o.preparation.pending,
    chunk.generation = o.preparation.activeGeneration ∧ 0 < chunk.len
  sent : ∀ chunk, chunk ∈ o.port.ready ∨ o.port.cursor.chunk = some chunk →
    chunk.generation ≤ o.preparation.activeGeneration ∧ 0 < chunk.len
  older : o.preparation.activeGeneration ≤ o.port.activeGeneration
  started : ∀ callback, o.callback = some callback → callback.active ≤ o.port.activeGeneration ∧
    (o.preparation.activeGeneration < callback.active → callback.activeConsumed = 0)
  counted : o.preparation.activeGeneration = o.port.activeGeneration →
    o.framesLeft + o.port.activeConsumedFrames + o.uncounted = o.preparation.bufferedFrames ∧
      ∀ callback, o.callback = some callback →
        callback.active ≠ o.preparation.activeGeneration → callback.activeConsumed = 0
  tasks : ∀ task ∈ o.tasks, task.Filled

/-! ## The worker -/

section Worker
variable {o : Output sound}

theorem Accounted.withTasks (h : Accounted o) (tasks : List (Task Sample))
    (htasks : ∀ task ∈ tasks, task.Filled) : Accounted { o with tasks := tasks } :=
  { h with tasks := htasks }

theorem Accounted.withResampler (h : Accounted o) (resampler : Option (StreamingSincResampler sound)) :
    Accounted { o with preparation := { o.preparation with resampler := resampler } } :=
  { h with }

theorem Accounted.queued (h : Accounted o) (more : List (RenderChunk Sample)) (frames : ℕ)
    (hmore : ∀ chunk ∈ more, chunk.generation = o.preparation.activeGeneration ∧ 0 < chunk.len)
    (hframes : framesOf o.preparation.activeGeneration more = frames)
    (hlead : o.preparation.bufferedFrames + frames ≤ o.preparation.maximumLeadFrames) :
    Accounted { o with preparation := { o.preparation with
      pending := o.preparation.pending ++ more
      bufferedFrames := o.preparation.bufferedFrames + frames } } where
  lead := hlead
  waiting := by
    intro chunk hmem
    exact (List.mem_append.mp hmem).elim (h.waiting chunk) (hmore chunk)
  sent := h.sent
  older := h.older
  started := h.started
  counted := by
    intro hsame
    obtain ⟨hcount, hlate⟩ := h.counted hsame
    refine ⟨?_, hlate⟩
    have hleft : Output.framesLeft { o with preparation := { o.preparation with
        pending := o.preparation.pending ++ more
        bufferedFrames := o.preparation.bufferedFrames + frames } } = o.framesLeft + frames := by
      simp only [Output.framesLeft, framesOf_append, hframes]
      omega
    rw [hleft]
    show o.framesLeft + frames + o.port.activeConsumedFrames + o.uncounted =
      o.preparation.bufferedFrames + frames
    omega
  tasks := h.tasks

def OutputPreparation.asChunks (p : OutputPreparation sound) (pieces : List (List Sample)) :
    List (RenderChunk Sample) :=
  pieces.map fun values => ⟨values.map sound.sanitize, p.activeGeneration⟩

theorem foldl_queue (p : OutputPreparation sound) (pieces : List (List Sample)) :
    pieces.foldl OutputPreparation.queue p = { p with pending := p.pending ++ p.asChunks pieces } := by
  induction pieces generalizing p with
  | nil =>
    show p = { p with pending := p.pending ++ [] }
    rw [List.append_nil]
  | cons values pieces ih =>
    rw [List.foldl_cons, ih]
    simp [OutputPreparation.queue, OutputPreparation.asChunks]

theorem framesOf_asChunks (p : OutputPreparation sound) (pieces : List (List Sample)) :
    framesOf p.activeGeneration (p.asChunks pieces) = (pieces.map List.length).sum := by
  induction pieces with
  | nil => rfl
  | cons values pieces ih =>
    show framesOf p.activeGeneration (⟨values.map sound.sanitize, p.activeGeneration⟩ :: p.asChunks pieces) = _
    rw [framesOf_cons, if_pos rfl, ih, RenderChunk.len, List.length_map, List.map_cons, List.sum_cons]

theorem mem_asChunks {p : OutputPreparation sound} {pieces : List (List Sample)}
    (hpieces : ∀ values ∈ pieces, values ≠ []) :
    ∀ chunk ∈ p.asChunks pieces, chunk.generation = p.activeGeneration ∧ 0 < chunk.len := by
  intro chunk hmem
  obtain ⟨values, hvalues, rfl⟩ := List.mem_map.mp hmem
  refine ⟨rfl, ?_⟩
  rw [RenderChunk.len, List.length_map]
  exact List.length_pos_iff.mpr (hpieces values hvalues)

section
variable (h : Accounted o)
include h

theorem Accounted.queueAll (samples : List Sample)
    (hlead : o.preparation.bufferedFrames + samples.length ≤ o.preparation.maximumLeadFrames) :
    Accounted { o with preparation := { (chunks o.preparation.chunkFrames samples).foldl
        OutputPreparation.queue o.preparation with
      bufferedFrames := o.preparation.bufferedFrames + samples.length } } := by
  rw [foldl_queue]
  refine h.queued _ samples.length (mem_asChunks fun values hmem => mem_chunks o.preparation.chunked.1 hmem) ?_ hlead
  rw [framesOf_asChunks, chunks_length _ o.preparation.chunked.1]

theorem Accounted.prepare (turnId : TurnId) (generation : OutputGeneration)
    (pcm : SynthesizedPcm Sample) (polls : ℕ) (hwhole : o.preparation.cutShort generation pcm polls = false) :
    Accounted (o.prepare turnId generation pcm polls) := by
  have htasks : ∀ ok : Bool, ∀ task ∈ (if ok then [Task.pump] else [] : List (Task Sample)), task.Filled := by
    intro ok task hmem
    cases ok
    · cases hmem
    · rw [List.mem_singleton.mp hmem]
      trivial
  have hprepared : Accounted { o with
      preparation := (o.preparation.prepare turnId generation pcm polls).2 } := by
    unfold OutputPreparation.prepare
    unfold OutputPreparation.cutShort at hwhole
    cases hrefusal : o.preparation.refusal generation (polls == 0) with
    | some error => exact h
    | none =>
      cases hresampler : o.preparation.resamplerFor pcm.sampleRateHz with
      | error error => exact h
      | ok resampler =>
        rw [hrefusal, hresampler] at hwhole
        dsimp only
        have hresampled := h.withResampler
          (o.preparation.resampled resampler (pcm.samples.map sound.sanitize)).1.resampler
        split
        · exact hresampled
        · rename_i hfits
          have hlead := Nat.le_of_not_lt hfits
          split
          · rename_i hcancelled
            -- The cancellation came before the first chunk.
            have hnone : polls - 1 = 0 := by
              simp only [Option.isNone_none, Bool.true_and, Bool.and_eq_false_iff, decide_eq_false_iff_not] at hwhole
              rcases hwhole with (hfull | hfirst) | hlast
              · exact absurd hlead hfull
              · omega
              · omega
            rw [hnone, List.take_zero]
            exact hresampled
          · rename_i hall
            rw [List.take_of_length_le (Nat.le_of_not_lt hall)]
            exact hresampled.queueAll _ hlead
  exact hprepared.withTasks _ (htasks _)

theorem Accounted.prepareBlocking (generation : OutputGeneration)
    (pcm : SynthesizedPcm Sample) (cancelled : Bool) :
    Accounted (o.prepareBlocking generation pcm cancelled) := by
  unfold Output.prepareBlocking
  split
  · exact h
  · split
    · exact h
    · rename_i resampler _
      refine (h.withResampler (some resampler)).withTasks _ fun task hmem => ?_
      rw [List.mem_singleton.mp hmem]
      trivial

theorem Accounted.finish : Accounted o.finish := by
  have hfinished : Accounted { o with preparation := o.preparation.finish.2 } := by
    unfold OutputPreparation.finish
    split
    · exact h
    · rename_i resampler _
      dsimp only
      have hflushed := h.withResampler (some { resampler with state := (sound.flush resampler.state).1 })
      split
      · exact hflushed
      · rename_i hfits
        exact hflushed.queueAll _ (Nat.le_of_not_lt hfits)
  refine hfinished.withTasks _ fun task hmem => ?_
  split at hmem
  · rw [List.mem_singleton.mp hmem]
    trivial
  · cases hmem

theorem Accounted.finishBlocking : Accounted o.finishBlocking := by
  unfold Output.finishBlocking
  split
  · exact h
  · rename_i resampler _
    refine (h.withResampler (some { resampler with state := (sound.flush resampler.state).1 })).withTasks _
      fun task hmem => ?_
    rw [List.mem_singleton.mp hmem]
    exact fun values hvalues => mem_chunks o.preparation.chunked.1 hvalues

theorem Accounted.pumpOne (rest : List (Task Sample)) (hrest : ∀ task ∈ rest, task.Filled) :
    Accounted (o.pumpOne rest) := by
  unfold Output.pumpOne
  split
  · exact h.withTasks rest hrest
  · split
    · exact h.withTasks rest hrest
    · rename_i chunk pending hpending
      have hchunk := h.waiting chunk (by rw [hpending]; exact List.mem_cons_self)
      have hlater : ∀ later ∈ pending,
          later.generation = o.preparation.activeGeneration ∧ 0 < later.len :=
        fun later hmem => h.waiting later (by rw [hpending]; exact List.mem_cons_of_mem _ hmem)
      split
      · rename_i port hpush
        unfold RenderPort.push at hpush
        split at hpush
        · cases hpush
        · rename_i hgeneration
          split at hpush
          · cases hpush
            refine ⟨h.lead, hlater, ?_, h.older, h.started, ?_, h.tasks⟩
            · intro sent hsent
              rcases hsent with hready | hcursor
              · rcases List.mem_append.mp hready with hold | hnew
                · exact h.sent sent (.inl hold)
                · rw [List.mem_singleton.mp hnew]
                  exact ⟨Nat.le_of_eq hchunk.1, hchunk.2⟩
              · exact h.sent sent (.inr hcursor)
            · intro hsame
              obtain ⟨hcount, hlate⟩ := h.counted hsame
              refine ⟨?_, hlate⟩
              rw [← hcount]
              simp only [Output.framesLeft, Output.uncounted, hpending, framesOf_append, framesOf_cons,
                framesOf_nil]
              omega
          · cases hpush
      · rename_i back hpush
        have hback : back = chunk := by
          unfold RenderPort.push at hpush
          split at hpush
          · cases hpush
            rfl
          · split at hpush <;> cases hpush
            rfl
        rw [hback, if_neg (not_not.mpr hchunk.1)]
        exact h.withTasks rest hrest

theorem Accounted.takeConsumed : Accounted o.takeConsumed where
  lead := Nat.le_trans (Nat.sub_le _ _) h.lead
  waiting := h.waiting
  sent := h.sent
  older := h.older
  started := h.started
  counted := by
    intro hsame
    obtain ⟨hcount, hlate⟩ := h.counted hsame
    refine ⟨?_, hlate⟩
    show o.framesLeft + 0 + o.uncounted = o.preparation.bufferedFrames - o.port.activeConsumedFrames
    omega
  tasks := h.tasks

theorem Accounted.takeSlice (values : List Sample) (more : List (List Sample))
    (rest : List (Task Sample)) (hvalues : values ≠ []) (hmore : ∀ slice ∈ more, slice ≠ [])
    (hrest : ∀ task ∈ rest, task.Filled) : Accounted (o.takeSlice values more rest) := by
  unfold Output.takeSlice
  split
  · rename_i hfits
    have hone : ∀ slice ∈ [values], slice ≠ [] := fun slice hmem => List.mem_singleton.mp hmem ▸ hvalues
    have hqueued := h.queued (o.preparation.asChunks [values]) values.length (mem_asChunks hone)
      (by rw [framesOf_asChunks]; simp) hfits
    refine hqueued.withTasks _ fun task hmem => ?_
    rcases List.mem_cons.mp hmem with rfl | hmem
    · trivial
    · rcases List.mem_cons.mp hmem with rfl | hmem
      · exact hmore
      · exact hrest task hmem
  · refine h.withTasks _ fun task hmem => ?_
    rcases List.mem_cons.mp hmem with rfl | hmem
    · exact List.forall_mem_cons.mpr ⟨hvalues, hmore⟩
    · exact hrest task hmem

theorem Accounted.resampleNext (input : List Sample) (inputs : List (List Sample))
    (rest : List (Task Sample)) (hrest : ∀ task ∈ rest, task.Filled) :
    Accounted (o.resampleNext input inputs rest) := by
  unfold Output.resampleNext
  split
  · exact h.withTasks [] nofun
  · rename_i resampler _
    dsimp only
    refine (h.withResampler (o.preparation.resampled resampler input).1.resampler).withTasks _ fun task hmem => ?_
    rcases List.mem_cons.mp hmem with rfl | hmem
    · exact fun values hvalues => mem_chunks o.preparation.chunked.1 hvalues
    · rcases List.mem_cons.mp hmem with rfl | hmem
      · trivial
      · exact hrest task hmem

theorem Accounted.work (cancelled : Bool) {after : Output sound}
    (hwork : o.work cancelled = some after) : Accounted after := by
  have hall := h.tasks
  unfold Output.work at hwork
  split at hwork
  · cases hwork
  all_goals
    rename_i htasks
    rw [htasks, List.forall_mem_cons] at hall
    cases hwork
  · exact h.pumpOne _ hall.2
  · exact h.takeConsumed.withTasks _ (List.forall_mem_cons.mpr ⟨trivial, hall.2⟩)
  · exact h.withTasks _ hall.2
  · refine h.withTasks _ ?_
    cases cancelled
    · obtain ⟨hvalues, hmore⟩ := List.forall_mem_cons.mp hall.1
      exact List.forall_mem_cons.mpr ⟨trivial, List.forall_mem_cons.mpr ⟨⟨hvalues, hmore⟩, hall.2⟩⟩
    · exact nofun
  · exact h.takeSlice _ _ _ hall.1.1 hall.1.2 hall.2
  · exact h.withTasks _ hall.2
  · cases cancelled
    · exact h.resampleNext _ _ _ hall.2
    · exact h.withTasks [] nofun

end

end Worker

/-! ## The port and the callback -/

section Port
variable {o : Output sound}

theorem framesOf_sent (generation : OutputGeneration) (ready : List (RenderChunk Sample))
    (cursor : RenderCursor Sample)
    (h : ∀ chunk, chunk ∈ ready ∨ cursor.chunk = some chunk → chunk.generation ≠ generation) :
    framesOf generation ready + cursor.framesOf generation = 0 := by
  have hcursor : cursor.framesOf generation = 0 := by
    unfold RenderCursor.framesOf
    split
    · rfl
    · rename_i chunk hchunk
      exact if_neg (h chunk (.inr hchunk))
  rw [framesOf_other fun chunk hmem => h chunk (.inl hmem), hcursor]

theorem Accounted.setGeneration (h : Accounted o)
    (hother : o.preparation.activeGeneration ≠ o.port.activeGeneration)
    (hcounted : o.port.activeConsumedFrames = 0) (huncounted : o.uncounted = 0) :
    Accounted { o with preparation := o.preparation.setGeneration o.port.activeGeneration } := by
  have holder := Nat.lt_of_le_of_ne h.older hother
  refine ⟨Nat.zero_le _, nofun, fun chunk hsent => ?_, Nat.le_refl _, fun callback hcallback => ?_, fun _ => ⟨?_, ?_⟩,
    h.tasks⟩
  · obtain ⟨hgeneration, hfilled⟩ := h.sent chunk hsent
    exact ⟨Nat.le_trans hgeneration h.older, hfilled⟩
  · obtain ⟨hread, -⟩ := h.started callback hcallback
    exact ⟨hread, fun hlater => absurd hread (Nat.not_le_of_lt hlater)⟩
  · have hnone := framesOf_sent o.port.activeGeneration o.port.ready o.port.cursor fun chunk hsent =>
      Nat.ne_of_lt (Nat.lt_of_le_of_lt (h.sent chunk hsent).1 holder)
    show 0 + framesOf o.port.activeGeneration o.port.ready +
      o.port.cursor.framesOf o.port.activeGeneration + o.port.activeConsumedFrames + o.uncounted = 0
    omega
  · intro callback hcallback _
    rw [Output.uncounted, hcallback] at huncounted
    exact huncounted

theorem Accounted.publish (h : Accounted o) (change : PortChange)
    (hforward : o.port.activeGeneration ≤ (o.port.changed change).activeGeneration) :
    Accounted { o with port := o.port.changed change } := by
  have hsame : (o.port.changed change).ready = o.port.ready ∧
      (o.port.changed change).cursor = o.port.cursor ∧
      (o.port.changed change).activeConsumedFrames = o.port.activeConsumedFrames := by
    cases change <;> exact ⟨rfl, rfl, rfl⟩
  obtain ⟨hready, hcursor, hconsumed⟩ := hsame
  refine ⟨h.lead, h.waiting, ?_, Nat.le_trans h.older hforward, fun callback hcallback => ?_, fun hagree => ?_, h.tasks⟩
  · rw [hready, hcursor]
    exact h.sent
  · obtain ⟨hread, hnothing⟩ := h.started callback hcallback
    exact ⟨Nat.le_trans hread hforward, hnothing⟩
  · have hbefore : o.preparation.activeGeneration = o.port.activeGeneration :=
      Nat.le_antisymm h.older (hagree ▸ hforward)
    obtain ⟨hcount, hlate⟩ := h.counted hbefore
    refine ⟨?_, hlate⟩
    rw [Output.framesLeft, hready, hcursor, hconsumed]
    exact hcount

theorem Accounted.fill (h : Accounted o) (hidle : o.callback = none) (samples channels : ℕ)
    (route : RouteGeneration) : Accounted { o with callback := o.port.fill samples channels route } := by
  have hstart : ∀ callback, o.port.fill samples channels route = some callback →
      callback.active = o.port.activeGeneration ∧ callback.activeConsumed = 0 := by
    intro callback hcallback
    unfold RenderPort.fill at hcallback
    split_ifs at hcallback
    cases hcallback
    exact ⟨rfl, rfl⟩
  refine ⟨h.lead, h.waiting, h.sent, h.older, fun callback hcallback => ?_, fun hagree => ⟨?_, ?_⟩, h.tasks⟩
  · obtain ⟨hread, hnothing⟩ := hstart callback hcallback
    exact ⟨Nat.le_of_eq hread, fun _ => hnothing⟩
  · have hcount := (h.counted hagree).1
    have hnothing : Output.uncounted { o with callback := o.port.fill samples channels route } = 0 := by
      unfold Output.uncounted
      cases hcallback : o.port.fill samples channels route with
      | none => rfl
      | some callback => exact (hstart callback hcallback).2
    rw [Output.uncounted, hidle] at hcount
    rw [hnothing]
    exact hcount
  · exact fun callback hcallback _ => (hstart callback hcallback).2

variable {active : OutputGeneration} {retiring : Option OutputGeneration} {callback : Callback}

theorem heard_active {chunks : List (RenderChunk Sample)} : Kept active retiring active chunks := by
  intro chunk hmem hactive
  have hstale := List.mem_takeWhile_imp hmem
  rw [RenderChunk.stale, RenderChunk.heard, hactive] at hstale
  simp at hstale

theorem mem_lookedAt {port : RenderPort Sample} {chunk : RenderChunk Sample}
    (h : chunk ∈ lookedAt active retiring port.chunksAhead) : chunk ∈ port.ready ∨ port.cursor.chunk = some chunk := by
  have hahead : chunk ∈ port.chunksAhead := by
    rcases List.mem_append.mp h with hpassed | hfirst
    · exact (List.takeWhile_sublist _).subset hpassed
    · exact (List.dropWhile_sublist _).subset (List.mem_of_mem_head? (Option.mem_toList.mp hfirst))
  rcases List.mem_append.mp hahead with hcurrent | hready
  · exact .inr (Option.filter_eq_some_iff.mp (Option.mem_toList.mp hcurrent)).1
  · exact .inl hready

theorem Accounted.frame (h : Accounted o) (hcallback : o.callback = some callback)
    (hcareful : callback.active ≠ o.preparation.activeGeneration →
      o.preparation.activeGeneration = o.port.activeGeneration →
      ∀ chunk ∈ lookedAt callback.active callback.retiring o.port.chunksAhead,
        chunk.generation ≠ callback.active ∧ chunk.generation ≠ o.preparation.activeGeneration) :
    Accounted { o with port := (o.port.frame callback).1, callback := some (o.port.frame callback).2 } := by
  have hfilled : ∀ chunk ∈ o.port.ready, 0 < chunk.len := fun chunk hmem => (h.sent chunk (.inl hmem)).2
  obtain ⟨hread, hnothing⟩ := h.started callback hcallback
  have huncounted : o.uncounted = callback.activeConsumed := by rw [Output.uncounted, hcallback]; rfl
  refine ⟨h.lead, h.waiting, fun chunk hsent => h.sent chunk (takeFrame_mem hsent), h.older, ?_, fun hagree => ?_, h.tasks⟩
  · rintro _ ⟨⟩
    refine ⟨hread, fun hlater => ?_⟩
    have huntaken : (takeFrame callback.active callback.retiring o.port.cursor o.port.ready).generation ≠
        some callback.active := by
      intro htaken
      obtain ⟨chunk, hlooked, hgeneration⟩ := takeFrame_looked htaken
      have hold := (h.sent chunk (mem_lookedAt hlooked)).1
      rw [hgeneration] at hold
      exact absurd hlater (Nat.not_lt_of_le hold)
    show callback.activeConsumed + _ = 0
    rw [hnothing hlater, if_neg huntaken]
  · obtain ⟨hcount, hlate⟩ := h.counted hagree
    rw [Output.framesLeft, huncounted] at hcount
    by_cases hcurrent : callback.active = o.preparation.activeGeneration
    · refine ⟨?_, ?_⟩
      · have hkept : Kept callback.active callback.retiring callback.active o.port.chunksAhead := heard_active
        have hframes := takeFrame_frames hfilled hkept
        rw [hcurrent] at hframes
        simp only [Output.framesLeft, Output.uncounted, RenderPort.frame, RenderPort.fadeFrame, hcurrent,
          Option.map_some, Option.getD_some]
        omega
      · rintro _ ⟨⟩ hother
        exact absurd hcurrent hother
    · have hlooked := hcareful hcurrent hagree
      have hkept : Kept callback.active callback.retiring o.preparation.activeGeneration o.port.chunksAhead :=
        fun chunk hmem => (hlooked chunk (List.mem_append_left _ hmem)).2
      have hframes := takeFrame_frames hfilled hkept
      have huntaken : ∀ generation, (∀ chunk ∈ lookedAt callback.active callback.retiring o.port.chunksAhead,
          chunk.generation ≠ generation) →
          (takeFrame callback.active callback.retiring o.port.cursor o.port.ready).generation ≠
            some generation := by
        intro generation hnone htaken
        obtain ⟨chunk, hmem, hgeneration⟩ := takeFrame_looked htaken
        exact hnone chunk hmem hgeneration
      have hown := huntaken _ fun chunk hmem => (hlooked chunk hmem).1
      have hworker := huntaken _ fun chunk hmem => (hlooked chunk hmem).2
      rw [if_neg hworker] at hframes
      refine ⟨?_, ?_⟩
      · simp only [Output.framesLeft, Output.uncounted, RenderPort.frame, RenderPort.fadeFrame, if_neg hown,
          Option.map_some, Option.getD_some]
        omega
      · rintro _ ⟨⟩ -
        show callback.activeConsumed + _ = 0
        rw [hlate callback hcallback hcurrent, if_neg hown]

theorem Accounted.filled (h : Accounted o) (hcallback : o.callback = some callback) :
    Accounted { o with port := o.port.filled callback, callback := none } := by
  refine ⟨h.lead, h.waiting, h.sent, h.older, nofun, fun hagree => ⟨?_, nofun⟩, h.tasks⟩
  have hcount := (h.counted hagree).1
  rw [Output.uncounted, hcallback] at hcount
  show o.framesLeft + (o.port.activeConsumedFrames + callback.activeConsumed) + 0 = o.preparation.bufferedFrames
  rw [← hcount]
  simp only [Option.map_some, Option.getD_some]
  omega

end Port

/-! ## Runs -/

theorem Accounted.step {o after : Output sound} (h : Accounted o) {event : OutputEvent Sample}
    (hcareful : o.Careful event) (hstep : o.step event = some after) : Accounted after := by
  cases event with
  | prepare turnId generation pcm polls =>
    obtain ⟨-, hafter⟩ := Option.ite_none_right_eq_some.mp hstep
    cases hafter
    exact h.prepare turnId generation pcm polls hcareful
  | prepareBlocking generation pcm cancelled =>
    obtain ⟨-, hafter⟩ := Option.ite_none_right_eq_some.mp hstep
    cases hafter
    exact h.prepareBlocking generation pcm cancelled
  | finish =>
    obtain ⟨-, hafter⟩ := Option.ite_none_right_eq_some.mp hstep
    cases hafter
    exact h.finish
  | finishBlocking =>
    obtain ⟨-, hafter⟩ := Option.ite_none_right_eq_some.mp hstep
    cases hafter
    exact h.finishBlocking
  | serviceCapacity =>
    obtain ⟨-, hafter⟩ := Option.ite_none_right_eq_some.mp hstep
    cases hafter
    exact h.withTasks _ fun task hmem => by rw [List.mem_singleton.mp hmem]; trivial
  | setGeneration =>
    obtain ⟨hready, hafter⟩ := Option.ite_none_right_eq_some.mp hstep
    cases hafter
    obtain ⟨-, hother⟩ := Bool.and_eq_true_iff.mp hready
    exact h.setGeneration (bne_iff_ne.mp hother) hcareful.1 hcareful.2
  | work cancelled => exact h.work cancelled hstep
  | publish change =>
    obtain ⟨hforward, hafter⟩ := Option.ite_none_right_eq_some.mp hstep
    cases hafter
    exact h.publish change hforward
  | fill samples channels route =>
    obtain ⟨hidle, hafter⟩ := Option.ite_none_right_eq_some.mp hstep
    cases hafter
    exact h.fill (Option.isNone_iff_eq_none.mp hidle) samples channels route
  | frame =>
    simp only [Output.step] at hstep
    split at hstep
    · cases hstep
    · rename_i callback hcallback
      split at hstep
      · cases hstep
      · cases hstep
        exact h.frame hcallback (hcareful callback hcallback)
  | filled =>
    simp only [Output.step] at hstep
    split at hstep
    · cases hstep
    · rename_i callback hcallback
      split at hstep
      · cases hstep
        exact h.filled hcallback
      · cases hstep

theorem plays_accounted {o : Output sound} (h : Plays Output.Careful o) : Accounted o := by
  induction h with
  | new outputRateHz generation maximumLeadMs readyChunks route o hnew =>
    unfold Output.new OutputPreparation.new at hnew
    split at hnew
    · cases hnew
    · cases hnew
      refine ⟨Nat.zero_le _, nofun, ?_, Nat.le_refl _, nofun, fun _ => ⟨rfl, nofun⟩, nofun⟩
      exact fun chunk hsent => hsent.elim nofun nofun
  | step o after event _ hcareful hstep ih => exact ih.step hcareful hstep

/-- The counts of the worker and the callback tell what is left of the turn. -/
structure FramesCounted (o : Output sound) : Prop where
  counted : o.preparation.activeGeneration = o.port.activeGeneration →
    (o.preparation.bufferedFrames : ℤ) - (o.port.activeConsumedFrames + o.uncounted : ℕ) = o.framesLeft
  bounded : o.preparation.bufferedFrames ≤ o.preparation.maximumLeadFrames
  drained : o.preparation.activeGeneration = o.port.activeGeneration → o.preparation.isEmpty = true →
    o.framesLeft = 0

/-- In a run that counts only frames of the worker's generation the output is empty only when it has
drained. -/
theorem frames_counted {o : Output sound} (h : Plays Output.Careful o) : FramesCounted o := by
  have haccounted := plays_accounted h
  refine ⟨fun hagree => ?_, haccounted.lead, fun hagree hempty => ?_⟩
  · have hcount := (haccounted.counted hagree).1
    omega
  · have hcount := (haccounted.counted hagree).1
    have hzero : o.preparation.bufferedFrames = 0 := beq_iff_eq.mp (Bool.and_eq_true_iff.mp hempty).1
    omega

/-! ## A turn that is cut off while it plays -/

def plainSound : Sound ℕ where
  State := Unit
  new := fun sourceRateHz outputRateHz => if sourceRateHz = 0 ∨ outputRateHz = 0 then none else some ()
  process := fun _ samples => ((), samples)
  flush := fun _ => ((), [])
  sanitize := id

/-- A worker for chunks of two frames. -/
def newOutput : Output plainSound where
  preparation :=
    { outputRateHz := 200
      resampler := none
      activeGeneration := 1
      bufferedFrames := 0
      maximumLeadFrames := 200
      pending := []
      chunkFrames := 2
      chunked := by decide }
  port := (RenderPort.new 4).activateRoute 1 1
  tasks := []
  callback := none

theorem plays_new (condition : Output plainSound → OutputEvent ℕ → Prop) : Plays condition newOutput :=
  .new 200 1 1000 4 1 newOutput rfl

theorem frames_counted_prepared : FramesCounted (newOutput.prepare "boot-t-2" 1 ⟨[1, 2, 3], 200⟩ 9) :=
  frames_counted (.step newOutput _ (.prepare "boot-t-2" 1 ⟨[1, 2, 3], 200⟩ 9) (plays_new _) rfl rfl)

/-- The state after some events, of which those that cannot happen are left out. -/
def Output.playing (o : Output sound) (events : List (OutputEvent Sample)) : Output sound :=
  events.foldl (fun o event => (o.step event).getD o) o

theorem plays_playing {o : Output sound} (h : Plays (fun _ _ => True) o) (events : List (OutputEvent Sample)) :
    Plays (fun _ _ => True) (o.playing events) := by
  induction events generalizing o with
  | nil => exact h
  | cons event events ih =>
    have hnext : Plays (fun _ _ => True) ((o.step event).getD o) := by
      cases hstep : o.step event with
      | none => exact h
      | some after => exact .step o after event h trivial hstep
    exact ih hnext

/-- One frame of a turn is played; then the turn is cut off, and one frame of the next turn is played. -/
def cutOffEvents : List (OutputEvent ℕ) :=
  [.prepare "boot-t-2" 1 ⟨[1, 2], 200⟩ 9, .work false, .work false,
    .fill 1 1 1, .frame, .filled,
    .publish (.retire 1 2 80 200), .setGeneration,
    .prepare "boot-t-3" 2 ⟨[3, 4], 200⟩ 9, .work false, .work false,
    .serviceCapacity, .work false, .work false,
    .fill 2 1 1, .frame, .frame, .filled,
    .serviceCapacity, .work false, .work false]

/-- The frame of the first turn is taken for one of the second, which is declared empty too early. -/
theorem drained_early : ¬ ∀ o : Output plainSound, Plays (fun _ _ => True) o → FramesCounted o := by
  intro h
  have hcounted := h (newOutput.playing cutOffEvents) (plays_playing (plays_new _) cutOffEvents)
  have hleft := hcounted.drained (by decide) (by decide)
  exact absurd hleft (by decide)

end AvenOS.VoiceRuntime
