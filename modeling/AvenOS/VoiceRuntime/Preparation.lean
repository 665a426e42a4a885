import AvenOS.VoiceRuntime.Output

/-! # The preparation of the output

The worker resamples a segment, cuts it into chunks, and keeps count of the frames that wait. It moves chunks
into the ring as long as there is room, and waits for the callback when its lead is full. -/
namespace AvenOS.VoiceRuntime
open AvenOS.Voice

inductive OutputError
  | cancelled
  | invalidRate
  | queueFull
  | staleGeneration
deriving DecidableEq, Repr

structure Sound (Sample : Type) where
  State : Type
  new : ℕ → ℕ → Option State
  process : State → List Sample → State × List Sample
  flush : State → State × List Sample
  sanitize : Sample → Sample

variable {Sample : Type} (sound : Sound Sample)

structure SynthesizedPcm (Sample : Type) where
  samples : List Sample
  sampleRateHz : ℕ

structure StreamingSincResampler where
  sourceRateHz : ℕ
  state : sound.State

structure PreparedSegment where
  turnId : TurnId
  generation : OutputGeneration
  frames : ℕ
deriving DecidableEq, Repr

structure OutputPreparation where
  outputRateHz : ℕ
  resampler : Option (StreamingSincResampler sound)
  activeGeneration : OutputGeneration
  bufferedFrames : ℕ
  maximumLeadFrames : ℕ
  pending : List (RenderChunk Sample)
  chunkFrames : ℕ
  chunked : 0 < chunkFrames ∧ chunkFrames ≤ maxCallbackSamples

variable {sound}

def OutputPreparation.new (outputRateHz : ℕ) (generation : OutputGeneration) (maximumLeadMs : ℕ) :
    Except OutputError (OutputPreparation sound) :=
  if outputRateHz = 0 then .error .invalidRate
  else .ok
    { outputRateHz := outputRateHz
      resampler := none
      activeGeneration := generation
      bufferedFrames := 0
      maximumLeadFrames := outputRateHz * maximumLeadMs / 1000
      pending := []
      chunkFrames := max 1 (min (outputRateHz / 100) maxCallbackSamples)
      chunked := ⟨Nat.lt_of_lt_of_le Nat.zero_lt_one (Nat.le_max_left _ _),
        Nat.max_le.mpr ⟨by decide, Nat.min_le_right _ _⟩⟩ }

namespace OutputPreparation
variable (p : OutputPreparation sound)

def setGeneration (generation : OutputGeneration) : OutputPreparation sound :=
  { p with activeGeneration := generation, bufferedFrames := 0, resampler := none, pending := [] }

def consumed (frames : ℕ) : OutputPreparation sound :=
  { p with bufferedFrames := p.bufferedFrames - frames }

def isEmpty : Bool := p.bufferedFrames == 0 && p.pending.isEmpty

def resamplerFor (sampleRateHz : ℕ) : Except OutputError (StreamingSincResampler sound) :=
  match p.resampler.filter fun resampler => resampler.sourceRateHz = sampleRateHz with
  | some resampler => .ok resampler
  | none =>
    match sound.new sampleRateHz p.outputRateHz with
    | none => .error .invalidRate
    | some state => .ok ⟨sampleRateHz, state⟩

def resampled (resampler : StreamingSincResampler sound) (samples : List Sample) :
    OutputPreparation sound × List Sample :=
  let processed := sound.process resampler.state samples
  ({ p with resampler := some { resampler with state := processed.1 } }, processed.2)

/-- Samples that wait as one chunk. -/
def queue (values : List Sample) : OutputPreparation sound :=
  { p with pending := p.pending ++ [⟨values.map sound.sanitize, p.activeGeneration⟩] }

/-- The checks before a segment is resampled. -/
def refusal (generation : OutputGeneration) (cancelled : Bool) : Option OutputError :=
  if cancelled then some .cancelled
  else if generation ≠ p.activeGeneration then some .staleGeneration
  else none

/-- A segment that has to fit into the lead. The cancellation is read before the segment and before every
chunk, and answers so many times that there is none; chunks that were queued before it stay. -/
def prepare (turnId : TurnId) (generation : OutputGeneration) (pcm : SynthesizedPcm Sample) (polls : ℕ) :
    Except OutputError PreparedSegment × OutputPreparation sound :=
  match p.refusal generation (polls == 0) with
  | some error => (.error error, p)
  | none =>
    match p.resamplerFor pcm.sampleRateHz with
    | .error error => (.error error, p)
    | .ok resampler =>
      let processed := p.resampled resampler (pcm.samples.map sound.sanitize)
      if p.maximumLeadFrames < p.bufferedFrames + processed.2.length then (.error .queueFull, processed.1)
      else
        let pieces := chunks p.chunkFrames processed.2
        let queued := (pieces.take (polls - 1)).foldl queue processed.1
        if polls - 1 < pieces.length then (.error .cancelled, queued)
        else (.ok ⟨turnId, generation, processed.2.length⟩,
          { queued with bufferedFrames := p.bufferedFrames + processed.2.length })

def finish : Except OutputError Unit × OutputPreparation sound :=
  match p.resampler with
  | none => (.ok (), p)
  | some resampler =>
    let flushed := sound.flush resampler.state
    let left := { p with resampler := some { resampler with state := flushed.1 } }
    if p.maximumLeadFrames < p.bufferedFrames + flushed.2.length then (.error .queueFull, left)
    else (.ok (), { (chunks p.chunkFrames flushed.2).foldl queue left with
      bufferedFrames := p.bufferedFrames + flushed.2.length })

end OutputPreparation

end AvenOS.VoiceRuntime
