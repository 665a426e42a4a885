import AvenOS.Voice.Protocol

/-! # The output of the voice runtime

A worker turns synthesized sound into chunks and keeps a bounded lead of them; the callback of the device
takes them out of a ring. The two share the ring, the active generation, and a count of the frames of the
active generation that have been taken. What the samples sound like is left to the resampler. -/
namespace AvenOS.VoiceRuntime
open AvenOS.Voice

variable {Sample : Type}

/-! ## Chunks -/

structure RenderChunk (Sample : Type) where
  samples : List Sample
  generation : OutputGeneration
deriving DecidableEq

def RenderChunk.len (chunk : RenderChunk Sample) : ℕ := chunk.samples.length

def maxCallbackSamples : ℕ := 4096

/-- The slices of a list, each of a given length but the last one. -/
def chunksOf (size : ℕ) : ℕ → List Sample → List (List Sample)
  | 0, _ => []
  | _ + 1, [] => []
  | fuel + 1, samples => samples.take size :: chunksOf size fuel (samples.drop size)

def chunks (size : ℕ) (samples : List Sample) : List (List Sample) :=
  chunksOf size samples.length samples

/-! ## The render port -/

structure RenderCursor (Sample : Type) where
  chunk : Option (RenderChunk Sample)
  index : ℕ
deriving DecidableEq

/-- What the callback and the worker share. No route, and no retiring generation, are the greatest number. -/
structure RenderPort (Sample : Type) where
  ready : List (RenderChunk Sample)
  readyChunks : ℕ
  activeRoute : Option RouteGeneration
  activeGeneration : OutputGeneration
  retiringGeneration : Option OutputGeneration
  fadeTotal : ℕ
  fadeRemaining : ℕ
  cursor : RenderCursor Sample
  activeConsumedFrames : ℕ
deriving DecidableEq

def RenderPort.new (readyChunks : ℕ) : RenderPort Sample where
  ready := []
  readyChunks := readyChunks
  activeRoute := none
  activeGeneration := 0
  retiringGeneration := none
  fadeTotal := 0
  fadeRemaining := 0
  cursor := ⟨none, 0⟩
  activeConsumedFrames := 0

namespace RenderPort
variable (port : RenderPort Sample)

def activateRoute (route : RouteGeneration) (generation : OutputGeneration) : RenderPort Sample :=
  { port with activeGeneration := generation, activeRoute := some route }

def activateRouteCurrentGeneration (route : RouteGeneration) : RenderPort Sample :=
  { port with activeRoute := some route }

def deactivateRoute : RenderPort Sample := { port with activeRoute := none }

def setActiveGeneration (generation : OutputGeneration) : RenderPort Sample :=
  { port with activeGeneration := generation }

def retire (retiring active : OutputGeneration) (fadeMs outputRateHz : ℕ) : RenderPort Sample :=
  { port with
    activeGeneration := active
    retiringGeneration := some retiring
    fadeTotal := outputRateHz * fadeMs / 1000
    fadeRemaining := outputRateHz * fadeMs / 1000 }

/-- A chunk of another generation, or for a full ring, comes back. -/
def push (chunk : RenderChunk Sample) : Except (RenderChunk Sample) (RenderPort Sample) :=
  if chunk.generation ≠ port.activeGeneration then .error chunk
  else if port.ready.length < port.readyChunks then .ok { port with ready := port.ready ++ [chunk] }
  else .error chunk

def remainingChunks : ℕ := port.readyChunks - port.ready.length

end RenderPort

/-! ## The callback of the device -/

/-- What the callback passes on its way to a frame. -/
structure Taken (Sample : Type) where
  ready : List (RenderChunk Sample)
  cursor : RenderCursor Sample
  generation : Option OutputGeneration
  staleChunks : ℕ
deriving DecidableEq

def RenderChunk.heard (active : OutputGeneration) (retiring : Option OutputGeneration)
    (chunk : RenderChunk Sample) : Bool :=
  chunk.generation == active || some chunk.generation == retiring

/-- The first frame of the first chunk of the ring that is heard. -/
def popFrame (active : OutputGeneration) (retiring : Option OutputGeneration) :
    List (RenderChunk Sample) → Taken Sample
  | [] => ⟨[], ⟨none, 0⟩, none, 0⟩
  | chunk :: ready =>
    if chunk.heard active retiring then ⟨ready, ⟨some chunk, 1⟩, some chunk.generation, 0⟩
    else
      let taken := popFrame active retiring ready
      { taken with staleChunks := taken.staleChunks + 1 }

def RenderCursor.current (cursor : RenderCursor Sample) : Option (RenderChunk Sample) :=
  cursor.chunk.filter fun chunk => cursor.index < chunk.len

def takeFrame (active : OutputGeneration) (retiring : Option OutputGeneration)
    (cursor : RenderCursor Sample) (ready : List (RenderChunk Sample)) : Taken Sample :=
  match cursor.current with
  | none => popFrame active retiring ready
  | some chunk =>
    if chunk.heard active retiring then
      ⟨ready, ⟨some chunk, cursor.index + 1⟩, some chunk.generation, 0⟩
    else
      let taken := popFrame active retiring ready
      { taken with staleChunks := taken.staleChunks + 1 }

/-- A callback on its way: what it read when it started, and what it has written. -/
structure Callback where
  active : OutputGeneration
  retiring : Option OutputGeneration
  remaining : ℕ
  underrunFrames : ℕ
  staleChunks : ℕ
  activeConsumed : ℕ
deriving DecidableEq

/-- A callback for some frames, unless it is of another route or of no shape. -/
def RenderPort.fill (port : RenderPort Sample) (samples channels : ℕ) (route : RouteGeneration) :
    Option Callback :=
  if channels = 0 ∨ samples % channels ≠ 0 then none
  else if port.activeRoute ≠ some route then none
  else some ⟨port.activeGeneration, port.retiringGeneration, samples / channels, 0, 0, 0⟩

def RenderPort.fadeFrame (port : RenderPort Sample) : RenderPort Sample :=
  { port with
    fadeRemaining := port.fadeRemaining - 1
    retiringGeneration := if port.fadeRemaining = 1 then none else port.retiringGeneration }

def RenderPort.frame (port : RenderPort Sample) (callback : Callback) : RenderPort Sample × Callback :=
  let taken := takeFrame callback.active callback.retiring port.cursor port.ready
  ({ port.fadeFrame with ready := taken.ready, cursor := taken.cursor },
    { callback with
      remaining := callback.remaining - 1
      underrunFrames := callback.underrunFrames + if taken.generation.isNone then 1 else 0
      staleChunks := callback.staleChunks + taken.staleChunks
      activeConsumed := callback.activeConsumed + if taken.generation = some callback.active then 1 else 0 })

/-- The frames of the active generation are counted when the callback is done. -/
def RenderPort.filled (port : RenderPort Sample) (callback : Callback) : RenderPort Sample :=
  { port with activeConsumedFrames := port.activeConsumedFrames + callback.activeConsumed }

end AvenOS.VoiceRuntime
