import AvenOS.VoiceRuntime.Preparation

/-! # The worker, the port and the callback together

The worker does one operation after another, in small pieces; the callback goes frame by frame. Between any
two pieces of the one the other may go on, and the core may publish a generation. -/
namespace AvenOS.VoiceRuntime
open AvenOS.Voice

variable {Sample : Type} {sound : Sound Sample}

/-- What is left of an operation of the worker. -/
inductive Task (Sample : Type)
  | pump
  | service
  | values (rest : List (List Sample))
  | takeSlice (values : List Sample) (rest : List (List Sample))
  | stream (inputs : List (List Sample))

structure Output (sound : Sound Sample) where
  preparation : OutputPreparation sound
  port : RenderPort Sample
  tasks : List (Task Sample)
  callback : Option Callback

def Output.new (outputRateHz : ℕ) (generation : OutputGeneration) (maximumLeadMs readyChunks : ℕ)
    (route : RouteGeneration) : Except OutputError (Output sound) :=
  (OutputPreparation.new outputRateHz generation maximumLeadMs).map fun preparation =>
    ⟨preparation, (RenderPort.new readyChunks).activateRoute route generation, [], none⟩

/-! ## The worker -/

namespace Output
variable (o : Output sound)

/-- One turn of `pump`. A chunk of another generation than the worker's is lost, and ends the operation. -/
def pumpOne (rest : List (Task Sample)) : Output sound :=
  if o.port.remainingChunks = 0 then { o with tasks := rest }
  else
    match o.preparation.pending with
    | [] => { o with tasks := rest }
    | chunk :: pending =>
      match o.port.push chunk with
      | .ok port => { o with preparation := { o.preparation with pending := pending }, port := port }
      | .error chunk =>
        if chunk.generation ≠ o.preparation.activeGeneration then
          { o with preparation := { o.preparation with pending := pending }, tasks := [] }
        else { o with tasks := rest }

def takeConsumed : Output sound :=
  { o with
    preparation := o.preparation.consumed o.port.activeConsumedFrames
    port := { o.port with activeConsumedFrames := 0 } }

/-- A chunk is queued if it fits into the lead; else the worker waits. -/
def takeSlice (values : List Sample) (more : List (List Sample)) (rest : List (Task Sample)) : Output sound :=
  if o.preparation.bufferedFrames + values.length ≤ o.preparation.maximumLeadFrames then
    { o with
      preparation := { o.preparation.queue values with
        bufferedFrames := o.preparation.bufferedFrames + values.length }
      tasks := .pump :: .values more :: rest }
  else { o with tasks := .values (values :: more) :: rest }

def resamplerChunkFrames : ℕ := 480

def resampleNext (input : List Sample) (inputs : List (List Sample)) (rest : List (Task Sample)) :
    Output sound :=
  match o.preparation.resampler with
  | none => { o with tasks := [] }
  | some resampler =>
    let processed := o.preparation.resampled resampler input
    { o with
      preparation := processed.1
      tasks := .values (chunks processed.1.chunkFrames processed.2) :: .stream inputs :: rest }

/-- The next piece of the operation; what has been cancelled ends. -/
def work (cancelled : Bool) : Option (Output sound) :=
  match o.tasks with
  | [] => none
  | .pump :: rest => some (o.pumpOne rest)
  | .service :: rest => some { o.takeConsumed with tasks := .pump :: rest }
  | .values [] :: rest => some { o with tasks := rest }
  | .values (values :: more) :: rest =>
    some { o with tasks := if cancelled then [] else .service :: .takeSlice values more :: rest }
  | .takeSlice values more :: rest => some (o.takeSlice values more rest)
  | .stream [] :: rest => some { o with tasks := rest }
  | .stream (input :: inputs) :: rest =>
    some (if cancelled then { o with tasks := [] } else o.resampleNext input inputs rest)

def prepare (turnId : TurnId) (generation : OutputGeneration) (pcm : SynthesizedPcm Sample) (polls : ℕ) :
    Output sound :=
  let prepared := o.preparation.prepare turnId generation pcm polls
  { o with preparation := prepared.2, tasks := if prepared.1.isOk then [.pump] else [] }

def prepareBlocking (generation : OutputGeneration) (pcm : SynthesizedPcm Sample) (cancelled : Bool) :
    Output sound :=
  match o.preparation.refusal generation cancelled with
  | some _ => o
  | none =>
    match o.preparation.resamplerFor pcm.sampleRateHz with
    | .error _ => o
    | .ok resampler =>
      { o with
        preparation := { o.preparation with resampler := some resampler }
        tasks := [.stream (chunks resamplerChunkFrames (pcm.samples.map sound.sanitize))] }

def finish : Output sound :=
  let finished := o.preparation.finish
  { o with
    preparation := finished.2
    tasks := if finished.1.isOk && o.preparation.resampler.isSome then [.pump] else [] }

def finishBlocking : Output sound :=
  match o.preparation.resampler with
  | none => o
  | some resampler =>
    let flushed := sound.flush resampler.state
    { o with
      preparation := { o.preparation with resampler := some { resampler with state := flushed.1 } }
      tasks := [.values (chunks o.preparation.chunkFrames flushed.2)] }

end Output

/-! ## Steps -/

/-- What the core and the host do to the port. -/
inductive PortChange
  | activateRoute (route : RouteGeneration) (generation : OutputGeneration)
  | activateRouteCurrentGeneration (route : RouteGeneration)
  | deactivateRoute
  | setActiveGeneration (generation : OutputGeneration)
  | retire (retiring active : OutputGeneration) (fadeMs outputRateHz : ℕ)

def RenderPort.changed (port : RenderPort Sample) : PortChange → RenderPort Sample
  | .activateRoute route generation => port.activateRoute route generation
  | .activateRouteCurrentGeneration route => port.activateRouteCurrentGeneration route
  | .deactivateRoute => port.deactivateRoute
  | .setActiveGeneration generation => port.setActiveGeneration generation
  | .retire retiring active fadeMs outputRateHz => port.retire retiring active fadeMs outputRateHz

inductive OutputEvent (Sample : Type)
  | prepare (turnId : TurnId) (generation : OutputGeneration) (pcm : SynthesizedPcm Sample) (polls : ℕ)
  | prepareBlocking (generation : OutputGeneration) (pcm : SynthesizedPcm Sample) (cancelled : Bool)
  | finish
  | finishBlocking
  | serviceCapacity
  | setGeneration
  | work (cancelled : Bool)
  | publish (change : PortChange)
  | fill (samples channels : ℕ) (route : RouteGeneration)
  | frame
  | filled

/-- What can happen. The worker starts an operation when it has done the last one, and takes over the
generation of the port when it is another one; the core only counts generations up; the device calls back
when the last callback is done. -/
def Output.step (o : Output sound) : OutputEvent Sample → Option (Output sound)
  | .prepare turnId generation pcm polls =>
    if o.tasks.isEmpty then some (o.prepare turnId generation pcm polls) else none
  | .prepareBlocking generation pcm cancelled =>
    if o.tasks.isEmpty then some (o.prepareBlocking generation pcm cancelled) else none
  | .finish => if o.tasks.isEmpty then some o.finish else none
  | .finishBlocking => if o.tasks.isEmpty then some o.finishBlocking else none
  | .serviceCapacity => if o.tasks.isEmpty then some { o with tasks := [.service] } else none
  | .setGeneration =>
    if o.tasks.isEmpty && o.preparation.activeGeneration != o.port.activeGeneration then
      some { o with preparation := o.preparation.setGeneration o.port.activeGeneration }
    else none
  | .work cancelled => o.work cancelled
  | .publish change =>
    if o.port.activeGeneration ≤ (o.port.changed change).activeGeneration then
      some { o with port := o.port.changed change }
    else none
  | .fill samples channels route =>
    if o.callback.isNone then some { o with callback := o.port.fill samples channels route } else none
  | .frame =>
    match o.callback with
    | none => none
    | some callback =>
      if callback.remaining = 0 then none
      else some { o with port := (o.port.frame callback).1, callback := some (o.port.frame callback).2 }
  | .filled =>
    match o.callback with
    | none => none
    | some callback =>
      if callback.remaining = 0 then some { o with port := o.port.filled callback, callback := none }
      else none

/-- What a run reaches from a new worker, if all its steps meet a condition. -/
inductive Plays (condition : Output sound → OutputEvent Sample → Prop) : Output sound → Prop
  | new (outputRateHz : ℕ) (generation : OutputGeneration) (maximumLeadMs readyChunks : ℕ)
    (route : RouteGeneration) (o : Output sound)
    (hnew : Output.new outputRateHz generation maximumLeadMs readyChunks route = .ok o) : Plays condition o
  | step (o after : Output sound) (event : OutputEvent Sample) (h : Plays condition o)
    (hmet : condition o event) (hstep : o.step event = some after) : Plays condition after

end AvenOS.VoiceRuntime
