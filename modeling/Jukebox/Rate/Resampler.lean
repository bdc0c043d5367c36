import Jukebox.Fault
import Jukebox.Format
import Jukebox.Media.Packet
import Jukebox.Rate.Sinc

/-!
Turning decoded frames into bytes of an output format: the channels are mapped, the rate is changed
if it has to be, and the samples are encoded into a scratch area that only grows. A result is the
front of that area.
-/

namespace Jukebox.Rate

/-- One frame of another count of channels: mono is repeated, stereo averaged into mono, and
otherwise each channel takes the nearest one there is. -/
def mapFrame (source target : Nat) (frame : Nat → Float32) : List Float32 :=
  (List.range target).map fun channel =>
    if source = 2 ∧ target = 1 then 0.5 * (frame 0 + frame 1)
    else frame (min channel (source - 1))

/-- Interleaved samples of another count of channels. -/
def mapChannels (source target : Nat) (samples : Array Float32) : Array Float32 :=
  if source = 0 ∨ target = 0 then #[]
  else (Array.range (samples.size / source)).flatMap fun i =>
    (mapFrame source target fun channel => samples.getD (i * source + channel) 0.0).toArray

/-- A result: its bytes, its frames, and the number of the call that made it. -/
structure Converted where
  bytes : Bytes
  frames : Nat
  generation : Nat
  deriving DecidableEq

/-- A converter from frames of one layout. -/
structure Resampler (σ : Type) where
  source : Media.Layout
  target : Format
  /-- What changes the rate, if it has to be changed. -/
  rate : Option (Stage σ)
  scratch : Bytes := #[]
  generation : Nat := 0

namespace Resampler

variable {σ : Type}

/-- The most frames that so many more frames of input can yield. -/
def maxOutput (r : Resampler σ) (frames : Nat) : Nat :=
  match r.rate with
  | some stage => stage.maxOutput frames
  | none => frames

/-- The most bytes that the next call can yield. -/
def maxBytes (r : Resampler σ) (frames : Nat) : Nat :=
  max (r.maxOutput frames) ((r.rate.map Stage.maxFlush).getD 0) * r.target.bytesPerFrame

/-- Makes room for the largest result of the next call. -/
def reserve (r : Resampler σ) (frames : Nat) : Resampler σ :=
  { r with scratch := grown r.scratch (r.maxBytes frames) 0 }

/-- A result without frames. -/
def nothing (r : Resampler σ) : Resampler σ × Converted :=
  ({ r with generation := r.generation + 1 }, ⟨#[], 0, r.generation + 1⟩)

/-- Encodes samples at the front of the scratch area. -/
def encode (r : Resampler σ) (samples : Array Float32) : Resampler σ × Converted :=
  let channels := max r.target.channels 1
  let frames := samples.size / channels
  let length := frames * channels * r.target.bytesPerSample
  let bytes := r.target.encodeAll (samples.extract 0 (frames * channels))
  let scratch := overwrite (grown r.scratch length 0) 0 bytes
  ({ r with scratch, generation := r.generation + 1 },
    ⟨scratch.extract 0 length, frames, r.generation + 1⟩)

/-- Converts one decoded frame. It has to have the layout that the converter is for. -/
def convert (r : Resampler σ) (f : Media.Frame) : Resampler σ × Except Fault Converted :=
  if f.layout ≠ r.source then
    (r, .error (.conversion (.layoutChanged r.source.rate r.source.channels f.layout.rate
      f.layout.channels)))
  else if f.frames = 0 then
    let (r, c) := r.nothing
    (r, .ok c)
  else
    let r := r.reserve f.frames
    let mapped := mapChannels f.layout.channels r.target.channels f.samples
    let (r, samples) := match r.rate with
      | some stage =>
        let (stage, samples) := stage.process mapped
        ({ r with rate := some stage }, samples)
      | none => (r, mapped)
    let (r, c) := r.encode samples
    (r, .ok c)

/-- Converts what is left at the end. -/
def flush (r : Resampler σ) : Resampler σ × Converted :=
  match r.rate with
  | none => r.nothing
  | some stage =>
    if stage.pendingFrames = 0 then r.nothing
    else
      let r := r.reserve 0
      let (stage, samples) := stage.flush
      { r with rate := some stage }.encode samples

/-- A converter between two layouts. Without a target rate there is no filter. -/
def create (source : Media.Layout) (target : Format) (chunk : Nat) :
    Except Fault (Resampler Sinc.State) :=
  if source.rate = target.rate then .ok { source, target, rate := none }
  else if target.rate = 0 then .error (.conversion .noFilter)
  else
    let chunk := max chunk 1
    let ratio := target.rate.toFloat / source.rate.toFloat
    let stage : Stage Sinc.State :=
      { filter := Sinc.filter ratio chunk
        state := .initial ratio target.channels chunk
        channels := target.channels
        chunk }
    .ok { source, target, rate := some stage }

end Resampler

end Jukebox.Rate
