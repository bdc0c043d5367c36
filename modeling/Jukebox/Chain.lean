import Jukebox.Buffer

/-!
What a track passes on its way from its buffer to the sound card. Samples go through untouched; a
fade-out bounds the stream, so that reading stops where the window of the fade ends. Only the first
fade of a chain counts.
-/

namespace Jukebox

/-- A fade-out between two positions of the buffer. -/
structure Fade where
  first : Nat
  last : Nat
  deriving DecidableEq

/-- The settings of a chain. -/
structure Effects where
  fade : Option Fade := none
  tempo : Float32 := 1.0

/-- A buffer seen through the effects on it. -/
structure Chain extends Effects where
  buffer : Buffer

namespace Chain

/-- A buffer without any effect. -/
def ofBuffer (b : Buffer) : Chain := { buffer := b }

/-- How much of a read into `room` bytes a fade leaves. -/
def room (c : Chain) (room : Nat) : Nat :=
  match c.fade with
  | none => room
  | some fade => min (fade.last - c.buffer.readPos) room

/-- Reads whole frames into `room` bytes, not beyond a fade. -/
def read (c : Chain) (room : Nat) : Chain × Bytes :=
  let (buffer, bytes) := c.buffer.read (c.room room)
  ({ c with buffer }, bytes)

/-- Goes to a moment of the track. -/
def seek (c : Chain) (d : Span) : Chain := { c with buffer := c.buffer.seek d }

/-- Is there nothing left to read, now or later? -/
def isFinished (c : Chain) : Bool :=
  match c.fade with
  | some fade => decide (fade.last ≤ c.buffer.readPos) || c.buffer.isFinished
  | none => c.buffer.isFinished

/-- The largest end of a fade: one byte before the largest position. -/
def lastFadeEnd : Nat := Word.top - 1

/-- Fades out over a span of time from here on. -/
def fadeOut (c : Chain) (window : Span) : Chain :=
  match c.fade with
  | some _ => c
  | none =>
    let first := c.buffer.readPos
    let last := min (first + c.buffer.format.bytesOfSpan window) lastFadeEnd
    { c with fade := some ⟨first, last⟩ }

def setTempo (c : Chain) (tempo : Float32) : Chain := { c with tempo }

/-- How much of a fade is behind, from 0 to 1. -/
def fadeProgress (c : Chain) : Option Float32 :=
  c.fade.map fun fade =>
    if fade.last ≤ fade.first then 1.0
    else
      let done := (c.buffer.readPos - fade.first).toUInt64.toFloat32
      let ratio := done / (fade.last - fade.first).toUInt64.toFloat32
      if ratio < 1.0 then ratio else 1.0

end Chain

end Jukebox
