import Jukebox.Bytes
import Jukebox.Span

/-!
Formats of uncompressed audio, and the arithmetic between time, frames and bytes in one. A frame
holds one sample for every channel. Durations become whole frames, rounded down, so that byte counts
for a duration are aligned to frames; counts that leave a 64-bit word saturate.
-/

namespace Jukebox

/-- How one sample is stored. -/
inductive Encoding where | signed16 | float32
  deriving DecidableEq

/-- Which byte of a sample comes first. -/
inductive ByteOrder where | little | big
  deriving DecidableEq

/-- A format of interleaved samples. -/
structure Format where
  rate : Nat
  channels : Nat
  encoding : Encoding
  order : ByteOrder := .little
  deriving DecidableEq

namespace Encoding

/-- Bytes of one sample. -/
def size : Encoding → Nat
  | .signed16 => 2
  | .float32 => 4

/-- The short name. -/
def label : Encoding → String
  | .signed16 => "S16"
  | .float32 => "F32"

end Encoding

/-- A number as `count` bytes in this order. -/
def ByteOrder.write : ByteOrder → (count n : Nat) → List UInt8
  | .little, count, n => Bytes.ofLittle count n
  | .big, count, n => Bytes.ofBig count n

/-- The number in `count` bytes from `start`, in this order. -/
def ByteOrder.read : ByteOrder → Bytes → (start count : Nat) → Nat
  | .little, b, start, count => b.little start count
  | .big, b, start, count => b.big start count

namespace Format

def bytesPerSample (f : Format) : Nat := f.encoding.size

def bytesPerFrame (f : Format) : Nat := f.bytesPerSample * f.channels

/-- Whole frames in a span of time. -/
def framesOfSpan (f : Format) (d : Span) : Nat := Word.cap (d.nanos * f.rate / Span.second)

/-- Bytes of so many frames. -/
def bytesOfFrames (f : Format) (frames : Nat) : Nat := Word.cap (frames * f.bytesPerFrame)

/-- Bytes of the whole frames in a span of time. -/
def bytesOfSpan (f : Format) (d : Span) : Nat := f.bytesOfFrames (f.framesOfSpan d)

/-- Whole frames in so many bytes; none when a frame has no bytes. -/
def framesOfBytes (f : Format) (bytes : Nat) : Nat := bytes / f.bytesPerFrame

/-- Playing time of the whole frames in so many bytes; nothing at a rate of zero. -/
def spanOfBytes (f : Format) (bytes : Nat) : Span :=
  if f.rate = 0 then .zero
  else ⟨Word.cap (f.framesOfBytes bytes * Span.second / f.rate)⟩

/-- The 16-bit step of a sample: clamped to -1 … 1, a half rounded away from zero. -/
def quantise (x : Float32) : Int16 :=
  let clamped := if x < -1.0 then -1.0 else if 1.0 < x then 1.0 else x
  (clamped * 32767.0).round.toInt16

/-- The bytes of one sample. Only 16-bit samples are clamped. -/
def encode (f : Format) (x : Float32) : List UInt8 :=
  match f.encoding with
  | .signed16 => f.order.write 2 (quantise x).toUInt16.toNat
  | .float32 => f.order.write 4 x.toBits.toNat

/-- The sample whose bytes start at a position. -/
def decodeAt (f : Format) (b : Bytes) (start : Nat) : Float32 :=
  match f.encoding with
  | .signed16 => (UInt16.ofNat (f.order.read b start 2)).toInt16.toFloat32 / 32767.0
  | .float32 => Float32.ofBits (UInt32.ofNat (f.order.read b start 4))

/-- The bytes of samples, one after the other. -/
def encodeAll (f : Format) (xs : Array Float32) : Bytes :=
  xs.flatMap fun x => (f.encode x).toArray

/-- The whole samples in a byte string. -/
def decodeAll (f : Format) (b : Bytes) : Array Float32 :=
  (Array.range (b.size / f.bytesPerSample)).map fun i => f.decodeAt b (i * f.bytesPerSample)

end Format

end Jukebox
