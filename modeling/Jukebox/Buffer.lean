import Jukebox.Fault
import Jukebox.Format

/-!
The audio of one track between its producer, which decodes, and its consumer, the sound card. A
buffer is sized once, to the whole track, so that the consumer can go anywhere that has been
decoded. The producer appends; what does not fit is dropped. The consumer reads whole frames from a
cursor, up to what has been written and never beyond `limit`, which starts at the capacity and is
lowered once, to what was written, when the input ends early.

Operations are taken as whole steps. `wait?` is what a consumer that waits for the first data gets:
no answer as long as it would block.
-/

namespace Jukebox

/-- The audio of one track. -/
structure Buffer where
  format : Format
  /-- The size in bytes, once it is known. -/
  capacity? : Option Nat := none
  /-- All bytes written so far. -/
  data : Bytes := #[]
  /-- Where the next read starts. -/
  readPos : Nat := 0
  /-- Where reading ends for good. -/
  limit : Nat := 0
  /-- The producer reached the end of its input. -/
  ended : Bool := false
  aborted : Bool := false
  failed : Bool := false
  /-- Where to start, asked for before the size was known. -/
  pendingSeek : Nat := 0
  /-- A first byte has been announced to those who wait. -/
  dataReady : Bool := false
  /-- Those who wait need not expect data any more. -/
  released : Bool := false

namespace Buffer

/-- A buffer without a size. -/
def empty (f : Format) : Buffer := { format := f }

def capacity (b : Buffer) : Nat := b.capacity?.getD 0

def isSized (b : Buffer) : Bool := b.capacity?.isSome

/-- How many bytes have been written. -/
def writePos (b : Buffer) : Nat := b.data.size

/-- Sizes the buffer for a span of time. A start asked for before is clamped into it. -/
def size (b : Buffer) (d : Span) : Except Fault Buffer :=
  match b.capacity? with
  | some _ => .error .durationAlreadySet
  | none =>
    let capacity := b.format.bytesOfSpan d
    let start := min b.pendingSeek capacity
    .ok { b with capacity? := some capacity, limit := capacity, readPos := start,
                 pendingSeek := start }

/-- Appends decoded bytes, as many as fit. The answer is false only when the producer is to stop. -/
def write (b : Buffer) (bytes : Bytes) : Buffer × Bool :=
  if b.aborted then (b, false)
  else match b.capacity? with
  | none => (b, true)
  | some capacity =>
    let count := min bytes.size (capacity - b.writePos)
    if count = 0 then (b, true)
    else ({ b with data := b.data ++ bytes.extract 0 count, dataReady := true }, true)

/-- The producer has nothing more. Only the first call has an effect. -/
def endInput (b : Buffer) : Buffer :=
  if b.ended then b
  else { b with ended := true, limit := min b.limit b.writePos,
                readPos := min b.readPos b.writePos, released := true }

/-- How many bytes a read into `room` bytes takes now: whole frames only. -/
def readable (b : Buffer) (room : Nat) : Nat :=
  if b.isSized ∧ 0 < b.format.bytesPerFrame then
    let whole := room - room % b.format.bytesPerFrame
    let count := min (min b.limit b.writePos - b.readPos) whole
    count - count % b.format.bytesPerFrame
  else 0

/-- Reads whole frames into `room` bytes, without waiting for any. -/
def read (b : Buffer) (room : Nat) : Buffer × Bytes :=
  let count := b.readable room
  ({ b with readPos := b.readPos + count }, b.data.slice b.readPos count)

/-- Goes to a frame; beyond the end, to the end. -/
def seekFrame (b : Buffer) (frame : Nat) : Buffer :=
  let offset := b.format.bytesOfFrames frame
  if b.isSized then { b with readPos := min offset b.limit }
  else { b with pendingSeek := offset }

/-- Goes to a moment of the track. -/
def seek (b : Buffer) (d : Span) : Buffer := b.seekFrame (b.format.framesOfSpan d)

/-- Asks the producer to stop and lets everybody go who waits. -/
def abort (b : Buffer) : Buffer := { b with aborted := true, released := true }

/-- Gives up because of an error. -/
def fail (b : Buffer) : Buffer := { b with failed := true }.abort

/-- What a consumer that waits for the first data gets: is there any? -/
def wait? (b : Buffer) : Option Bool :=
  if b.dataReady || b.released then
    some (!b.failed && !b.aborted && decide (0 < b.writePos))
  else none

/-- The moment of the track that is read next. -/
def position (b : Buffer) : Span := b.format.spanOfBytes b.readPos

/-- The playing time of all that can be read. -/
def duration (b : Buffer) : Span := b.format.spanOfBytes b.limit

/-- Has the producer filled it? -/
def isFull (b : Buffer) : Bool := b.isSized && decide (b.capacity ≤ b.writePos)

/-- Is there nothing left to read, now or later? -/
def isFinished (b : Buffer) : Bool :=
  b.aborted ||
    (b.isSized && (b.ended || decide (b.limit ≤ b.writePos)) && decide (b.limit ≤ b.readPos))

/-- One operation on a buffer. -/
inductive Op where
  | size (d : Span)
  | write (bytes : Bytes)
  | read (room : Nat)
  | seekFrame (frame : Nat)
  | seek (d : Span)
  | endInput
  | abort
  | fail

/-- The buffer after an operation; sizing it a second time changes nothing. -/
def apply (b : Buffer) : Op → Buffer
  | .size d => (b.size d).toOption.getD b
  | .write bytes => (b.write bytes).1
  | .read room => (b.read room).1
  | .seekFrame frame => b.seekFrame frame
  | .seek d => b.seek d
  | .endInput => b.endInput
  | .abort => b.abort
  | .fail => b.fail

/-- The buffer after a run of operations. -/
def run (b : Buffer) (ops : List Op) : Buffer := ops.foldl apply b

end Buffer

end Jukebox
