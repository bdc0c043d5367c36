import Jukebox.Buffer
import Jukebox.Media.Session
import Jukebox.Rate.Resampler

/-!
Decoding a whole track into a buffer. The buffer is sized to the playing time of the track, or to a
hint if the container does not tell, bounded by a limit; every frame is converted and written, until
the input ends or the buffer is full; then the rest of the converter is written and the end of the
input declared. Whoever reads the buffer may abort it at any moment in between: `aborts` says at
which moments that has happened. A fault aborts the buffer too, with the mark of an error.
-/

namespace Jukebox.Decode

/-- How a track is decoded. -/
structure Options where
  /-- Frames in a chunk, when the rate has to be changed. -/
  chunk : Nat := 1024
  /-- The playing time, if the container does not tell. -/
  hint : Option Span := none
  /-- The longest part that is wanted. -/
  limit : Option Span := none

/-- The moments between two steps of the work. -/
inductive Moment where
  | opening
  | sizing
  | reading (packet : Nat)
  | writing (packet : Nat)
  | checking (packet : Nat)
  | finishing
  | flushing
  | ending
  | done
  deriving DecidableEq

/-- The buffer and the converter of a track at work. -/
structure Work where
  buffer : Buffer
  converter : Option (Rate.Resampler Rate.Sinc.State) := none

namespace Work

/-- What the reader of the buffer has done by a moment. -/
def meanwhile (aborts : Moment → Bool) (m : Moment) (w : Work) : Work :=
  if aborts m then { w with buffer := w.buffer.abort } else w

/-- Appends a result to the buffer. -/
def write (w : Work) (c : Rate.Converted) : Work × Bool :=
  let (buffer, goOn) := w.buffer.write c.bytes
  ({ w with buffer }, goOn)

/-- Writes what is left in the converter. -/
def flush (w : Work) : Work :=
  match w.converter with
  | none => w
  | some r =>
    let (r, c) := r.flush
    ({ w with converter := some r }.write c).1

/-- Lets go of a converter that is for another layout, after writing what is left in it. -/
def adapt (w : Work) (layout : Media.Layout) : Work :=
  match w.converter with
  | some r => if r.source = layout then w else { w.flush with converter := none }
  | none => w

/-- The converter for a layout. -/
def converterFor (w : Work) (o : Options) (layout : Media.Layout) :
    Except Fault (Rate.Resampler Rate.Sinc.State) :=
  match w.converter with
  | some r => .ok r
  | none => Rate.Resampler.create layout w.buffer.format o.chunk

/-- Converts a frame and writes it. The work goes on unless the buffer is aborted or full. -/
def receive (aborts : Moment → Bool) (o : Options) (packet : Nat) (w : Work) (f : Media.Frame) :
    Work × Media.Verdict :=
  let w := w.adapt f.layout
  match w.converterFor o f.layout with
  | .error e => (w, .fault e)
  | .ok r =>
    let w := { w with converter := none }
    match r.convert f with
    | (r, .error e) => ({ w with converter := some r }, .fault e)
    | (r, .ok c) =>
      let w := ({ w with converter := some r }).meanwhile aborts (.writing packet)
      let (w, goOn) := w.write c
      let w := w.meanwhile aborts (.checking packet)
      (w, if goOn && !w.buffer.isFull then .more else .enough)

/-- Ends the work after the last packet. -/
def finish (aborts : Moment → Bool) (outcome : Media.Outcome) (w : Work) : Work :=
  let w := w.meanwhile aborts .finishing
  if w.buffer.aborted then w
  else
    let w := match outcome with
      | .endOfStream => (w.meanwhile aborts .flushing).flush
      | .cancelled => w
    let w := w.meanwhile aborts .ending
    { w with buffer := w.buffer.endInput }

end Work

/-- The playing time a buffer is sized to. -/
def playingTime (o : Options) (s : Media.Stream) : Option Span :=
  (s.duration <|> o.hint).map fun total =>
    match o.limit with
    | some limit => min total limit
    | none => total

/-- Decodes an opened file into a buffer: the buffer, and the fault if there was one. -/
def fill (aborts : Moment → Bool) (o : Options) (s : Media.Session) (b : Buffer) :
    Buffer × Option Fault :=
  match playingTime o s.stream with
  | none => (b, some .unknownDuration)
  | some time =>
    let w := ({ buffer := b } : Work).meanwhile aborts .sizing
    match w.buffer.size time with
    | .error e => (w.buffer, some e)
    | .ok b =>
      let (_, w, outcome) := s.run (fun k => Work.meanwhile aborts (.reading k))
        (Work.receive aborts o) { w with buffer := b }
      match outcome with
      | .error e => (w.buffer, some e)
      | .ok outcome => ((w.finish aborts outcome).buffer, none)

/-- The buffer after a fault, or as it is. -/
def settle : Buffer × Option Fault → Buffer
  | (b, none) => b
  | (b, some _) => b.fail

/-- Decodes what may be an opened file into a new buffer, from start to end. -/
def intoBuffer (aborts : Moment → Bool) (o : Options) (opened : Except Fault Media.Session)
    (format : Format) : Buffer :=
  let w := ({ buffer := .empty format } : Work).meanwhile aborts .opening
  let b := match opened with
    | .error _ => w.buffer.fail
    | .ok s => settle (fill aborts o s w.buffer)
  (({ buffer := b } : Work).meanwhile aborts .done).buffer

/-- Decodes a file that nobody aborts. -/
def file (o : Options) (data : Bytes) (format : Format) : Buffer :=
  intoBuffer (fun _ => false) o (Media.Session.create data) format

/-- The moment at which a worker wants more than the first `delivered` bytes of a file; if it never
does, the moment after its end. -/
def stall (m : Media.Medium) (delivered : Nat) : Moment :=
  if delivered < m.headerNeeds then .opening
  else match m.packets.findIdx? fun p => delivered < p.needs with
    | some k => .reading k
    | none => if delivered < m.endNeeds then .reading m.packets.length else .done

/-- Decodes a file of which only the first bytes are there until its reader aborts the buffer: when
the worker wants more, or else at its end. -/
def interrupted (o : Options) (data : Bytes) (delivered : Nat) (format : Format) : Buffer :=
  let moment := ((Media.Medium.open? data).map fun m => stall m delivered).getD .opening
  intoBuffer (fun m => m = moment ∨ m = .done) o (Media.Session.create data) format

end Jukebox.Decode
