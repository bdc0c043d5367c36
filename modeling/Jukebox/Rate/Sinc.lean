import Jukebox.Rate.Stage

/-!
A filter that changes the rate by windowed sinc interpolation. The impulse response of 128 points is
tabulated at 256 positions between two samples; an output sample is the cubic through four
neighbouring table positions. The time of the next output sample is carried from chunk to chunk.
-/

namespace Jukebox.Rate.Sinc

/-- Points of the impulse response. -/
def points : Nat := 128

/-- Table positions between two samples. -/
def positions : Nat := 256

/-- The ratio of a circle to its diameter. -/
def pi : Float := 3.14159265358979323846

/-- The cut-off of the filter, as a part of half the rate. -/
def cutoff (ratio : Float) : Float :=
  let n := points.toFloat
  let c := 1.0 / (13.745202940783823 / n + 121.73532586374934 / (n * n) +
    5964.163279612051 / (n * n * n) + 1.0)
  if ratio < 1.0 then c * ratio else c

/-- The window: the square of a sum of four cosines. -/
def window (x n : Float) : Float :=
  let w := 0.35875 - 0.48829 * (2.0 * pi * x / n).cos + 0.14128 * (4.0 * pi * x / n).cos -
    0.01168 * (6.0 * pi * x / n).cos
  w * w

/-- The sinc function. -/
def sinc (z : Float) : Float := if z == 0.0 then 1.0 else (pi * z).sin / (pi * z)

/-- The impulse response at all table positions, `positions` of them for every point. -/
def response (ratio : Float) : FloatArray :=
  let count := points * positions
  let n := count.toFloat
  let c := cutoff ratio
  (List.range count).foldl (fun out i =>
    let x := i.toFloat
    out.push (window x n * sinc ((x - n / 2.0) * c / positions.toFloat))) (.emptyWithCapacity count)

/-- The table: the row of position `k` holds the points of the response that lie there, scaled so
that a steady signal keeps its level. -/
def table (ratio : Float) : FloatArray :=
  let y := response ratio
  let sum := (List.range y.size).foldl (fun s i => s + y.get! i) 0.0 / positions.toFloat
  (List.range (points * positions)).foldl (fun out i =>
    let position := i / points
    let point := i % points
    out.push (y.get! (positions * point + (positions - 1 - position)) / sum))
    (.emptyWithCapacity y.size)

/-- The filter between two chunks. -/
structure State where
  ratio : Float
  chunk : Nat
  channels : Nat
  table : FloatArray
  /-- Twice the points of the response and then one chunk, for every channel. -/
  history : Array FloatArray
  /-- The time of the last output sample, counted in samples of the next chunk. -/
  last : Float := -127.0

/-- The first state of a filter. -/
def State.initial (ratio : Float) (channels chunk : Nat) : State where
  ratio := ratio
  chunk := chunk
  channels := channels
  table := Sinc.table ratio
  history := Array.replicate channels (FloatArray.mk (Array.replicate (2 * points + chunk) 0.0))

/-- The sum of products of `count` samples from `start` and a row of the table. -/
def dot (samples : FloatArray) (start : Nat) (table : FloatArray) (row : Nat) :
    (count : Nat) → (sum : Float) → Float
  | 0, sum => sum
  | count + 1, sum =>
    dot samples start table row count
      (sum + samples.get! (start + count) * table.get! (row + count))

/-- The response to the samples around sample `i`, `k` table positions behind it. Positions before
the first and behind the last belong to the neighbouring samples. -/
def respond (table samples : FloatArray) (i k : Int) : Float :=
  let (i, k) := if k < 0 then (i - 1, k + positions) else
    if (positions : Int) ≤ k then (i + 1, k - positions) else (i, k)
  dot samples (i + 2 * points).toNat table (k.toNat * points) points 0.0

/-- The cubic through four equidistant values, between the second and the third. -/
def cubic (x y0 y1 y2 y3 : Float) : Float :=
  let a1 := -(y0 / 3.0) - y1 / 2.0 + y2 - y3 / 6.0
  let a2 := (y0 + y2) / 2.0 - y1
  let a3 := (y1 - y2) / 2.0 + (y3 - y0) / 6.0
  y1 + a1 * x + a2 * x * x + a3 * x * x * x

/-- The whole part of a number, as an integer. -/
def whole (x : Float) : Int := x.floor.toInt64.toInt

/-- The output sample of a channel at a time. -/
def sampleAt (table samples : FloatArray) (time : Float) : Float32 :=
  let i := whole time
  let steps := positions.toFloat
  let k := whole ((time - time.floor) * steps)
  let x := time * steps - (time * steps).floor
  (cubic x (respond table samples i (k - 1)) (respond table samples i k)
    (respond table samples i (k + 1)) (respond table samples i (k + 2))).toFloat32

/-- The samples of one channel in a chunk, filled up with silence. -/
def plane (chunk channels channel : Nat) (input : Array Float32) : List Float :=
  (List.range chunk).map fun i => (input.getD (i * channels + channel) 0.0).toFloat

/-- A history with a new chunk: the last samples of the one before move to the front. -/
def advance (chunk : Nat) (history : FloatArray) (samples : List Float) : FloatArray :=
  samples.foldl FloatArray.push (FloatArray.mk (history.data.extract chunk history.size))

/-- The output frames of a chunk, each a step later than the one before, and the time of the last.
-/
def frames (table : FloatArray) (history : Array FloatArray) (step : Float) :
    (count : Nat) → (time : Float) → Array Float32 → Array Float32 × Float
  | 0, time, out => (out, time)
  | count + 1, time, out =>
    let time := time + step
    frames table history step count time
      (history.foldl (fun out samples => out.push (sampleAt table samples time)) out)

/-- Takes a chunk, filled up with silence if it is short. -/
def run (s : State) (input : Array Float32) : State × Array Float32 :=
  let history := s.history.mapIdx fun channel h =>
    advance s.chunk h (plane s.chunk s.channels channel input)
  let count := ((s.chunk.toFloat - 129.0 - s.last) * (0.5 * s.ratio + 0.5 * s.ratio)).floor
  let (out, time) := frames s.table history (1.0 / s.ratio) count.toUInt64.toNat s.last #[]
  ({ s with history, last := time - s.chunk.toFloat }, out)

/-- The most frames a chunk can yield: a tenth more than the ratio says, and ten. -/
def bound (ratio : Float) (chunk : Nat) : Nat :=
  (chunk.toFloat * ratio * 1.1 + 10.0).toUInt64.toNat

/-- The filter for a ratio of rates. -/
def filter (ratio : Float) (chunk : Nat) : Filter State := ⟨bound ratio chunk, run⟩

end Jukebox.Rate.Sinc
