/-!
Changing the rate of a signal by a filter that takes whole chunks of input. Input that does not fill
a chunk waits for more; at the end the filter takes it as a shorter last chunk. The filter writes
into an output buffer that only grows: every chunk goes behind what the chunks before it produced.
-/

namespace Jukebox.Rate

/-- Puts items into an array from a position on; what would lie beyond its end is lost. -/
def overwrite {α : Type} (a : Array α) (start : Nat) (xs : Array α) : Array α :=
  xs.zipIdx.foldl (fun a (x, i) => a.setIfInBounds (start + i) x) a

/-- An array of at least so many items, filled up at its end. -/
def grown {α : Type} (a : Array α) (count : Nat) (filler : α) : Array α :=
  a ++ Array.replicate (count - a.size) filler

/-- A filter with a state. It takes a chunk of interleaved samples, or a shorter one at the end, and
yields at most `bound` frames. -/
structure Filter (σ : Type) where
  bound : Nat
  run : σ → Array Float32 → σ × Array Float32

/-- A filter at work on interleaved samples. -/
structure Stage (σ : Type) where
  filter : Filter σ
  state : σ
  channels : Nat
  /-- Frames in a chunk. -/
  chunk : Nat
  /-- Samples that wait for more. -/
  pending : Array Float32 := #[]
  /-- The output buffer. -/
  out : Array Float32 := #[]

namespace Stage

variable {σ : Type}

/-- How many frames wait for more. -/
def pendingFrames (s : Stage σ) : Nat := s.pending.size / s.channels

/-- The most frames that so many more frames of input can yield. -/
def maxOutput (s : Stage σ) (frames : Nat) : Nat :=
  (s.pendingFrames + frames) / s.chunk * s.filter.bound

/-- The most frames that are left to yield at the end. -/
def maxFlush (s : Stage σ) : Nat := if s.pending.isEmpty then 0 else s.filter.bound

/-- Samples in a chunk. -/
def chunkSamples (s : Stage σ) : Nat := s.chunk * s.channels

/-- Makes room for so many frames of output. -/
def reserve (s : Stage σ) (frames : Nat) : Stage σ :=
  { s with out := grown s.out (frames * s.channels) 0.0 }

/-- Runs the filter on the pending samples from `start` on, `count` of them, and puts the result
into the output buffer behind the `produced` samples that are there. -/
def call (s : Stage σ) (start count produced : Nat) : Stage σ × Nat :=
  let (state, samples) := s.filter.run s.state (s.pending.extract start (start + count))
  ({ s with state, out := overwrite s.out produced samples }, produced + samples.size)

/-- Runs the filter on so many whole chunks, one after the other from the `index`-th on. -/
def chunks (index produced : Nat) (s : Stage σ) : (count : Nat) → Stage σ × Nat
  | 0 => (s, produced)
  | count + 1 =>
    let (s, produced) := s.call (index * s.chunkSamples) s.chunkSamples produced
    chunks (index + 1) produced s count

/-- Takes more input and yields what all complete chunks give. -/
def process (s : Stage σ) (input : Array Float32) : Stage σ × Array Float32 :=
  let s := { s with pending := s.pending ++ input }
  let count := s.pendingFrames / s.chunk
  if count = 0 then (s, #[])
  else
    let (s, produced) := chunks 0 0 (s.reserve (count * s.filter.bound)) count
    ({ s with pending := s.pending.extract (count * s.chunkSamples) s.pending.size },
      s.out.extract 0 produced)

/-- Yields what is left at the end. -/
def flush (s : Stage σ) : Stage σ × Array Float32 :=
  let tail := s.pendingFrames
  if tail = 0 then (s, #[])
  else
    let (s, produced) := (s.reserve s.filter.bound).call 0 (tail * s.channels) 0
    ({ s with pending := #[] }, s.out.extract 0 produced)

end Stage

end Jukebox.Rate
