import Jukebox.Media.Codec
import Jukebox.Span

/-!
The streams of a container, and the choice of the one that is played: the default stream if it can
be decoded, or else the first of those that can with the most channels.
-/

namespace Jukebox.Media

/-- The rate of a signal and its speakers, as a set of bits. -/
structure Layout where
  rate : Nat
  mask : Nat
  deriving DecidableEq

/-- How many speakers a set of bits names. -/
def speakers (mask : Nat) : Nat := (List.range 32).countP mask.testBit

/-- The lowest speakers, so many of them. -/
def firstSpeakers (count : Nat) : Nat := Nat.pow 2 count - 1

/-- How many channels a signal has. -/
def Layout.channels (l : Layout) : Nat := speakers l.mask

/-- What a container tells about one of its streams. -/
structure Stream where
  id : Nat
  codec : Codec
  rate : Option Nat
  channels : Option Nat := none
  bits : Option Nat := none
  frames : Option Nat := none
  /-- Whatever else a decoder has to be told is there. -/
  complete : Bool := true
  deriving DecidableEq

namespace Stream

/-- Can a decoder be asked for: is the codec known, and is there a rate? -/
def isDecodable (s : Stream) : Bool :=
  s.codec ≠ .unknown && s.rate.any (0 < ·)

/-- How many channels count for the choice. -/
def width (s : Stream) : Nat := s.channels.getD 0

/-- The playing time: frames over rate, if both are known and a 64-bit count of nanoseconds holds
it. -/
def duration (s : Stream) : Option Span :=
  match s.frames, s.rate with
  | some frames, some rate =>
    if rate = 0 then none
    else
      let nanos := frames * Span.second / rate
      if nanos ≤ Word.top then some ⟨nanos⟩ else none
  | _, _ => none

end Stream

/-- The first of the widest streams. -/
def widest (streams : List Stream) : Option Stream :=
  streams.foldl (fun best s =>
    match best with
    | some b => if s.width ≤ b.width then some b else some s
    | none => some s) none

/-- The stream that is played. -/
def chooseStream (streams : List Stream) (default : Option Stream) : Option Stream :=
  match default.filter Stream.isDecodable with
  | some s => some s
  | none => widest (streams.filter Stream.isDecodable)

end Jukebox.Media
