import Jukebox.Render
import Jukebox.Transport

/-!
What a player tells about itself: fields that its parts set as they go, and a snapshot of them in
milliseconds for whoever asks.
-/

namespace Jukebox

/-- What is known of a player. -/
structure Status where
  state : Transport.State := .stopped
  nowPlaying : Option String := none
  device : Option String := none
  format : Option Format := none
  bufferFrames : Option Nat := none
  volume : Float32 := 1.0
  tempo : Float32 := 1.0
  chain : Option Chain := none
  counters : Counters := {}

/-- What is told of a player. -/
structure Snapshot where
  state : Transport.State
  nowPlaying : Option String
  device : Option String
  rate : Option Nat
  channels : Option Nat
  encoding : Option Encoding
  bufferFrames : Option Nat
  /-- How long the card has been fed in this session. -/
  elapsed : Option Nat
  /-- Where in the track it is. -/
  position : Option Nat
  duration : Option Nat
  volume : Float32
  tempo : Float32
  fadeProgress : Option Float32
  underrunFrames : Nat
  underrunEvents : Nat

namespace Status

/-- Milliseconds the card has been fed; unknown without a running chain. -/
def elapsed (s : Status) : Option Nat :=
  match s.format, s.chain with
  | some f, some _ =>
    if 0 < f.rate then some (Word.cap (s.counters.playedFrames * 1000) / f.rate) else none
  | _, _ => none

def snapshot (s : Status) : Snapshot where
  state := s.state
  nowPlaying := s.nowPlaying
  device := s.device
  rate := s.format.map (·.rate)
  channels := s.format.map (·.channels)
  encoding := s.format.map (·.encoding)
  bufferFrames := s.bufferFrames
  elapsed := s.elapsed
  position := s.chain.map (·.buffer.position.millis)
  duration := s.chain.map (·.buffer.duration.millis)
  volume := s.volume
  tempo := s.tempo
  fadeProgress := s.chain.bind (·.fadeProgress)
  underrunFrames := s.counters.underrunFrames
  underrunEvents := s.counters.underrunEvents

/-- Forgets the track. -/
def clear (s : Status) : Status := { s with nowPlaying := none, chain := none }

end Status

end Jukebox
