import Jukebox.Media.Probe

/-!
Decoding the chosen stream of a file. Packets are taken in order; those of other streams and those
without audio are passed over; every frame goes to a receiver, which may stop the decoding. A
session can be told to stop, and it can be run again, from where it stopped.
-/

namespace Jukebox.Media

/-- An opened file and the stream of it that is decoded. -/
structure Session where
  stream : Stream
  packets : List Packet
  ending : Ending
  /-- The session has been told to stop. -/
  cancelled : Bool := false

/-- How a run ends without a fault. -/
inductive Outcome where | endOfStream | cancelled
  deriving DecidableEq

/-- What a receiver says to a frame. -/
inductive Verdict where
  /-- Go on. -/
  | more
  /-- Stop: the frame was the last one wanted. -/
  | enough
  /-- Go on, but the session has been told to stop meanwhile. -/
  | cancel
  | fault (f : Fault)

namespace Session

/-- The session on the best stream of a container. -/
def ofMedium (m : Medium) : Except Fault Session :=
  match chooseStream m.streams (m.default.bind fun i => m.streams[i]?) with
  | none => .error .noAudioStream
  | some stream =>
    if stream.hasDecoder then .ok { stream, packets := m.packets, ending := m.ending }
    else .error .decoderUnavailable

/-- Opens a file. -/
def create (b : Bytes) : Except Fault Session :=
  match Medium.open? b with
  | none => .error .unknownContainer
  | some m => ofMedium m

variable {σ : Type}

/-- How a run ends when no packet is left. -/
def finish (s : Session) : Except Fault Outcome :=
  match s.ending with
  | .endOfInput | .reset => .ok .endOfStream
  | .malformed => .error .badPacket

/-- Goes through packets. `reading` is what happens in the world while a packet is read or found to
be missing, `receive` what the receiver does with a frame; both are told the count of packets taken
before. The answer is what is left of the session, the world, and how the run ended. -/
def go (reading : Nat → σ → σ) (receive : Nat → σ → Frame → σ × Verdict) (s : Session) :
    List Packet → (taken : Nat) → σ → Session × σ × Except Fault Outcome
  | packets, taken, w =>
    if s.cancelled then ({ s with packets }, w, .ok .cancelled)
    else match packets with
      | [] => ({ s with packets := [] }, reading taken w, s.finish)
      | p :: rest =>
        let w := reading taken w
        if p.stream ≠ s.stream.id then go reading receive s rest (taken + 1) w
        else match p.decoded with
          | .endOfInput => ({ s with packets := rest }, w, .ok .endOfStream)
          | .malformed => ({ s with packets := rest }, w, .error .badPacket)
          | .frame f =>
            if f.frames = 0 then go reading receive s rest (taken + 1) w
            else match receive taken w f with
              | (w, .more) => go reading receive s rest (taken + 1) w
              | (w, .cancel) =>
                go reading receive { s with cancelled := true } rest (taken + 1) w
              | (w, .enough) => ({ s with packets := rest, cancelled := true }, w, .ok .cancelled)
              | (w, .fault e) => ({ s with packets := rest }, w, .error e)

/-- Decodes until the input ends, the session is told to stop, or the receiver has enough. -/
def run (reading : Nat → σ → σ) (receive : Nat → σ → Frame → σ × Verdict) (s : Session) (w : σ) :
    Session × σ × Except Fault Outcome :=
  s.go reading receive s.packets 0 w

end Session

end Jukebox.Media
