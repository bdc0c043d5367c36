import Jukebox.Media.Flac.Frame

/-!
FLAC files: blocks that tell about the stream, then frames. A frame reaches from one header to the
start of another one, or to the end of the file, such that its checksum comes out right; up to three
headers inside it are taken for chance. Where no checksum comes out right the frame is passed over.
-/

namespace Jukebox.Media.Flac

/-- Goes through the blocks in front of the frames: what they tell, and where they end. -/
def blocks (b : Bytes) : (fuel start : Nat) → Option Info → Option (Option Info × Nat)
  | 0, _, _ => none
  | fuel + 1, start, info =>
    let kind := b.big start 1
    let length := b.big (start + 1) 3
    let next := start + 4 + length
    if b.size < start + 4 ∨ b.size < next then none
    else
      let found := if kind % 128 = 0 then info? b (start + 4) else info
      if kind % 128 = 0 ∧ (length ≠ 34 ∨ found.isNone) then none
      else if 128 ≤ kind then some (found, next)
      else blocks b fuel next found

/-- All headers from a position on, with where they start. -/
def headers (b : Bytes) (start : Nat) : List (Nat × Header) :=
  (List.range (b.size - start)).filterMap fun i =>
    if isSync b (start + i) then (header b (start + i)).toOption.map (start + i, ·) else none

/-- Is the checksum at the end of these bytes right? -/
def isWhole (b : Bytes) (start stop : Nat) : Bool :=
  start + 2 ≤ stop && checksum16 b start (stop - 2) == b.big (stop - 2) 2

/-- Where the frame that starts here ends, if its checksum comes out right somewhere. -/
def frameEnd? (b : Bytes) (start : Nat) (later : List (Nat × Header)) : Option Nat :=
  ((later.map (·.1) ++ [b.size]).take 4).find? fun stop => isWhole b start stop

/-- The packets of the frames with these headers, none of which starts before `free`. -/
def packetsFrom (info : Info) (b : Bytes) (free : Nat) : List (Nat × Header) → List Packet
  | [] => []
  | (start, h) :: later =>
    if start < free then packetsFrom info b free later
    else match frameEnd? b start later with
      | none => packetsFrom info b free later
      | some stop => ⟨0, decode info b h stop, b.size + 1⟩ :: packetsFrom info b stop later

/-- Opens the stream that starts at a position. -/
def open? (b : Bytes) (start : Nat) : Option Medium :=
  match blocks b b.size (start + 4) none with
  | some (some info, next) =>
    let stream : Stream :=
      { id := 0, codec := .flac, rate := some info.rate, channels := some info.channels
        bits := some info.bits, frames := if info.total = 0 then none else some info.total }
    some { streams := [stream], default := some 0
           packets := packetsFrom info b next (headers b next)
           ending := .endOfInput, headerNeeds := next, endNeeds := b.size + 1 }
  | _ => none

/-- Decodes a packet that holds one frame, wherever in it the frame starts. -/
def decodePacket (info : Info) (b : Bytes) : Decoded :=
  match sync? b 0 with
  | none => .endOfInput
  | some start =>
    match header b start with
    | .error .cut => .endOfInput
    | .error .malformed => .malformed
    | .ok h => decode info b h b.size

end Jukebox.Media.Flac
