import Jukebox.Media.Flac.Checksum
import Jukebox.Media.Packet

/-!
Frames of a FLAC stream. A frame has a header that starts with fourteen sync bits and ends with a
checksum, then a subframe for every channel: one value for all samples, or every sample as it is.
-/

namespace Jukebox.Media.Flac

/-- What is told about a whole stream. -/
structure Info where
  rate : Nat
  channels : Nat
  bits : Nat
  total : Nat
  deriving DecidableEq

/-- Reads the 34 bytes that tell about a stream. -/
def info? (b : Bytes) (start : Nat) : Option Info :=
  let minBlock := b.big start 2
  let maxBlock := b.big (start + 2) 2
  let minBytes := b.big (start + 4) 3
  let maxBytes := b.big (start + 7) 3
  let packed := b.big (start + 10) 8
  let rate := packed / Nat.pow 2 44
  let bits := packed / Nat.pow 2 36 % 32 + 1
  if b.size < start + 34 ∨ minBlock < 16 ∨ maxBlock < minBlock then none
  else if 0 < minBytes ∧ 0 < maxBytes ∧ maxBytes < minBytes then none
  else if rate = 0 ∨ 655350 < rate ∨ bits < 4 then none
  else some ⟨rate, packed / Nat.pow 2 41 % 8 + 1, bits, packed % Nat.pow 2 36⟩

/-- The header of a frame. -/
structure Header where
  frames : Nat
  channels : Nat
  /-- Bits of a sample, when the frame tells. -/
  bits : Option Nat
  /-- Where the subframes start. -/
  body : Nat
  deriving DecidableEq

/-- Does a position hold the sync bits? -/
def isSync (b : Bytes) (place : Nat) : Bool :=
  b.getD place 0 == 0xFF && (b.getD (place + 1) 0 &&& 0xFC) == 0xF8

/-- How many bytes the number of a frame takes, from its first byte. -/
def numberLength? (first : Nat) : Option Nat :=
  if first < 0x80 then some 1
  else if first < 0xC0 then none
  else if first < 0xE0 then some 2
  else if first < 0xF0 then some 3
  else if first < 0xF8 then some 4
  else if first < 0xFC then some 5
  else if first < 0xFE then some 6
  else if first = 0xFE then some 7
  else none

/-- How many bytes follow the number for a block size that is not in the table. -/
def sizeBytes (code : Nat) : Nat := if code = 6 then 1 else if code = 7 then 2 else 0

/-- How many bytes follow it for a rate that is not in the table. -/
def rateBytes (code : Nat) : Nat :=
  if code = 12 then 1 else if code = 13 ∨ code = 14 then 2 else 0

/-- The samples in a block, from its code and the extra bytes. -/
def blockFrames? (code extra : Nat) : Option Nat :=
  if code = 0 then none
  else if code = 1 then some 192
  else if code ≤ 5 then some (576 * Nat.pow 2 (code - 2))
  else if code ≤ 7 then if extra = 0xFFFF then none else some (extra + 1)
  else some (256 * Nat.pow 2 (code - 8))

/-- The bits of a sample, from their code; zero stands for those of the stream. -/
def sampleBits? : Nat → Option (Option Nat)
  | 0 => some none
  | 1 => some (some 8)
  | 2 => some (some 12)
  | 4 => some (some 16)
  | 5 => some (some 20)
  | 6 => some (some 24)
  | _ => none

/-- Why there is no header at a position. -/
inductive HeaderFault where
  /-- The bytes end inside it. -/
  | cut
  | malformed
  deriving DecidableEq

/-- The number in so many bytes of a header, if they are there. -/
def headerBytes (b : Bytes) (start count : Nat) : Except HeaderFault Nat :=
  if b.size < start + count then .error .cut else .ok (b.big start count)

/-- What is said in a header, or that it cannot be. -/
def expected {α : Type} : Option α → Except HeaderFault α
  | some a => .ok a
  | none => .error .malformed

/-- Reads the header at a position that holds the sync bits. -/
def header (b : Bytes) (start : Nat) : Except HeaderFault Header := do
  let codes ← headerBytes b (start + 2) 2
  let sizeCode := codes / Nat.pow 2 12
  let rateCode := codes / Nat.pow 2 8 % 16
  let channelCode := codes / Nat.pow 2 4 % 16
  if codes % 2 = 1 then throw .malformed
  let first ← headerBytes b (start + 4) 1
  let length ← expected (numberLength? first)
  let sizeStart := start + 4 + length
  let rateStart := sizeStart + sizeBytes sizeCode
  let check := rateStart + rateBytes rateCode
  let extra ← headerBytes b sizeStart (sizeBytes sizeCode)
  let frames ← expected (blockFrames? sizeCode extra)
  let _ ← headerBytes b rateStart (rateBytes rateCode)
  let bits ← expected (sampleBits? (codes / 2 % 8))
  if rateCode = 15 ∨ 7 < channelCode then throw .malformed
  let sum ← headerBytes b check 1
  if checksum8 b start check ≠ sum then throw .malformed
  return ⟨frames, channelCode + 1, bits, check + 1⟩

/-- So many bits from a bit position, if the bytes up to `stop` have them. -/
def bits? (b : Bytes) (stop place count : Nat) : Option Nat :=
  if stop * 8 < place + count then none
  else
    let first := place / 8
    let last := (place + count + 7) / 8
    some (b.big first (last - first) / Nat.pow 2 (last * 8 - (place + count)) % Nat.pow 2 count)

/-- How many zero bits stand in front of the next one bit. -/
def zeros? (b : Bytes) (stop place : Nat) : Option Nat :=
  (List.range (stop * 8 - place)).find? fun i => bits? b stop (place + i) 1 = some 1

/-- A subframe of `frames` samples at a bit position: the samples and the position behind them. -/
def subframe? (b : Bytes) (stop bits frames place : Nat) : Option (Array Int × Nat) := do
  let head ← bits? b stop place 8
  let wasted ← if head % 2 = 0 then some 0 else (zeros? b stop (place + 8)).map (· + 1)
  let start := place + 8 + wasted
  let width := bits - wasted
  let sample (i : Nat) : Option Int :=
    (bits? b stop (start + i * width) width).map fun n => Bytes.signed width n * Nat.pow 2 wasted
  if width = 0 then none
  match head / 2 with
  | 0 => (sample 0).map fun x => (Array.replicate frames x, start + width)
  | 1 => ((Array.range frames).mapM sample).map fun xs => (xs, start + frames * width)
  | _ => none

/-- The subframes of so many channels. -/
def subframes? (b : Bytes) (stop bits frames : Nat) : (channels place : Nat) →
    Option (List (Array Int))
  | 0, _ => some []
  | channels + 1, place => do
    let (xs, place) ← subframe? b stop bits frames place
    let rest ← subframes? b stop bits frames channels place
    return xs :: rest

/-- Decodes the frame with a header; its bytes end at `stop`. -/
def decode (info : Info) (b : Bytes) (h : Header) (stop : Nat) : Decoded :=
  let bits := h.bits.getD info.bits
  let layout : Layout := ⟨info.rate, firstSpeakers info.channels⟩
  if h.channels ≠ info.channels then .malformed
  else match subframes? b stop bits h.frames h.channels (h.body * 8) with
    | none => .malformed
    | some planes =>
      .frame (.ofPlanes layout (planes.map fun p => p.map (Pcm.scale bits)).toArray)

/-- The first position from `start` on that holds the sync bits. -/
def sync? (b : Bytes) (start : Nat) : Option Nat :=
  ((List.range (b.size - start)).find? fun i => isSync b (start + i)).map (start + ·)

end Jukebox.Media.Flac
