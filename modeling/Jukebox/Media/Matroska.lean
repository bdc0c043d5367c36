import Jukebox.Media.Flac
import Jukebox.Number.Binary

/-!
Matroska files: nested elements, each with an identifier and a size that tell their own lengths. A
segment holds the playing time, the description of its tracks and clusters of blocks; a block is one
packet of one track. Decoders exist for what is told by a description alone; of these, FLAC is
the one that packets are decoded for.
-/

namespace Jukebox.Media.Matroska

/-- An element: its identifier, and where its body starts and stops. -/
structure Element where
  id : Nat
  start : Nat
  stop : Nat

/-- How many bytes a number with its own length takes, from its first byte. -/
def numberLength (first : Nat) : Nat := if first = 0 then 9 else 8 - first.log2

/-- A number with its own length at a position: as it stands, without the mark of its length, and
the position behind it. -/
def number? (b : Bytes) (stop start : Nat) : Option (Nat × Nat × Nat) :=
  let length := numberLength (b.big start 1)
  if stop ≤ start ∨ 8 < length ∨ stop < start + length then none
  else
    let n := b.big start length
    some (n, n % Nat.pow 2 (7 * length), start + length)

/-- The element at a position; one that reaches too far is cut off. -/
def element? (b : Bytes) (stop start : Nat) : Option Element := do
  let (id, _, next) ← number? b stop start
  let (_, size, body) ← number? b stop next
  return ⟨id, body, min (body + size) stop⟩

/-- The elements between two positions. -/
def elements (b : Bytes) (stop : Nat) : (fuel start : Nat) → List Element
  | 0, _ => []
  | fuel + 1, start =>
    match element? b stop start with
    | none => []
    | some e => e :: elements b stop fuel e.stop

/-- The elements inside another one. -/
def Element.children (b : Bytes) (e : Element) : List Element :=
  elements b e.stop (e.stop - e.start) e.start

/-- The first element inside another one with an identifier. -/
def Element.child? (b : Bytes) (e : Element) (id : Nat) : Option Element :=
  (e.children b).find? (·.id = id)

/-- The whole number in an element. -/
def Element.natural (b : Bytes) (e : Element) : Nat := b.big e.start (e.stop - e.start)

/-- The whole part of the floating-point number in an element, of four bytes or of eight. -/
def Element.whole (b : Bytes) (e : Element) : Nat :=
  let f : Number.Binary := if e.stop - e.start = 4 then .single else .double
  match f.value (e.natural b) with
  | .finite false units scale => units * Nat.pow 2 scale / Nat.pow 2 f.depth
  | _ => 0

/-- The text in an element. -/
def Element.text (b : Bytes) (e : Element) : List Char :=
  (b.extract e.start e.stop).toList.map fun x => Char.ofNat x.toNat

/-- A track of a segment. -/
structure Track where
  stream : Stream
  /-- What its frames have in common, for FLAC. -/
  info : Option Flac.Info

/-- The codec of a name; for uncompressed samples it depends on their bits. -/
def codec (name : String) (bits : Option Nat) : Codec :=
  match name, bits with
  | "A_FLAC", _ => .flac
  | "A_MPEG/L1", _ => .mp1
  | "A_MPEG/L2", _ => .mp2
  | "A_MPEG/L3", _ => .mp3
  | "A_AAC", _ => .aac
  | "A_OPUS", _ => .opus
  | "A_VORBIS", _ => .vorbis
  | "A_ALAC", _ => .alac
  | "A_PCM/INT/LIT", some 16 => .pcmS16le
  | "A_PCM/INT/LIT", some 24 => .pcmS24le
  | "A_PCM/INT/LIT", some 32 => .pcmS32le
  | "A_PCM/INT/BIG", some 16 => .pcmS16be
  | "A_PCM/INT/BIG", some 24 => .pcmS24be
  | "A_PCM/INT/BIG", some 32 => .pcmS32be
  | "A_PCM/FLOAT/IEEE", some 32 => .pcmF32le
  | "A_PCM/FLOAT/IEEE", some 64 => .pcmF64le
  | _, _ => .unknown

/-- What a private part tells about a FLAC stream: a mark, then a block of 34 bytes behind its own
header. -/
def flacInfo? (b : Bytes) (e : Element) : Option Flac.Info :=
  if e.stop < e.start + 42 then none else Flac.info? (b.extract 0 e.stop) (e.start + 8)

/-- Reads the description of a track; the frames of a segment are told in milliseconds. -/
def track (b : Bytes) (frames : Option Nat) (e : Element) : Track :=
  let number := ((e.child? b 0xD7).map (·.natural b)).getD 0
  let audio := e.child? b 0xE1
  let rate := (audio.bind (·.child? b 0xB5)).map (·.whole b)
  let bits := (audio.bind (·.child? b 0x6264)).map (·.natural b)
  let codec := codec (String.ofList (((e.child? b 0x86).map (·.text b)).getD [])) bits
  let info := if codec = .flac then (e.child? b 0x63A2).bind (flacInfo? b) else none
  { stream := { id := number, codec, rate, bits, frames, complete := codec ≠ .flac || info.isSome }
    info }

/-- The packet in a block. -/
def packet? (b : Bytes) (tracks : List Track) (e : Element) : Option Packet :=
  (number? b e.stop e.start).map fun (_, id, next) =>
    let body := b.extract (next + 3) e.stop
    let decoded := match tracks.find? (·.stream.id = id) with
      | some { info := some info, .. } => Flac.decodePacket info body
      | _ => .malformed
    ⟨id, decoded, e.stop⟩

/-- Opens the file that starts at a position. -/
def open? (b : Bytes) (start : Nat) : Option Medium := do
  let segment ← (elements b b.size (b.size - start) start).find? (·.id = 0x18538067)
  let about ← segment.child? b 0x1549A966
  let described ← segment.child? b 0x1654AE6B
  let frames := (about.child? b 0x4489).map (·.whole b)
  let tracks := ((described.children b).filter (·.id = 0xAE)).map (track b frames)
  let clusters := (segment.children b).filter (·.id = 0x1F43B675)
  let blocks := clusters.flatMap fun c => (c.children b).filter (·.id = 0xA3)
  return {
    streams := tracks.map (·.stream)
    default := some 0
    packets := blocks.filterMap (packet? b tracks)
    ending := .endOfInput
    headerNeeds := (clusters.head?.map (·.start)).getD segment.stop
    endNeeds := 0 }

end Jukebox.Media.Matroska
