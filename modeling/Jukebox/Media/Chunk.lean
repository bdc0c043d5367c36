import Jukebox.Media.Packet

/-!
Files made of chunks, each a tag of four bytes and a length. A form starts with its own length and
kind; its chunks are aligned to even positions, and the length of the form bounds them. What can be
told about the audio is gathered from the chunks in front of the samples; the samples themselves are
cut into packets of up to 1152 blocks.
-/

namespace Jukebox.Media.Chunk

/-- A kind of form: how its numbers are written. -/
structure Grammar where
  number : Bytes → (start count : Nat) → Nat

/-- A chunk: its tag, the position and length of its body. -/
structure Header where
  tag : Bytes
  start : Nat
  length : Nat

/-- How far a form has been read: the next position, and how much of the form is used up. -/
structure Place where
  next : Nat
  used : Nat

/-- The largest length, which forms of unknown length have. -/
def unknownLength : Nat := Nat.pow 2 32 - 1

/-- What stands at a place of a form. -/
inductive Found where
  | chunk (h : Header) (after : Place)
  /-- The form has no room for one more. -/
  | noRoom (after : Place)
  /-- The file is too short, or the chunk too long for the form. -/
  | broken

/-- What stands at a place of a form of a length: chunks start at even distances. -/
def find (g : Grammar) (b : Bytes) (length : Nat) (p : Place) : Found :=
  let next := p.next + p.used % 2
  let used := p.used + p.used % 2
  if b.size < next then .broken
  else if length < used + 8 then .noRoom ⟨next, used⟩
  else if b.size < next + 8 then .broken
  else
    let size := g.number b (next + 4) 4
    if length < used + 8 + size ∧ ¬ (length = unknownLength ∧ size = unknownLength) then .broken
    else .chunk ⟨b.slice next 4, next + 8, size⟩ ⟨next + 8 + size, used + 8 + size⟩

/-- Goes through the chunks of a form until `visit` has what it wants; `visit` also tells where a
chunk really stops. A chunk is at least eight bytes long, so `fuel` above the size of the file is
enough. -/
def walk {α β : Type} (g : Grammar) (b : Bytes) (length : Nat)
    (visit : α → Header → Option (α × Nat ⊕ β)) : (fuel : Nat) → α → Place → Option β
  | 0, _, _ => none
  | fuel + 1, a, p =>
    match find g b length p with
    | .noRoom _ | .broken => none
    | .chunk h p =>
      match visit a h with
      | none => none
      | some (.inr found) => some found
      | some (.inl (a, stop)) => walk g b length visit fuel a { p with next := stop }

/-- Where a chunk stops when nothing inside it tells otherwise. -/
def Header.stop (h : Header) : Nat := h.start + h.length

/-- Where a list of chunks stops, if all of it is in the file. Behind a list of an odd length one
byte is passed over. -/
def listStop? (g : Grammar) (b : Bytes) (length : Nat) : (fuel : Nat) → Place → Option Nat
  | 0, _ => none
  | fuel + 1, p =>
    match find g b length p with
    | .broken => none
    | .chunk h p => if b.size < h.stop then none else listStop? g b length fuel p
    | .noRoom p =>
      let stop := p.next + (length - p.used) + length % 2
      if b.size < stop then none else some stop

/-- The text of a tag. -/
def tag (s : String) : Bytes := (s.toList.map fun c => UInt8.ofNat c.toNat).toArray

/-- The most blocks in one packet. -/
def blocksPerPacket : Nat := 1152

/-- Samples that fill blocks of so many bytes between two positions of a file. -/
structure Area where
  start : Nat
  stop : Nat
  block : Nat

/-- The packets of an area. A packet may be cut short by the end of the file; after it there is
none. -/
def packets (b : Bytes) (a : Area) (decode : Bytes → Decoded) : (fuel start : Nat) → List Packet
  | 0, _ => []
  | fuel + 1, start =>
    let blocks := (a.stop - start) / a.block
    if blocks = 0 ∨ b.size ≤ start then []
    else
      let length := min blocks blocksPerPacket * a.block
      let body := b.slice start length
      let packet := ⟨0, decode body, min (start + length) (b.size + 1)⟩
      if body.size < length then [packet]
      else packet :: packets b a decode fuel (start + length)

/-- The medium of one stream of samples in an area of a file. -/
def medium (b : Bytes) (stream : Stream) (a : Area) (decode : Bytes → Decoded) : Medium :=
  if a.block = 0 then
    { streams := [stream], default := some 0, packets := [], ending := .malformed
      headerNeeds := a.start, endNeeds := a.start }
  else
    { streams := [stream], default := some 0
      packets := packets b a decode (b.size + 1) a.start
      ending := .endOfInput, headerNeeds := a.start
      endNeeds := if b.size < a.stop - (a.stop - a.start) % a.block then b.size + 1 else 0 }

/-- The packed samples of a packet as a frame. -/
def decodePacked (layout : Layout) (kind : Pcm) (g : Grammar) (b : Bytes) : Decoded :=
  .frame (.ofPacked layout kind g.number blocksPerPacket b)

end Jukebox.Media.Chunk
