import Jukebox.Media.Chunk

/-!
WAV files: a form of kind WAVE with little-endian numbers. A chunk "fmt " describes the samples,
"fact" may count the frames, and "data" holds the samples and ends the search. Without a description
there is a stream, but no codec for it. A chunk "LIST" of kind INFO is a form of its own that has to
be whole.
-/

namespace Jukebox.Media.Wav

/-- Numbers are little-endian. -/
def grammar : Chunk.Grammar := ⟨Bytes.little⟩

/-- What the chunk "fmt " tells. -/
structure Description where
  codec : Codec
  kind : Pcm
  layout : Layout
  block : Nat
  bits : Option Nat

/-- What is known before the samples. -/
structure Known where
  description : Option Description := none
  frames : Option Nat := none

/-- Whole-number samples of so many bits. -/
def integers? : Nat → Option (Codec × Pcm)
  | 8 => some (.pcmU8, .unsigned 8)
  | 16 => some (.pcmS16le, .signed 16)
  | 24 => some (.pcmS24le, .signed 24)
  | 32 => some (.pcmS32le, .signed 32)
  | _ => none

/-- Floating-point samples of so many bits. -/
def floats? : Nat → Option (Codec × Pcm)
  | 32 => some (.pcmF32le, .single)
  | 64 => some (.pcmF64le, .double)
  | _ => none

/-- The end that the identifiers of sample kinds have in common. -/
def identifierTail : Bytes :=
  #[0x00, 0x00, 0x00, 0x00, 0x10, 0x00, 0x80, 0x00, 0x00, 0xAA, 0x00, 0x38, 0x9B, 0x71]

/-- The samples that an extended description names by an identifier. Floating-point samples use all
their bits. -/
def extended? (b : Bytes) (start bits : Nat) : Option (Codec × Pcm) :=
  let used := b.little (start + 18) 2
  if bits = 0 ∨ bits % 8 ≠ 0 ∨ bits < used ∨ b.slice (start + 26) 14 ≠ identifierTail then none
  else match b.little (start + 24) 2 with
    | 1 => integers? bits
    | 3 => if used = bits then floats? bits else none
    | 6 => some (.pcmAlaw, .aLaw)
    | 7 => some (.pcmMulaw, .muLaw)
    | _ => none

/-- Reads the chunk "fmt ". -/
def description? (b : Bytes) (start length : Nat) : Option Description :=
  let channels := b.little (start + 2) 2
  let bits := b.little (start + 14) 2
  let extra := b.little (start + 16) 2
  let speakersNamed := b.little (start + 20) 4
  let describeFor (mask : Nat) (shown : Option Nat) (kind : Codec × Pcm) : Description :=
    ⟨kind.1, kind.2, ⟨b.little (start + 4) 4, mask⟩, b.little (start + 12) 2, shown⟩
  let describe := describeFor (firstSpeakers channels)
  if channels = 0 ∨ 26 < channels then none
  else match b.little start 2 with
    | 1 => if length ∈ [16, 18, 40] then (integers? bits).map (describe (some bits)) else none
    | 3 =>
      if length = 16 ∨ (length = 18 ∧ extra = 0) ∨ length = 40 then
        (floats? bits).map (describe none)
      else none
    | 6 => if length = 18 then some (describe none (.pcmAlaw, .aLaw)) else none
    | 7 => if length = 18 then some (describe none (.pcmMulaw, .muLaw)) else none
    | 0xFFFE =>
      if length = 40 ∧ extra = 22 ∧ speakers speakersNamed = channels ∧
          speakersNamed < Nat.pow 2 26 then
        (extended? b start bits).map (describeFor speakersNamed (some (b.little (start + 18) 2)))
      else none
    | _ => none

/-- The medium of the samples at a place. -/
def medium (b : Bytes) (known : Known) (start length : Nat) : Medium :=
  match known.description with
  | none =>
    let stream : Stream := { id := 0, codec := .unknown, rate := none, frames := known.frames }
    Chunk.medium b stream ⟨start, start + length, 0⟩ fun _ => .malformed
  | some d =>
    let stream : Stream :=
      { id := 0, codec := d.codec, rate := some d.layout.rate, channels := some d.layout.channels
        bits := d.bits, frames := if d.block = 0 then known.frames else some (length / d.block) }
    Chunk.medium b stream ⟨start, start + length, d.block⟩
      (Chunk.decodePacked d.layout d.kind grammar)

/-- Where a chunk "LIST" stops. It starts with its kind; one of kind INFO is gone through. -/
def listStop? (b : Bytes) (h : Chunk.Header) : Option Nat :=
  if h.length < 4 then none
  else if b.slice h.start 4 = Chunk.tag "INFO" then
    Chunk.listStop? grammar b (h.length - 4) (b.size + 1) ⟨h.start + 4, 0⟩
  else some h.stop

/-- Looks at one chunk. -/
def visit (b : Bytes) (known : Known) (h : Chunk.Header) : Option (Known × Nat ⊕ Medium) :=
  if h.tag = Chunk.tag "fmt " then
    (description? b h.start h.length).map fun d =>
      .inl ({ known with description := some d }, h.stop)
  else if h.tag = Chunk.tag "fact" then
    if h.length = 4 then some (.inl ({ known with frames := some (b.little h.start 4) }, h.stop))
    else none
  else if h.tag = Chunk.tag "LIST" then (listStop? b h).map fun stop => .inl (known, stop)
  else if h.tag = Chunk.tag "data" then some (.inr (medium b known h.start h.length))
  else some (.inl (known, h.stop))

/-- Opens the form that starts at a position. -/
def open? (b : Bytes) (start : Nat) : Option Medium :=
  if b.slice (start + 8) 4 ≠ Chunk.tag "WAVE" then none
  else
    Chunk.walk grammar b (b.little (start + 4) 4) (visit b) (b.size + 1) {} ⟨start + 12, 0⟩

end Jukebox.Media.Wav
