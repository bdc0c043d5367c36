import Jukebox.Media.Chunk

/-!
AIFF files: a form of kind AIFF with big-endian numbers. The chunk COMM describes the samples, with
the rate as an 80-bit floating-point number, and SSND holds them behind eight bytes of its own. The
count of frames is taken from the whole length of that chunk.
-/

namespace Jukebox.Media.Aiff

/-- Numbers are big-endian. -/
def grammar : Chunk.Grammar := ⟨Bytes.big⟩

/-- What the chunk COMM tells. -/
structure Description where
  codec : Codec
  kind : Pcm
  channels : Nat
  rate : Nat
  bits : Nat

/-- Whole-number samples of so many bits. -/
def integers? : Nat → Option (Codec × Pcm)
  | 8 => some (.pcmS8, .signed 8)
  | 16 => some (.pcmS16be, .signed 16)
  | 24 => some (.pcmS24be, .signed 24)
  | 32 => some (.pcmS32be, .signed 32)
  | _ => none

/-- The whole part of an 80-bit floating-point number that is not negative: fifteen bits of exponent
and sixty-four of significand. -/
def extendedWhole (b : Bytes) (start : Nat) : Nat :=
  let exponent := b.big start 2 % Nat.pow 2 15
  let significand := b.big (start + 2) 8
  min (significand * Nat.pow 2 (min exponent 16446 - 16383) / Nat.pow 2 (63 + (16383 - exponent)))
    (Nat.pow 2 32 - 1)

/-- Reads the chunk COMM. -/
def description? (b : Bytes) (start length : Nat) : Option Description :=
  let channels := b.big start 2
  let bits := b.big (start + 6) 2
  if length < 18 ∨ channels = 0 ∨ 26 < channels then none
  else (integers? bits).map fun (codec, kind) =>
    ⟨codec, kind, channels, extendedWhole b (start + 8), bits⟩

/-- The medium of the samples in the chunk SSND. -/
def medium (b : Bytes) (known : Option Description) (h : Chunk.Header) : Medium :=
  let start := h.start + 8
  match known with
  | none =>
    let stream : Stream := { id := 0, codec := .unknown, rate := none }
    Chunk.medium b stream ⟨start, start + h.length, 0⟩ fun _ => .malformed
  | some d =>
    let layout : Layout := ⟨d.rate, firstSpeakers d.channels⟩
    let block := d.channels * d.bits / 8
    let stream : Stream :=
      { id := 0, codec := d.codec, rate := some d.rate, channels := some d.channels
        bits := some d.bits, frames := some (h.length / block) }
    Chunk.medium b stream ⟨start, start + h.length, block⟩
      (Chunk.decodePacked layout d.kind grammar)

/-- Looks at one chunk. Samples have to follow at once: neither distance nor alignment is allowed.
-/
def visit (b : Bytes) (known : Option Description) (h : Chunk.Header) :
    Option (Option Description × Nat ⊕ Medium) :=
  if h.tag = Chunk.tag "COMM" then
    (description? b h.start h.length).map fun d => .inl (some d, h.stop)
  else if h.tag = Chunk.tag "SSND" then
    if b.size < h.start + 8 ∨ b.big h.start 8 ≠ 0 then none else some (.inr (medium b known h))
  else some (.inl (known, h.stop))

/-- Opens the form that starts at a position. -/
def open? (b : Bytes) (start : Nat) : Option Medium :=
  if b.slice (start + 8) 4 ≠ Chunk.tag "AIFF" then none
  else Chunk.walk grammar b (b.big (start + 4) 4) (visit b) (b.size + 1) none ⟨start + 12, 0⟩

end Jukebox.Media.Aiff
