import Jukebox.Media.Pcm
import Jukebox.Media.Stream

/-!
What a container holds once it has been opened: its streams, and packets in the order of the file,
each of which decodes to a frame of audio or to nothing. Every packet knows how much of the file has
to be there before it can be decoded.
-/

namespace Jukebox.Media

/-- A run of decoded audio: interleaved samples of so many frames. -/
structure Frame where
  layout : Layout
  frames : Nat
  samples : Array Float32

/-- What becomes of a packet in the decoder. -/
inductive Decoded where
  | frame (f : Frame)
  | malformed
  | endOfInput

/-- A packet of a stream. -/
structure Packet where
  stream : Nat
  decoded : Decoded
  /-- How many bytes of the file have to be there. -/
  needs : Nat

/-- How the packets of a file end. -/
inductive Ending where | endOfInput | reset | malformed
  deriving DecidableEq

/-- An opened container. -/
structure Medium where
  streams : List Stream
  default : Option Nat
  packets : List Packet
  ending : Ending
  /-- How many bytes have to be there to open it. -/
  headerNeeds : Nat
  /-- How many bytes have to be there to find that no packet is left. -/
  endNeeds : Nat

/-- Is this a codec of uncompressed samples that can be read? -/
def Codec.isPcm : Codec → Bool
  | .pcmS8 | .pcmU8 | .pcmS16le | .pcmS16be | .pcmU16le | .pcmS24le | .pcmS24be | .pcmS32le
  | .pcmS32be | .pcmF32le | .pcmF32be | .pcmF64le | .pcmAlaw | .pcmMulaw => true
  | _ => false

/-- Can a decoder be made for a stream? Uncompressed samples need a known count of channels. -/
def Stream.hasDecoder (s : Stream) : Bool :=
  match s.codec with
  | .flac => s.complete
  | .mp3 | .aac => true
  | codec => codec.isPcm && s.channels.isSome

/-- A frame from one plane of samples per channel. -/
def Frame.ofPlanes (layout : Layout) (planes : Array (Array Float32)) : Frame :=
  let frames := (planes.getD 0 #[]).size
  { layout, frames,
    samples := (Array.range frames).flatMap fun i => planes.map fun plane => plane.getD i 0.0 }

/-- The frame in packed interleaved samples, at most `most` frames of it. What is left over after
the last whole frame is dropped. -/
def Frame.ofPacked (layout : Layout) (kind : Pcm) (read : Bytes → Nat → Nat → Nat) (most : Nat)
    (b : Bytes) : Frame :=
  let frames := min most (b.size / (layout.channels * kind.size))
  { layout, frames,
    samples := (Array.range (frames * layout.channels)).map fun i =>
      kind.ofWord (read b (i * kind.size) kind.size) }

end Jukebox.Media
