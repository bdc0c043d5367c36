/-!
Codecs that containers name, and the labels under which some of them are shown.
-/

namespace Jukebox.Media

/-- Sizes and byte orders of uncompressed samples, and the compressed codecs that are known. -/
inductive Codec where
  | unknown
  | flac | mp1 | mp2 | mp3 | aac | alac | vorbis | opus | speex | wavpack
  | pcmS8 | pcmU8 | pcmS16le | pcmS16be | pcmU16le | pcmS24le | pcmS24be | pcmS32le | pcmS32be
  | pcmF32le | pcmF32be | pcmF64le | pcmAlaw | pcmMulaw | adpcmMs
  /-- Any other codec, by its number. No container that is read here names one. -/
  | other (number : Nat)
  deriving DecidableEq

/-- The label of a codec. Byte order does not show in it. -/
def Codec.label : Codec → Option String
  | .flac => some "FLAC"
  | .mp3 => some "MP3"
  | .aac => some "AAC"
  | .alac => some "ALAC"
  | .vorbis => some "VORBIS"
  | .opus => some "OPUS"
  | .pcmS16le | .pcmS16be => some "PCM_S16"
  | .pcmS24le | .pcmS24be => some "PCM_S24"
  | .pcmS32le | .pcmS32be => some "PCM_S32"
  | .pcmF32le | .pcmF32be => some "PCM_F32"
  | _ => none

end Jukebox.Media
