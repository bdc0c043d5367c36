import Jukebox.Fault
import Jukebox.Media.Aiff
import Jukebox.Media.Matroska
import Jukebox.Media.Wav

/-!
Finding out what a file is. The first place in it that bears the mark of a container decides,
whatever stands before; sixteen bytes have to follow. What the file is called does not matter.
-/

namespace Jukebox.Media

/-- The containers that are known. -/
inductive Container where | wav | aiff | flac | matroska
  deriving DecidableEq

/-- The container whose mark stands at a position. -/
def mark? (b : Bytes) (start : Nat) : Option Container :=
  match b.big start 4 with
  | 0x52494646 => some .wav
  | 0x464F524D => some .aiff
  | 0x664C6143 => some .flac
  | 0x1A45DFA3 => some .matroska
  | _ => none

/-- The first mark in a file. -/
def firstMark? (b : Bytes) : Option (Container × Nat) :=
  (List.range b.size).findSome? fun i => (mark? b i).map (·, i)

/-- Opens a file. -/
def Medium.open? (b : Bytes) : Option Medium :=
  match firstMark? b with
  | none => none
  | some (container, start) =>
    if b.size < start + 16 then none
    else match container with
      | .wav => Wav.open? b start
      | .aiff => Aiff.open? b start
      | .flac => Flac.open? b start
      | .matroska => Matroska.open? b start

end Jukebox.Media
