import Jukebox.Bytes
import Jukebox.Fault
import Jukebox.Path
import Jukebox.Word

/-!
Where the bytes of a file come from: a reader over data in memory, and a source around it that knows
its own position and perhaps its length. A seek that would leave the range of 64-bit offsets is
refused and leaves everything as it was, even though finding the end may have moved the reader.
-/

namespace Jukebox

/-- A reader over data in memory. It may stand beyond the end, where there is nothing to read. -/
structure Reader where
  data : Bytes
  offset : Nat := 0

namespace Reader

/-- Reads at most `count` bytes. -/
def read (r : Reader) (count : Nat) : Reader × Bytes :=
  let bytes := r.data.slice r.offset count
  ({ r with offset := r.offset + bytes.size }, bytes)

/-- Stands at an offset. -/
def seekTo (r : Reader) (offset : Nat) : Reader := { r with offset }

/-- Stands at the end of the data. -/
def seekToEnd (r : Reader) : Reader := r.seekTo r.data.size

end Reader

/-- What an offset counts from. -/
inductive Origin where | start | current | end
  deriving DecidableEq

def Origin.name : Origin → String
  | .start => "Start"
  | .current => "Current"
  | .end => "End"

/-- A seek to an offset outside the range of positions. -/
structure SeekFault where
  offset : Int
  origin : Origin
  deriving DecidableEq

def SeekFault.message (e : SeekFault) : String :=
  "seek to " ++ toString e.offset ++ " from " ++ e.origin.name ++ " is out of range"

/-- A file that is read. -/
structure Source where
  name : String
  reader : Reader
  position : Nat := 0
  length? : Option Nat

namespace Source

/-- A source over data in memory, with the length it is said to have. -/
def ofBytes (name : String) (data : Bytes) (length? : Option Nat) : Source :=
  { name, reader := { data }, length? }

/-- Reads at most `count` bytes. -/
def read (s : Source) (count : Nat) : Source × Bytes :=
  if count = 0 then (s, #[])
  else
    let (reader, bytes) := s.reader.read count
    ({ s with reader, position := Word.cap (s.position + bytes.size) }, bytes)

/-- The base of an offset, and the source after asking for it: an unknown length is found by going
to the end. -/
def base (s : Source) : Origin → Source × Nat
  | .start => (s, 0)
  | .current => (s, s.position)
  | .end =>
    match s.length? with
    | some length => (s, length)
    | none =>
      let reader := s.reader.seekToEnd
      ({ s with reader }, reader.offset)

/-- Goes to an offset from an origin. -/
def seekFrom (s : Source) (origin : Origin) (offset : Int) : Source × Except SeekFault Nat :=
  let (s, base) := s.base origin
  let target := (base : Int) + offset
  if 0 ≤ target ∧ target ≤ Word.top then
    let reader := s.reader.seekTo target.toNat
    ({ s with reader, position := reader.offset }, .ok reader.offset)
  else
    ({ s with reader := s.reader.seekTo s.position }, .error ⟨offset, origin⟩)

/-- The largest offset a signed 64-bit word holds. -/
def largestOffset : Nat := Nat.pow 2 63 - 1

/-- Goes to an absolute position; one too large for a signed word becomes the largest that fits. -/
def seekToStart (s : Source) (position : Nat) : Source × Except SeekFault Nat :=
  s.seekFrom .start (min position largestOffset : Nat)

/-- Every source can seek. -/
def isSeekable (_ : Source) : Bool := true

/-- Does a path lead through a file as if it were a directory? -/
def leadsThrough (path file : List Char) : Bool :=
  let steps := Path.components path
  let fileSteps := Path.components file
  path.head? == file.head? && fileSteps.isPrefixOf steps &&
    (fileSteps.length < steps.length || path.getLast? == some '/')

/-- Why a path that names no file cannot be opened, when `files` are the files on its way. -/
def refusal (files : List String) (path : String) : OpenRefusal :=
  if path.toList.any (·.toNat = 0) then .zeroByte
  else if files.any fun file => leadsThrough path.toList file.toList then .notDirectory
  else .notFound

end Source

end Jukebox
