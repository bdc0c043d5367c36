import Jukebox.Number.Decimal
import Jukebox.Span
import Jukebox.Text.Blank

/-!
Lines typed at the prompt. A line is read as words between blanks. Seven commands are one letter and
stand alone; three are a word followed by a number.
-/

namespace Jukebox.Console

/-- What a line asks for. -/
inductive Input where
  | togglePause | next | prev | stop | play | status | quit
  | seek (position : Span)
  | tempo (tempo : Float32)
  | volume (volume : Float32)

/-- A number of the 32-bit format. -/
def single? (cs : List Char) : Option Float32 :=
  (Number.Numeral.parse? cs).map fun n =>
    Float32.ofBits (UInt32.ofNat (n.toWord .single))

/-- A span given in seconds. -/
def span? (cs : List Char) : Option Span :=
  (Number.Numeral.parse? cs).bind fun n => Span.ofDouble? (n.toWord .double)

/-- A command that is one letter. -/
def letter? (word : String) : Option Input :=
  match word with
  | "p" => some .togglePause
  | "n" => some .next
  | "b" => some .prev
  | "s" => some .stop
  | "g" => some .play
  | "i" => some .status
  | "q" => some .quit
  | _ => none

/-- A command with a number. -/
def withNumber? (word : String) (number : List Char) : Option Input :=
  match word with
  | "seek" => (span? number).map .seek
  | "tempo" => (single? number).map .tempo
  | "vol" => (single? number).map .volume
  | _ => none

/-- What a line asks for, if anything. Words after a number are not looked at. -/
def Input.parse? (line : String) : Option Input :=
  match Text.wordsOf line.toList with
  | [] => none
  | [word] => letter? (String.ofList word)
  | word :: number :: _ => withNumber? (String.ofList word) number

end Jukebox.Console
