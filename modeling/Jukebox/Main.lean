import Jukebox.Console.Program

/-!
The program at a terminal. It reads the files among its words, plays them in real time on a card
that nobody hears, takes lines from the standard input, and prints what it has to say.
-/

namespace Jukebox.Terminal

/-- A machine with one silent card, which refuses nothing, and with these files. -/
def machine (files : List (String × Bytes)) : Console.Machine where
  host :=
    { cards := some [{ name := some "silence", ranges := some [⟨2, 8000, 192000, .f32, none⟩] }]
      default := some 0 }
  refuses := fun _ _ => false
  file := fun path => files.lookup path

/-- The files among the words. -/
def readFiles (words : List String) : IO (List (String × Bytes)) :=
  words.filterMapM fun (word : String) => do
    try
      let bytes ← IO.FS.readBinFile word
      return some (word, bytes.data)
    catch _ => return none

/-- Prints the lines of a program from the one with this number on. -/
def printFrom (count : Nat) (p : Console.Program) : IO Unit := do
  for line in p.out.drop count do IO.println line
  (← IO.getStdout).flush

/-- A line that may not be there yet. -/
abbrev Line := Task (Except IO.Error String)

/-- Begins to wait for a line. The end of the input is an empty one. -/
def awaitLine : IO Line := do
  let input ← IO.getStdin
  IO.asTask input.getLine Task.Priority.dedicated

/-- A program after the input has delivered a line. One that is not finished was the last one, and
one that is no text ends the input. -/
def accept (p : Console.Program) : Except IO.Error String → Console.Program × Bool
  | .error _ => (p.close, false)
  | .ok line =>
    let p := p.typed line.toUTF8.data
    if line.endsWith "\n" then (p, true) else (p.close, false)

/-- Runs a program: fifty times in a second the card asks for samples. -/
partial def run (input : Option Line) (p : Console.Program) : IO Unit := do
  if p.loop.running then
    let (before, printed) := (p, p.out.length)
    let (input, p) ← match input with
      | none => pure (none, before)
      | some line =>
        if ← IO.hasFinished line then
          let (p, more) := accept before line.get
          if more then pure (some (← awaitLine), p) else pure (none, p)
        else pure (some line, before)
    let wanted := p.card.rate / 50 * p.card.channels
    let (p, _) := p.render (Array.replicate wanted 0)
    printFrom printed p
    IO.sleep 20
    run input p

end Jukebox.Terminal

open Jukebox in
/-- Runs the program on its words; the answer is its exit code. -/
def main (words : List String) : IO UInt32 := do
  match Console.Program.start (Terminal.machine (← Terminal.readFiles words)) words with
  | .ended e =>
    for line in e.out do IO.println line
    if let some text := e.complaint then IO.eprint text
    if e.code = 2 then IO.eprintln "Try --help for the words that are known."
    return e.code.toUInt32
  | .running p =>
    Terminal.printFrom 0 p
    Terminal.run (some (← Terminal.awaitLine)) p
    return 0
