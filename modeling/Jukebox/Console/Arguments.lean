import Jukebox.Console.Prompt

/-!
The words a program is started with. Words are files, flags, or settings with a value, which is the
next word or follows an equals sign; after two dashes all words are files. A value is looked at when
the next word that can end it has been recognised, so that an unknown word is reported before a bad
value in front of it.
-/

namespace Jukebox.Console

/-- Settings that take a value. -/
inductive Setting where
  | device | chunkFrames | refillMaxFrames | stopFadeMs | skipFadeMs | rate | volume
  deriving DecidableEq

/-- Flags that take none. -/
inductive Flag where | listDevices | help | version
  deriving DecidableEq

/-- What the program is asked to do. -/
structure Arguments where
  paths : List String := []
  listDevices : Bool := false
  device : Option String := none
  chunkFrames : Nat := 1024
  refillMaxFrames : Nat := 4096
  stopFadeMs : Nat := 500
  skipFadeMs : Nat := 250
  rate : Nat := 48000
  volume : Float32 := 1.0

/-- Why the words were not accepted, or what they ask for instead of playing. -/
inductive ArgumentFault where
  | missingPaths | unknownWord | missingValue | badValue | repeated | needlessValue | help | version
  deriving DecidableEq

/-- What a word that starts with two dashes names. -/
inductive Switch where
  | setting (s : Setting)
  | flag (f : Flag)
  deriving DecidableEq

/-- The option of a name. -/
def Switch.named? : String → Option Switch
  | "device" => some (.setting .device)
  | "chunk-frames" => some (.setting .chunkFrames)
  | "refill-max-frames" => some (.setting .refillMaxFrames)
  | "stop-fade-ms" => some (.setting .stopFadeMs)
  | "skip-fade-ms" => some (.setting .skipFadeMs)
  | "rate" => some (.setting .rate)
  | "volume" => some (.setting .volume)
  | "list-devices" => some (.flag .listDevices)
  | "help" => some (.flag .help)
  | "version" => some (.flag .version)
  | _ => none

/-- A whole number up to a bound, with or without a plus. -/
def count? (bound : Nat) (value : String) : Option Nat :=
  let digits := match value.toList with
    | '+' :: ds => ds
    | ds => ds
  (Number.natural? digits).filter (· ≤ bound)

/-- A rate: a whole number of 32 bits. It may bear a sign, so that minus zero is a rate. -/
def rate? (value : String) : Option Nat :=
  let (negative, digits) := Number.takeSign value.toList
  (Number.natural? digits).filter fun n => if negative then n = 0 else n < Nat.pow 2 32

/-- The arguments with a setting, if the value is good for it. -/
def Arguments.set? (a : Arguments) (s : Setting) (value : String) : Option Arguments :=
  let word := Nat.pow 2 64 - 1
  match s with
  | .device => some { a with device := some value }
  | .chunkFrames => (count? word value).map fun n => { a with chunkFrames := n }
  | .refillMaxFrames => (count? word value).map fun n => { a with refillMaxFrames := n }
  | .stopFadeMs => (count? word value).map fun n => { a with stopFadeMs := n }
  | .skipFadeMs => (count? word value).map fun n => { a with skipFadeMs := n }
  | .rate => (rate? value).map fun n => { a with rate := n }
  | .volume => (single? value.toList).map fun x => { a with volume := x }

/-- Words that were recognised and not looked at yet. -/
inductive Pending where
  | nothing
  | setting (s : Setting) (value : Option String)
  | paths (ps : List String)

/-- How far the words have been read. -/
structure Reading where
  arguments : Arguments := {}
  /-- The settings given so far. -/
  given : List Setting := []
  pending : Pending := .nothing
  /-- Only files follow. -/
  filesOnly : Bool := false

namespace Reading

/-- Takes the value of a setting. -/
def assign (r : Reading) (s : Setting) (value : String) : Except ArgumentFault Reading :=
  if s ∈ r.given then .error .repeated
  else match r.arguments.set? s value with
    | some arguments => .ok { r with arguments, given := s :: r.given, pending := .nothing }
    | none => .error .badValue

/-- Looks at what is pending. -/
def flush (r : Reading) : Except ArgumentFault Reading :=
  match r.pending with
  | .nothing => .ok r
  | .setting _ none => .error .missingValue
  | .setting s (some value) => r.assign s value
  | .paths ps =>
    if "" ∈ ps then .error .missingValue
    else .ok { r with arguments.paths := r.arguments.paths ++ ps, pending := .nothing }

/-- Takes a flag. -/
def raise (r : Reading) (f : Flag) : Except ArgumentFault Reading := do
  let r ← r.flush
  match f with
  | .help => .error .help
  | .version => .error .version
  | .listDevices =>
    if r.arguments.listDevices then .error .repeated
    else .ok { r with arguments.listDevices := true }

/-- Takes a file. -/
def path (r : Reading) (word : String) : Except ArgumentFault Reading :=
  match r.pending with
  | .paths ps => .ok { r with pending := .paths (ps ++ [word]) }
  | _ => do
    let r ← r.flush
    .ok { r with pending := .paths [word] }

/-- Takes an option with the value attached to it, if any. -/
def option (r : Reading) (name : String) (value : Option String) : Except ArgumentFault Reading :=
  match Switch.named? name, value with
  | none, _ => .error .unknownWord
  | some (.flag _), some _ => .error .needlessValue
  | some (.flag f), none => r.raise f
  | some (.setting s), some value => do (← r.flush).assign s value
  | some (.setting s), none => do
    let r ← r.flush
    .ok { r with pending := .setting s none }

/-- Takes a word that stands alone: the value that is waited for, or a file. -/
def plain (r : Reading) (word : String) : Except ArgumentFault Reading :=
  match r.pending with
  | .setting s none => .ok { r with pending := .setting s (some word) }
  | _ => r.path word

/-- The part of an option before an equals sign, and the part behind it. -/
def splitValue (cs : List Char) : String × Option String :=
  let name := cs.takeWhile (· != '=')
  match cs.dropWhile (· != '=') with
  | [] => (String.ofList name, none)
  | _ :: value => (String.ofList name, some (String.ofList value))

/-- Takes the next word. -/
def word (r : Reading) (w : String) : Except ArgumentFault Reading :=
  if r.filesOnly then r.path w
  else match w.toList with
    | ['-', '-'] => .ok { r with filesOnly := true }
    | '-' :: '-' :: cs =>
      let (name, value) := splitValue cs
      r.option name value
    | '-' :: 'h' :: _ => r.raise .help
    | '-' :: 'V' :: _ => r.raise .version
    | '-' :: _ :: _ => .error .unknownWord
    | _ => r.plain w

end Reading

/-- Reads all words behind the name of the program. -/
def Arguments.parse (words : List String) : Except ArgumentFault Arguments := do
  let r ← words.foldlM Reading.word ({} : Reading)
  let r ← r.flush
  if r.arguments.paths.isEmpty ∧ ¬ r.arguments.listDevices then .error .missingPaths
  else .ok r.arguments

/-- How the player is to be set up. -/
structure Setup where
  chunkFrames : Nat
  refillMaxFrames : Nat
  stopFade : Span
  skipFade : Span
  targetRate : Option Nat
  device : Option String
  deriving DecidableEq

/-- The setup that arguments ask for. A rate of zero is no target. -/
def Arguments.setup (a : Arguments) : Setup where
  chunkFrames := max a.chunkFrames 1
  refillMaxFrames := max a.refillMaxFrames 1
  stopFade := .ofMillis a.stopFadeMs
  skipFade := .ofMillis a.skipFadeMs
  targetRate := if 0 < a.rate then some a.rate else none
  device := a.device

end Jukebox.Console
