import Jukebox.Device.Sample
import Jukebox.Format
import Jukebox.Text.Blank
import Jukebox.Text.Case

/-!
Choosing a sound card and the way it is driven. A card is the default one of the host or the first
one whose name contains a given text. Of the ranges of configurations it offers, the best is the one
that delivers the highest rate not above a target, or else the lowest rate above it; equal rates are
told apart by the kind of sample, and full ties go to the range listed first.
-/

namespace Jukebox.Device

/-- A range of configurations a card offers. -/
structure ConfigRange where
  channels : Nat
  minRate : Nat
  maxRate : Nat
  kind : SampleKind
  /-- Smallest and largest size of its buffer in frames, when known. -/
  buffer : Option (Nat × Nat)
  deriving DecidableEq

/-- A sound card. Without a name it cannot be described; without ranges it refuses to list them. -/
structure Card where
  name : Option String
  maker : Option String := none
  ranges : Option (List ConfigRange)
  hasOutput : Bool := true

/-- The cards of a machine; without a list it refuses to list them. -/
structure Host where
  cards : Option (List Card)
  default : Option Nat

/-- What the hardware refused to do. -/
inductive Refusal where | devices | description | configs | open | play | pause
  deriving DecidableEq

def Refusal.message (r : Refusal) : String :=
  "A backend-specific error has occurred: " ++
    (match r with
      | .devices => "devices"
      | .description => "description"
      | .configs => "configs"
      | .open => "open"
      | .play => "play"
      | .pause => "pause") ++ " refused"

/-- Why no card could be chosen. -/
inductive ChoiceFault where
  | noDefault
  | notListed
  | noMatch (needle : String)
  | configsRefused (card : String)
  | noConfigs (card : String)
  | undescribed
  deriving DecidableEq

/-- The texts of a fault, outermost first. -/
def ChoiceFault.messages : ChoiceFault → List String
  | .noDefault => ["No default output device"]
  | .notListed => ["No output devices", Refusal.message .devices]
  | .noMatch needle => ["No output device matched: " ++ needle]
  | .configsRefused card => ["choose output config for " ++ card, Refusal.message .configs]
  | .noConfigs card => ["choose output config for " ++ card, "No supported output configs"]
  | .undescribed => [Refusal.message .description]

/-- The text that describes a card. -/
def Card.description (c : Card) : Option String :=
  c.name.map fun name =>
    match c.maker with
    | some maker => name ++ " (" ++ maker ++ ")"
    | none => name

/-- The cards that can play. -/
def Host.outputs (h : Host) : Option (List Card) := h.cards.map (·.filter (·.hasOutput))

/-- Does a text occur in another one? -/
def occursIn (needle : List Char) : List Char → Bool
  | [] => needle.isEmpty
  | c :: cs => needle.isPrefixOf (c :: cs) || occursIn needle cs

/-- Does a name contain a text, whatever their case? Blanks around the text do not count, and an
empty one is contained nowhere. -/
def nameMatches (name needle : String) : Bool :=
  let needle := Text.trim needle.toList
  !needle.isEmpty && occursIn (Text.lower needle) (Text.lower name.toList)

/-- The card a text asks for, or the default one. -/
def Host.pick (h : Host) (needle : Option String) : Except ChoiceFault Card :=
  match needle with
  | none =>
    match h.default.bind fun i => h.cards.bind (·[i]?) with
    | some card => .ok card
    | none => .error .noDefault
  | some needle =>
    match h.outputs with
    | none => .error .notListed
    | some cards =>
      match cards.find? fun c => c.name.any fun name => nameMatches name needle with
      | some card => .ok card
      | none => .error (.noMatch needle)

namespace ConfigRange

/-- The rate of a range closest to a target; without a target the highest. -/
def rateFor (r : ConfigRange) (target : Option Nat) : Nat :=
  match target with
  | some t => min (max t r.minRate) r.maxRate
  | none => r.maxRate

/-- The place of a kind of sample in the order of preference. -/
def rank (r : ConfigRange) : Nat :=
  match r.kind with
  | .f32 => 0
  | .i32 => 1
  | .i16 => 2
  | .u16 => 3
  | _ => 10

/-- Does the rate of a range stay at or below a target? -/
def isBelow (r : ConfigRange) (target : Option Nat) : Bool :=
  target.all fun t => r.rateFor target ≤ t

/-- Is a range preferred to another one? -/
def beats (target : Option Nat) (a b : ConfigRange) : Bool :=
  if a.isBelow target ≠ b.isBelow target then a.isBelow target
  else if a.rateFor target ≠ b.rateFor target then b.rateFor target < a.rateFor target
  else a.rank < b.rank

end ConfigRange

/-- The best of a list of ranges, the first one on ties. -/
def best (target : Option Nat) (ranges : List ConfigRange) : Option ConfigRange :=
  ranges.foldl (fun best r =>
    match best with
    | none => some r
    | some b => if r.beats target b then some r else some b) none

/-- The size of the buffer a card is asked for. -/
def bufferFrames (range : Nat × Nat) : Nat :=
  if range.2 ≤ 16384 then range.2 else max range.1 16384

/-- A card and the way it is driven. -/
structure Selection where
  card : String
  kind : SampleKind
  channels : Nat
  rate : Nat
  buffer : Option Nat
  deriving DecidableEq

/-- The format of the audio that is made for a card: 16 bits for a 16-bit card, else floating point.
-/
def Selection.format (s : Selection) : Format where
  rate := s.rate
  channels := s.channels
  encoding := if s.kind = .i16 then .signed16 else .float32

/-- A range driven at the rate closest to a target. -/
def ConfigRange.select (r : ConfigRange) (card : String) (target : Option Nat) : Selection where
  card := card
  kind := r.kind
  channels := r.channels
  rate := r.rateFor target
  buffer := r.buffer.map bufferFrames

/-- Chooses a card and the way to drive it. -/
def Host.select (h : Host) (needle : Option String) (target : Option Nat) :
    Except ChoiceFault Selection :=
  match h.pick needle with
  | .error e => .error e
  | .ok card =>
    let name := card.description.getD "unknown"
    match card.ranges with
    | none => .error (.configsRefused name)
    | some ranges =>
      match best target ranges with
      | some range => .ok (range.select name target)
      | none => .error (.noConfigs name)

/-- The lines that list the cards, up to the first one that cannot be described. -/
def Host.listing (h : Host) : List String × Option ChoiceFault :=
  match h.outputs with
  | none => ([], some .notListed)
  | some cards =>
    let named := cards.map Card.description
    let good := named.takeWhile Option.isSome
    let lines := good.zipIdx.map fun (text, i) => "#" ++ toString i ++ ": " ++ text.getD ""
    (lines, if good.length < named.length then some .undescribed else none)

end Jukebox.Device
