import Jukebox.Deck.Control
import Jukebox.Deck.Output
import Jukebox.Status

/-!
A deck as one system of steps. Users put commands into a queue; the control side takes them one by
one and takes notices as they come, in any order between the two; the output side takes requests and
idle signals in any order between the two; the card calls back while a stream runs; producers work
on their buffers. Any step that is possible can be the next one. `settle` is one way to let the
steps happen: it goes on until none is left that needs nobody from outside.
-/

namespace Jukebox

/-- A deck. -/
structure Deck where
  control : Deck.Control
  output : Deck.Output := {}
  /-- Commands given and not taken yet. -/
  commands : List Deck.Command := []
  volume : Float32 := 1.0

namespace Deck

/-- A step of a deck. -/
inductive Move where
  /-- A user gives a command. -/
  | give (command : Command)
  /-- The control side takes the next command. -/
  | takeCommand
  /-- The control side takes the notice and acknowledges it. -/
  | takeNotice
  /-- The output side takes the next request. -/
  | takeRequest
  /-- The output side takes the next idle signal. -/
  | takeIdle
  /-- The output side goes on with a start. -/
  | proceed
  /-- The output side notices that the control side is gone. -/
  | giveUp
  /-- The card asks for samples. -/
  | render (card : Array Nat)
  /-- The producer of a reel works on its buffer. -/
  | produce (reel : Nat) (op : Buffer.Op)

/-- A deck with a playlist, before anything has happened. -/
def initial (fades : Fades) (playlist : Playlist) : Deck :=
  { control := { fades, playlist } }

/-- The request that is taken next. -/
def nextRequest? (d : Deck) : Option Request := d.control.sent[d.output.taken]?

/-- The notice that is not acknowledged yet. -/
def notice? (d : Deck) : Option Notice :=
  match d.output.phase with
  | .reporting n => some n
  | _ => none

/-- Is the output side free to take a request or an idle signal? -/
def isReady (d : Deck) : Bool :=
  match d.output.phase with
  | .ready => true
  | _ => false

/-- Is nothing on its way: no command, request, notice or idle signal? -/
def isQuiet (d : Deck) : Bool :=
  d.commands.isEmpty && d.nextRequest?.isNone && d.notice?.isNone && d.output.idle.isEmpty &&
    d.isReady

/-- A user gives a command. -/
def give (d : Deck) (c : Command) : Deck := { d with commands := d.commands ++ [c] }

/-- The deck after a step, if the step is possible. -/
def step (w : World) (d : Deck) : Move → Option Deck
  | .give command => some (d.give command)
  | .takeCommand =>
    match d.commands with
    | command :: commands =>
      if d.control.closed then none
      else some { d with commands, control := d.control.onCommand (d.output.played w) command }
    | [] => none
  | .takeNotice =>
    match d.output.phase with
    | .reporting n =>
      if d.control.closed then none
      else some { d with
        control := d.control.onNotice (d.output.played w) n
        output := d.output.acknowledged }
    | _ => none
  | .takeRequest =>
    match d.output.phase, d.nextRequest? with
    | .ready, some r =>
      let output := { d.output with taken := d.output.taken + 1 }
      some { d with output := output.handle w d.control.playlist r }
    | _, _ => none
  | .takeIdle =>
    match d.output.phase, d.output.idle with
    | .ready, id :: idle => some { d with output := { d.output with idle }.onIdle id }
    | _, _ => none
  | .proceed => (d.output.proceed w).map fun output => { d with output }
  | .giveUp =>
    match d.output.phase with
    | .reporting _ =>
      if d.control.closed then some { d with output := d.output.acknowledged } else none
    | _ => none
  | .render card =>
    (d.output.render w d.volume card).map fun (output, _) => { d with output }
  | .produce reel op =>
    if reel < d.output.reels.length then
      some { d with output := d.output.onBuffer reel fun b => b.apply op }
    else none

/-- The steps that need nobody from outside. -/
def innerMoves : List Move :=
  [.takeNotice, .takeCommand, .proceed, .takeRequest, .takeIdle, .giveUp]

/-- One inner step, if any is possible. -/
def innerStep (w : World) (d : Deck) : Option Deck := innerMoves.findSome? (d.step w)

/-- Inner steps until none is possible, at most `fuel` of them. -/
def settleWithin (w : World) : (fuel : Nat) → Deck → Deck
  | 0, d => d
  | fuel + 1, d =>
    match d.innerStep w with
    | some d => settleWithin w fuel d
    | none => d

/-- How many inner steps there can be before somebody from outside is needed. Each queued message is
taken once, and a track that fails is not started again. -/
def patience (d : Deck) : Nat :=
  16 * (d.control.playlist.size + d.commands.length + d.control.sent.length +
    d.output.idle.length + 4)

/-- Lets the deck come to rest. -/
def settle (w : World) (d : Deck) : Deck := settleWithin w d.patience d

/-- Gives a command and lets the deck come to rest. -/
def command (w : World) (d : Deck) (c : Command) : Deck := (d.give c).settle w

/-- Sets the volume, between 0 and 1; what is not finite counts as 1. -/
def setVolume (d : Deck) (volume : Float32) : Deck :=
  { d with volume :=
      if ¬ volume.isFinite then 1.0 else if volume < 0.0 then 0.0
      else if 1.0 < volume then 1.0 else volume }

/-- What the card is given when it asks. -/
inductive CardAnswer where
  | noStream
  | paused
  | samples (card : Array Nat)

/-- The card asks for samples, and the deck comes to rest. -/
def render (w : World) (d : Deck) (card : Array Nat) : Deck × CardAnswer :=
  match d.output.render w d.volume card with
  | some (output, card) => ({ d with output }.settle w, .samples card)
  | none => (d, if d.output.stream?.isSome then .paused else .noStream)

/-- What the deck tells about itself, on a card of this name with a buffer of this size. -/
def status (w : World) (device : Option String) (bufferFrames : Option Nat) (d : Deck) :
    Status where
  state := d.control.shown
  nowPlaying := d.output.nowPlaying
  device := device
  format := some w.format
  bufferFrames := bufferFrames
  volume := d.volume
  tempo := d.control.tempo
  chain := d.output.shownReel.bind fun i => (d.output.reels[i]?).map (·.chain)
  counters := d.output.counters

end Deck

end Jukebox
