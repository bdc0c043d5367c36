import Jukebox.Chain
import Jukebox.Device.Sample

/-!
The callback of the sound card. The card hands over an array of samples to fill; the callback pulls
whole frames from a chain, a bounded number at a time, turns them into samples of the card, and
fills the rest with silence when the chain runs short. A chain that is finished then posts its idle
signal, which happens once; one that is not is counted as an underrun.
-/

namespace Jukebox

/-- What is counted while a track plays. -/
structure Counters where
  playedFrames : Nat := 0
  underrunFrames : Nat := 0
  underrunEvents : Nat := 0
  deriving DecidableEq

/-- A signal that is posted at most once per session. -/
structure IdleSignal where
  session : Nat
  fired : Bool := false
  deriving DecidableEq

/-- Posts the signal: the signal after, and what reaches the other side. -/
def IdleSignal.fire (s : IdleSignal) : IdleSignal × List Nat :=
  if s.fired then (s, []) else ({ s with fired := true }, [s.session])

/-- How a card is fed. -/
structure Renderer where
  kind : Device.SampleKind
  /-- The most frames pulled at once; at least one is. -/
  refill : Nat

/-- What a callback works on. -/
structure Playback where
  chain : Chain
  counters : Counters := {}
  idle : IdleSignal

/-- What a callback leaves behind. -/
structure Rendered where
  playback : Playback
  /-- The samples of the card. -/
  card : Array Nat
  /-- Idle signals posted by this callback. -/
  posted : List Nat

/-- Why a card cannot be fed. -/
inductive StreamFault where
  | kindNotFed (kind : Device.SampleKind)
  | channelsDiffer (card audio : Nat)
  deriving DecidableEq

def StreamFault.message : StreamFault → String
  | .kindNotFed kind => "Unsupported sample format: " ++ kind.name
  | .channelsDiffer card audio =>
    "stream has " ++ toString card ++ " channels but audio has " ++ toString audio

namespace Renderer

/-- Feeds a card of a kind and a count of channels with audio of a format. -/
def create (kind : Device.SampleKind) (refill channels : Nat) (f : Format) :
    Except StreamFault Renderer :=
  if ¬ kind.isFed then .error (.kindNotFed kind)
  else if channels ≠ f.channels then .error (.channelsDiffer channels f.channels)
  else .ok ⟨kind, refill⟩

/-- The most frames pulled at once from audio of this format. -/
def chunk (r : Renderer) (f : Format) : Nat := if f.bytesPerFrame = 0 then 0 else max r.refill 1

/-- Pulls frames until there are enough or the chain runs short, at most `chunk` at a time. -/
def pull (chunk : Nat) (c : Chain) (need : Nat) : Chain × Bytes :=
  if need = 0 ∨ chunk = 0 then (c, #[])
  else
    let want := min need chunk
    let frame := c.buffer.format.bytesPerFrame
    let (c', bytes) := c.read (want * frame)
    if bytes.size / frame < want then (c', bytes)
    else
      let (c'', more) := pull chunk c' (need - want)
      (c'', bytes ++ more)
  termination_by need
  decreasing_by omega

/-- Fills the samples of the card. -/
def render (r : Renderer) (volume : Float32) (p : Playback) (card : Array Nat) : Rendered :=
  let format := p.chain.buffer.format
  let channels := max format.channels 1
  let frames := card.size / channels
  let (chain, bytes) := pull (r.chunk format) p.chain frames
  let filled := bytes.size / format.bytesPerFrame
  let samples := (format.decodeAll bytes).map fun x => r.kind.bits (x * volume)
  let counters := { p.counters with playedFrames := p.counters.playedFrames + filled }
  if filled < frames then
    let card := samples ++ Array.replicate (card.size - samples.size) r.kind.silence
    if chain.isFinished then
      let (idle, posted) := p.idle.fire
      ⟨{ chain, counters, idle }, card, posted⟩
    else
      let counters :=
        { counters with
          underrunEvents := counters.underrunEvents + 1
          underrunFrames := counters.underrunFrames + (frames - filled) }
      ⟨{ p with chain, counters }, card, []⟩
  else
    ⟨{ p with chain, counters }, samples ++ card.extract samples.size card.size, []⟩

end Renderer

end Jukebox
