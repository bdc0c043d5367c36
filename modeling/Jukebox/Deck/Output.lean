import Jukebox.Deck.Message

/-!
The output side of a deck. It owns the sound card and the running session, and handles one request
or one idle signal at a time. A start first lets go of the session before, then makes a buffer and a
chain for the track, waits for the first data, and opens a stream; what becomes of it is reported.
While a report is not acknowledged nothing else is handled. Requests for other sessions than the
running one are dropped.
-/

namespace Jukebox.Deck

/-- What the output side calls on the hardware. -/
inductive Call where | open | play | pause
  deriving DecidableEq

/-- What happened on the hardware. -/
inductive Happening where
  | done (call : Call)
  | refused (call : Call)
  | closed
  deriving DecidableEq

/-- The call a happening answers. -/
def Happening.call? : Happening → Option Call
  | .done call | .refused call => some call
  | .closed => none

/-- What the machine around a deck does: the audio a track gives when it is started for a session,
and the calls the hardware refuses, counted for each kind of call from zero. -/
structure World where
  format : Format
  renderer : Renderer
  load : (session index : Nat) → Track → Option Buffer
  refuses : Call → Nat → Bool

/-- One start of a track that has got as far as a buffer, and what it plays through. -/
structure Reel where
  session : Nat
  track : Nat
  title : String
  chain : Chain

/-- The running session. -/
structure Session where
  id : Nat
  /-- The reel that is to be aborted with the session. -/
  reel : Option Nat := none
  /-- The reel that is played. -/
  playing : Option Nat := none
  /-- The stream, and whether it runs. -/
  stream : Option Bool := none
  /-- The idle signal has been posted. -/
  fired : Bool := false
  /-- The idle signal has been reported. -/
  reported : Bool := false

/-- What the output side is busy with. -/
inductive Phase where
  /-- It takes the next request or idle signal. -/
  | ready
  /-- It waits for the first data of a reel. -/
  | waiting (reel : Nat) (seek : Option Span)
  /-- It waits until a notice is acknowledged. -/
  | reporting (notice : Notice)
  /-- It has ended. -/
  | closed

/-- The output side. -/
structure Output where
  /-- All reels ever made, oldest first. -/
  reels : List Reel := []
  session : Option Session := none
  phase : Phase := .ready
  /-- Idle signals posted and not handled yet. -/
  idle : List Nat := []
  /-- How many requests have been taken. -/
  taken : Nat := 0
  tempo : Float32 := 1.0
  counters : Counters := {}
  /-- The title that the status tells. -/
  nowPlaying : Option String := none
  /-- The reel that the status tells about. -/
  shownReel : Option Nat := none
  /-- What happened on the hardware, oldest first. -/
  hardware : List Happening := []

namespace Output

/-- Notes what happened on the hardware. -/
def log (o : Output) (h : Happening) : Output := { o with hardware := o.hardware ++ [h] }

/-- How often the hardware was called in a way. -/
def callCount (o : Output) (c : Call) : Nat := o.hardware.countP fun h => h.call? = some c

/-- Calls the hardware; the answer is whether it complied. -/
def call (w : World) (o : Output) (c : Call) : Output × Bool :=
  if w.refuses c (o.callCount c) then (o.log (.refused c), false) else (o.log (.done c), true)

/-- Changes the chain of a reel. -/
def onReel (o : Output) (i : Nat) (f : Chain → Chain) : Output :=
  { o with reels := o.reels.modify i fun r => { r with chain := f r.chain } }

/-- Changes the buffer of a reel. -/
def onBuffer (o : Output) (i : Nat) (f : Buffer → Buffer) : Output :=
  o.onReel i fun c => { c with buffer := f c.buffer }

/-- Changes the running session. -/
def onSession (o : Output) (f : Session → Session) : Output :=
  { o with session := o.session.map f }

/-- The running session, if it is the one with this number. -/
def live (o : Output) (id : Nat) : Option Session := o.session.filter (·.id = id)

/-- Reports and waits for the acknowledgement. -/
def notify (o : Output) (session : Nat) (event : DeviceEvent) : Output :=
  { o with phase := .reporting ⟨session, event⟩ }

/-- Posts the idle signal of the running session, once. -/
def fire (o : Output) : Output :=
  match o.session with
  | none => o
  | some s =>
    let (signal, posted) := IdleSignal.fire ⟨s.id, s.fired⟩
    { o with session := some { s with fired := signal.fired }, idle := o.idle ++ posted }

/-- Lets go of the running session: closes the stream, then aborts what feeds it. -/
def teardown (o : Output) : Output :=
  match o.session with
  | none => o
  | some s =>
    let o := { o with session := none, nowPlaying := none, shownReel := none }
    let o := if s.stream.isSome then o.log .closed else o
    match s.reel with
    | some i => o.onBuffer i Buffer.abort
    | none => o

/-- A start came to nothing: its buffer is aborted and the failure reported. -/
def startFailed (o : Output) (s : Session) : Output :=
  let o := { o with session := some { s with reel := none } }
  let o := match s.reel with
    | some i => o.onBuffer i Buffer.abort
    | none => o
  o.notify s.id .failed

/-- Begins a session: the one before ends, and the track gets a buffer and a chain. -/
def start (w : World) (o : Output) (id index : Nat) (track : Option Track)
    (seek : Option Span) : Output :=
  let o := { o.teardown with counters := {}, session := some { id } }
  match track.bind fun t => (w.load id index t).map fun b => (t, b) with
  | none => o.startFailed { id }
  | some (t, buffer) =>
    let chain : Chain := { buffer, tempo := o.tempo }
    { o with
        reels := o.reels ++ [⟨id, index, t.title, chain⟩]
        session := some { id, reel := some o.reels.length }
        phase := .waiting o.reels.length seek }

/-- Opens and starts a stream for a reel. -/
def openStream (w : World) (o : Output) (s : Session) (i : Nat) : Output :=
  if ¬ w.renderer.kind.isFed then o.startFailed s
  else match o.call w .open with
  | (o, false) => o.startFailed s
  | (o, true) =>
    match o.call w .play with
    | (o, false) => (o.log .closed).startFailed s
    | (o, true) =>
      { o with
          session := some { s with playing := some i, stream := some true }
          nowPlaying := (o.reels[i]?).map fun r : Reel => r.title
          shownReel := some i }.notify s.id .active

/-- Goes on with a start as soon as there is an answer about its first data. -/
def proceed (w : World) (o : Output) : Option Output :=
  match o.phase, o.session with
  | .waiting i seek, some s =>
    match (o.reels[i]?).bind (·.chain.buffer.wait?) with
    | none => none
    | some false => some (o.startFailed s)
    | some true =>
      let o := match seek with
        | some position => o.onReel i (·.seek position)
        | none => o
      some (o.openStream w s i)
  | _, _ => none

/-- Suspends the stream of a session. -/
def suspend (w : World) (o : Output) (id : Nat) : Output :=
  match (o.live id).bind (·.stream) with
  | none => o
  | some _ =>
    match o.call w .pause with
    | (o, true) =>
      (o.onSession fun s => { s with stream := some false }).notify id .suspended
    | (o, false) => o

/-- Resumes the stream of a session. -/
def resume (w : World) (o : Output) (id : Nat) : Output :=
  match (o.live id).bind (·.stream) with
  | none => o
  | some _ =>
    match o.call w .play with
    | (o, true) => (o.onSession fun s => { s with stream := some true }).notify id .active
    | (o, false) => o

/-- Stops a session: its stream is paused and it counts as idle. -/
def stop (w : World) (o : Output) (id : Nat) : Output :=
  match o.live id with
  | none => o
  | some s =>
    match s.stream with
    | none => o.fire
    | some _ =>
      match o.call w .pause with
      | (o, true) => (o.onSession fun s => { s with stream := some false }).fire
      | (o, false) => o.fire

/-- Fades a session out; without a stream it is idle at once. -/
def fadeOut (o : Output) (id : Nat) (window : Span) : Output :=
  match o.live id with
  | none => o
  | some s =>
    match s.playing, s.stream with
    | some i, some _ => o.onReel i (·.fadeOut window)
    | _, _ => o.fire

/-- Seeks in a session. -/
def seek (o : Output) (id : Nat) (position : Span) : Output :=
  match (o.live id).bind (·.playing) with
  | some i => o.onReel i (·.seek position)
  | none => o

/-- Sets the tempo of this and all later sessions. -/
def setTempo (o : Output) (tempo : Float32) : Output :=
  let o := { o with tempo }
  match o.session.bind (·.playing) with
  | some i => o.onReel i (·.setTempo tempo)
  | none => o

/-- Handles a request. The tracks are those of the playlist at this moment. -/
def handle (w : World) (o : Output) (tracks : Playlist) : Request → Output
  | .start session track seek => o.start w session track (tracks.track? track) seek
  | .suspend id => o.suspend w id
  | .resume id => o.resume w id
  | .stop id => o.stop w id
  | .fadeOut id window => o.fadeOut id window
  | .seek id position => o.seek id position
  | .tempo tempo => o.setTempo tempo
  | .shutdown => { o.teardown with phase := .closed }

/-- Handles an idle signal: the first one of the running session is reported. -/
def onIdle (o : Output) (id : Nat) : Output :=
  match o.live id with
  | none => o
  | some s =>
    if s.reported then o
    else { o with session := some { s with reported := true } }.notify id .idle

/-- Goes on after an acknowledgement. A session reported idle has ended. -/
def acknowledged (o : Output) : Output :=
  match o.phase with
  | .reporting n =>
    let o := { o with phase := .ready }
    if n.event = .idle ∧ (o.live n.session).isSome then o.teardown else o
  | _ => o

/-- How long the card has been fed in this session. -/
def played (w : World) (o : Output) : Span :=
  if 0 < w.format.rate then
    let seconds := Number.Binary.double.quotient o.counters.playedFrames w.format.rate
    (Span.ofDouble? seconds).getD .zero
  else .zero

/-- The reel whose stream the card can call, and whether the stream runs. -/
def stream? (o : Output) : Option (Nat × Bool) :=
  o.session.bind fun s => s.stream.bind fun running => s.playing.map fun i => (i, running)

/-- The card asks for samples: what it gets, if a stream runs. -/
def render (w : World) (o : Output) (volume : Float32) (card : Array Nat) :
    Option (Output × Array Nat) :=
  match o.session, o.stream? with
  | some s, some (i, true) =>
    (o.reels[i]?).map fun reel =>
      let p : Playback := ⟨reel.chain, o.counters, ⟨s.id, s.fired⟩⟩
      let r := w.renderer.render volume p card
      ({ (o.onReel i fun _ => r.playback.chain) with
          counters := r.playback.counters
          session := some { s with fired := r.playback.idle.fired }
          idle := o.idle ++ r.posted }, r.card)
  | _, _ => none

end Output

end Jukebox.Deck
