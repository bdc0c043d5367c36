import Jukebox.Deck.Message

/-!
The control side of a deck. It owns the transport, the playlist and the current track, and handles
one command or one notice at a time: it asks the transport table for the next state and does what
the table says, in order. Notices of earlier sessions are ignored. How long the card has been fed in
the running session is known to the output side only, so it comes with every step.
-/

namespace Jukebox.Deck

/-- The control side. -/
structure Control where
  fades : Fades := {}
  playlist : Playlist
  state : Transport.State := .stopped
  /-- The track that was started last and is not released yet. -/
  held : Option Nat := none
  /-- Tracks replaced by a start and not released yet, with their playing time. -/
  retired : List (Nat × Span) := []
  /-- The number of the last start. -/
  session : Nat := 0
  /-- The start of this session has been announced. -/
  announced : Bool := false
  /-- Where the next start is to begin. -/
  pendingSeek : Option Span := none
  /-- The state that the status tells. -/
  shown : Transport.State := .stopped
  /-- The tempo that the status tells. -/
  tempo : Float32 := 1.0
  /-- All requests sent, oldest first. -/
  sent : List Request := []
  /-- What each subscriber has been told, oldest first. -/
  inboxes : List (List Notification) := []
  /-- What the playlist has been told, oldest first. -/
  ledger : List Entry := []
  /-- The control side has ended. -/
  closed : Bool := false

namespace Control

/-- Sends a request to the output side. -/
def request (c : Control) (r : Request) : Control := { c with sent := c.sent ++ [r] }

/-- Tells all subscribers. -/
def notify (c : Control) (n : Notification) : Control :=
  { c with inboxes := c.inboxes.map (· ++ [n]) }

/-- Tells the playlist. -/
def record (c : Control) (e : Entry) : Control := { c with ledger := c.ledger ++ [e] }

/-- The title of a track. -/
def title (c : Control) (track : Nat) : String :=
  ((c.playlist.track? track).map (·.title)).getD ""

/-- Which tracks there are around the cursor. -/
def around (c : Control) : Transport.Around where
  current := c.playlist.current?.isSome
  next := c.playlist.hasNext
  prev := c.playlist.hasPrev

/-- Starts the track at the cursor as a new session. -/
def startTrack (c : Control) (played : Span) : Control :=
  match c.playlist.current? with
  | none => { c with state := .stopped }
  | some track =>
    let retired := c.retired ++ (c.held.map fun old => (old, played)).toList
    { c with
        held := some track
        retired
        session := c.session + 1
        announced := false
        pendingSeek := none }.request (.start (c.session + 1) track c.pendingSeek)

/-- Steps in the playlist. -/
def advance (c : Control) (direction : Transport.Direction) : Control :=
  { c with playlist := (match direction with
      | .next => c.playlist.next
      | .prev => c.playlist.prev).1 }

/-- Marks the current track as one that cannot be played. -/
def markUnplayable (c : Control) : Control :=
  match c.held with
  | none => c
  | some track =>
    { c with playlist := c.playlist.mark track }.notify (.unplayable (c.title track))

/-- Releases the tracks that were replaced, and the current one when the player has stopped. -/
def releaseTrack (c : Control) (played : Span) : Control :=
  let c := c.retired.foldl (fun c (track, played) => c.record (.finished track played))
    { c with retired := [] }
  if c.state = .stopped then
    match c.held with
    | none => c
    | some track => { c with held := none }.record (.finished track played)
  else c

/-- Does what the transport table asks for. -/
def perform (played : Span) (c : Control) (e : Transport.Effect) : Control :=
  match e with
  | .startTrack => c.startTrack played
  | .suspendDevice => c.request (.suspend c.session)
  | .resumeDevice => c.request (.resume c.session)
  | .stopDevice => c.request (.stop c.session)
  | .fadeOut kind => c.request (.fadeOut c.session (c.fades.window kind))
  | .advance direction => c.advance direction
  | .markUnplayable => c.markUnplayable
  | .releaseTrack => c.releaseTrack played

/-- Shows the state to the world if it is not the one before. -/
def publish (c : Control) (before : Transport.State) : Control :=
  if c.state = before then c
  else { c with shown := c.state }.notify (.stateChanged before c.state)

/-- Takes an event through the transport table. -/
def dispatch (c : Control) (played : Span) (e : Transport.Event) : Control :=
  let (state, effects) := Transport.transition c.state e c.around
  (effects.foldl (perform played) { c with state }).publish c.state

/-- Seeks in the running track; while stopped, where the next one starts. Not while fading. -/
def seek (c : Control) (position : Span) : Control :=
  match c.state with
  | .stopped => { c with pendingSeek := some position }
  | .playing | .paused | .starting => c.request (.seek c.session position)
  | .fadingToStop | .fadingTo _ => c

/-- Sets the tempo, which is a positive number. -/
def setTempo (c : Control) (tempo : Float32) : Control :=
  if tempo.isFinite && 0.0 < tempo then { c with tempo }.request (.tempo tempo) else c

/-- Handles a command. -/
def onCommand (c : Control) (played : Span) : Command → Control
  | .play => c.dispatch played .start
  | .pause => c.dispatch played .pause
  | .resume => c.dispatch played .resume
  | .togglePause =>
    if c.state = .paused then c.dispatch played .resume
    else if c.state.isRunning then c.dispatch played .pause
    else c
  | .stop => c.dispatch played .stop
  | .next => c.dispatch played .next
  | .prev => c.dispatch played .prev
  | .seek position => c.seek position
  | .setTempo tempo => c.setTempo tempo
  | .subscribe => { c with inboxes := c.inboxes ++ [[]] }
  | .shutdown => { c with closed := true }.request .shutdown

/-- Announces the track of this session, once. -/
def announce (c : Control) : Control :=
  if c.announced then c
  else
    let c := { c with announced := true }
    match c.held with
    | none => c
    | some track => (c.record (.started track)).notify (.started (c.title track))

/-- Handles a notice; one of another session is ignored. -/
def onNotice (c : Control) (played : Span) (n : Notice) : Control :=
  if n.session = c.session then
    match n.event with
    | .active => c.announce.dispatch played .deviceActive
    | .suspended => c.dispatch played .deviceSuspended
    | .idle => c.dispatch played .deviceIdle
    | .failed => c.dispatch played .trackFailed
  else c

end Control

end Jukebox.Deck
