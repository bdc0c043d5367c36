/-!
The transport of the player: the states it can be in, the events that move it between them, and what
has to be done on the way. `transition` is the whole table. A skip or a stop of a running track
fades it out first; what comes after the fade is part of the state, and the end of the fade reaches
the table as an idle report of the device.

    stopped ──start──▶ starting ──active──▶ playing ◀──active/suspended──▶ paused
                          │ start, next, prev, stop │
                          └──▶ fadingTo / fadingToStop ──idle──▶ starting / stopped
-/

namespace Jukebox.Transport

/-- Where a fade leads to. -/
inductive Target where | current | next | prev
  deriving DecidableEq

/-- A step in the playlist. -/
inductive Direction where | next | prev
  deriving DecidableEq

/-- What the player is doing. -/
inductive State where
  | stopped | starting | playing | paused | fadingToStop
  | fadingTo (target : Target)
  deriving DecidableEq

/-- What the user wants or the device reports. -/
inductive Event where
  | start | pause | resume | stop | next | prev
  | deviceActive | deviceSuspended | deviceIdle | trackFailed
  deriving DecidableEq

/-- Why a track fades out; the two windows can differ. -/
inductive FadeKind where | stop | skip
  deriving DecidableEq

/-- What has to be done for a transition. -/
inductive Effect where
  | startTrack | suspendDevice | resumeDevice | stopDevice
  | fadeOut (kind : FadeKind)
  | advance (direction : Direction)
  | markUnplayable | releaseTrack
  deriving DecidableEq

/-- Which tracks there are around the cursor of the playlist. -/
structure Around where
  current : Bool
  next : Bool
  prev : Bool
  deriving DecidableEq

/-- Is a track starting or playing? -/
def State.isRunning : State → Bool
  | .starting | .playing => true
  | _ => false

/-- Is a track fading out? -/
def State.isFading : State → Bool
  | .fadingToStop | .fadingTo _ => true
  | _ => false

def Target.text : Target → String
  | .current => "Current"
  | .next => "Next"
  | .prev => "Prev"

/-- The state in words. -/
def State.text : State → String
  | .stopped => "stopped"
  | .starting => "starting"
  | .playing => "playing"
  | .paused => "paused"
  | .fadingToStop => "fading to stop"
  | .fadingTo target => "fading to " ++ target.text

def Direction.target : Direction → Target
  | .next => .next
  | .prev => .prev

/-- A track boundary: the next track starts if there is one, with `first` done before. -/
def boundary (first : List Effect) (around : Around) : State × List Effect :=
  if around.next then (.starting, first ++ [.advance .next, .startTrack, .releaseTrack])
  else (.stopped, first ++ [.releaseTrack])

/-- A skip in the playlist. -/
def skip (s : State) (direction : Direction) : State × List Effect :=
  match s with
  | .playing | .starting => (.fadingTo direction.target, [.fadeOut .skip])
  | .paused => (.fadingTo direction.target, [.stopDevice])
  | .stopped => (.stopped, [.advance direction])
  | .fadingTo _ | .fadingToStop => (s, [])

/-- The end of a fade to a track, which starts if it exists. -/
def arrival (target : Target) (around : Around) : State × List Effect :=
  match target with
  | .current =>
    if around.current then (.starting, [.startTrack, .releaseTrack])
    else (.stopped, [.releaseTrack])
  | .next =>
    if around.next then (.starting, [.advance .next, .startTrack, .releaseTrack])
    else (.stopped, [.releaseTrack])
  | .prev =>
    if around.prev then (.starting, [.advance .prev, .startTrack, .releaseTrack])
    else (.stopped, [.releaseTrack])

/-- The next state and what has to be done, in order. -/
def transition (s : State) (e : Event) (around : Around) : State × List Effect :=
  match s, e with
  | .stopped, .start => if around.current then (.starting, [.startTrack]) else (s, [])
  | .paused, .start =>
    if around.current then (.starting, [.startTrack, .releaseTrack]) else (s, [])
  | .playing, .start | .starting, .start => (.fadingTo .current, [.fadeOut .skip])
  | .fadingToStop, .start | .fadingTo _, .start => (.fadingTo .current, [])
  | .playing, .pause | .starting, .pause => (s, [.suspendDevice])
  | .paused, .resume => (s, [.resumeDevice])
  | .playing, .stop | .starting, .stop => (.fadingToStop, [.fadeOut .stop])
  | .fadingTo _, .stop | .fadingToStop, .stop => (.fadingToStop, [.stopDevice])
  | .paused, .stop => (s, [.stopDevice])
  | _, .next => skip s .next
  | _, .prev => skip s .prev
  | .starting, .deviceActive | .paused, .deviceActive => (.playing, [])
  | .playing, .deviceSuspended | .starting, .deviceSuspended => (.paused, [])
  | .playing, .deviceIdle | .starting, .deviceIdle => boundary [] around
  | .fadingToStop, .deviceIdle | .paused, .deviceIdle => (.stopped, [.releaseTrack])
  | .fadingTo target, .deviceIdle => arrival target around
  | .starting, .trackFailed => boundary [.markUnplayable] around
  | .fadingTo _, .trackFailed | .fadingToStop, .trackFailed => (s, [.markUnplayable])
  | _, _ => (s, [])

end Jukebox.Transport
