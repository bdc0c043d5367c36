import Jukebox.Playlist
import Jukebox.Render
import Jukebox.Transport

/-!
What the two sides of a deck and the people around it say to each other. Users give commands to the
control side; the control side sends requests to the output side, which owns the sound card; the
output side reports with notices, one at a time, each of which the control side acknowledges.
Subscribers are told what happens. Tracks are known by their index in the playlist, and every start
of a track is a session with a number of its own.
-/

namespace Jukebox.Deck

/-- What a user wants. -/
inductive Command where
  | play | pause | resume | togglePause | stop | next | prev
  | seek (position : Span)
  | setTempo (tempo : Float32)
  | subscribe
  | shutdown

/-- Work for the output side. All but tempo and shutdown belong to one session. -/
inductive Request where
  | start (session track : Nat) (seek : Option Span)
  | suspend (session : Nat)
  | resume (session : Nat)
  | stop (session : Nat)
  | fadeOut (session : Nat) (window : Span)
  | seek (session : Nat) (position : Span)
  | tempo (tempo : Float32)
  | shutdown

/-- The track a request starts. -/
def Request.started? : Request → Option Nat
  | .start _ track _ => some track
  | _ => none

/-- What the device did. -/
inductive DeviceEvent where | active | suspended | idle | failed
  deriving DecidableEq

/-- A report of the output side on a session. -/
structure Notice where
  session : Nat
  event : DeviceEvent
  deriving DecidableEq

/-- What subscribers are told. -/
inductive Notification where
  | stateChanged (before after : Transport.State)
  | started (title : String)
  | unplayable (title : String)
  deriving DecidableEq

/-- What the playlist is told: a track is heard for the first time, or it is done with after so much
playing time. -/
inductive Entry where
  | started (track : Nat)
  | finished (track : Nat) (played : Span)
  deriving DecidableEq

/-- The track an entry closes. -/
def Entry.finished? : Entry → Option Nat
  | .finished track _ => some track
  | .started _ => none

/-- The lengths of the two fades. -/
structure Fades where
  stop : Span := .ofMillis 500
  skip : Span := .ofMillis 250
  deriving DecidableEq

def Fades.window (f : Fades) : Transport.FadeKind → Span
  | .stop => f.stop
  | .skip => f.skip

end Jukebox.Deck
