import Jukebox.Deck

/-!
The two sides of a deck without what their talk does not depend on. A sleeve is a reel without its
audio: whose it is, and whether it fades. A sketch of the output side keeps the sleeves, the session
and the mailbox; a sketch of the control side keeps the transport, the playlist and the requests,
and leaves out the bookkeeping for subscribers.
-/

namespace Jukebox

/-- The titles of a playlist. -/
def Playlist.titles (p : Playlist) : List String := p.tracks.map (·.title)

/-- The keys of a playlist. -/
def Playlist.keys (p : Playlist) : List (Option Nat) := p.tracks.map (·.key)

/-- The playlist where a fade leads. -/
def Transport.Target.step (p : Playlist) : Transport.Target → Playlist
  | .current => p
  | .next => p.next.1
  | .prev => p.prev.1

namespace Deck

/-- A reel without its audio. -/
structure Sleeve where
  session : Nat
  track : Nat
  title : String
  fades : Bool

def Reel.sleeve (r : Reel) : Sleeve := ⟨r.session, r.track, r.title, r.chain.fade.isSome⟩

/-- The sleeve of the same reel with a fade on it. -/
def Sleeve.fade (s : Sleeve) : Sleeve := { s with fades := true }

/-- The output side without audio and hardware. -/
structure Output.Sketch where
  sleeves : List Sleeve
  session : Option Session
  phase : Phase
  idle : List Nat
  taken : Nat
  nowPlaying : Option String
  shownReel : Option Nat

def Output.sketch (o : Output) : Output.Sketch where
  sleeves := o.reels.map Reel.sleeve
  session := o.session
  phase := o.phase
  idle := o.idle
  taken := o.taken
  nowPlaying := o.nowPlaying
  shownReel := o.shownReel

/-- The control side without its bookkeeping. -/
structure Control.Sketch where
  state : Transport.State
  session : Nat
  held : Option Nat
  playlist : Playlist
  pendingSeek : Option Span
  sent : List Request
  closed : Bool

def Control.sketch (c : Control) : Control.Sketch where
  state := c.state
  session := c.session
  held := c.held
  playlist := c.playlist
  pendingSeek := c.pendingSeek
  sent := c.sent
  closed := c.closed

namespace Output.Sketch

/-- The running session, if it is the one with this number. -/
def live (f : Sketch) (id : Nat) : Option Session := f.session.filter (·.id = id)

/-- Without its session, and with nothing on show. -/
def clear (f : Sketch) : Sketch :=
  { f with
      session := none
      nowPlaying := if f.session.isSome then none else f.nowPlaying
      shownReel := if f.session.isSome then none else f.shownReel }

@[simp] theorem session_clear (f : Sketch) : f.clear.session = none := rfl

/-- With the idle signal of a session posted. -/
def fire (f : Sketch) (z : Session) : Sketch :=
  { f with
      session := some { z with fired := true }
      idle := f.idle ++ if z.fired then [] else [z.id] }

end Output.Sketch

namespace Control.Sketch

/-- With one more request. -/
def ask (k : Sketch) (r : Request) : Sketch := { k with sent := k.sent ++ [r] }

/-- With a new session for a track. -/
def begin (k : Sketch) (p : Playlist) (track : Nat) : Sketch :=
  { k with
      state := .starting
      session := k.session + 1
      held := some track
      playlist := p
      pendingSeek := none
      sent := k.sent ++ [.start (k.session + 1) track k.pendingSeek] }

/-- The playlist with the current track marked. -/
def marked (k : Sketch) : Playlist :=
  match k.held with
  | none => k.playlist
  | some track => k.playlist.mark track

/-- At the end of the last track. -/
def finish (k : Sketch) (p : Playlist) : Sketch :=
  { k with state := .stopped, held := none, playlist := p }

end Control.Sketch

end Deck

end Jukebox
