import Jukebox.Path
import Jukebox.Span

/-!
Tracks in a fixed order with a cursor. A track that could not be played is marked, and stepping
passes over marked tracks: forwards to the first playable one behind the cursor, backwards to the
last playable one before it. A list may hold one track in several places; what is done to it in one
of them is done in all.
-/

namespace Jukebox

/-- A track of a list. -/
structure Track where
  path : String
  title : String
  /-- The longest part of it that is to be played. -/
  limit : Option Span := none
  playable : Bool := true
  /-- Entries of a list with one key are one track; an entry without a key stands for itself. -/
  key : Option Nat := none
  deriving DecidableEq

/-- The track of a file. -/
def Track.ofPath (path : String) : Track := { path, title := Path.title path }

/-- Tracks in order, and the one to play. -/
structure Playlist where
  tracks : List Track
  cursor : Nat := 0

namespace Playlist

def size (p : Playlist) : Nat := p.tracks.length

def isEmpty (p : Playlist) : Bool := p.tracks.isEmpty

/-- The track at an index. -/
def track? (p : Playlist) (i : Nat) : Option Track := p.tracks[i]?

/-- The key of the track at an index. -/
def key? (p : Playlist) (i : Nat) : Option Nat := (p.track? i).bind (·.key)

/-- Does the same track stand at these two indices? -/
def isSame (p : Playlist) (i j : Nat) : Bool :=
  i = j || ((p.key? i).isSome && p.key? i = p.key? j)

/-- Can the track at an index be played? -/
def isPlayable (p : Playlist) (i : Nat) : Bool := (p.track? i).any (·.playable)

/-- The index of the current track. -/
def current? (p : Playlist) : Option Nat := if p.cursor < p.size then some p.cursor else none

/-- The first playable index behind the cursor. -/
def nextIndex? (p : Playlist) : Option Nat :=
  (List.range p.size).find? fun i => p.cursor < i && p.isPlayable i

/-- The last playable index before the cursor. -/
def prevIndex? (p : Playlist) : Option Nat :=
  (List.range (min p.cursor p.size)).reverse.find? fun i => p.isPlayable i

def hasNext (p : Playlist) : Bool := p.nextIndex?.isSome

def hasPrev (p : Playlist) : Bool := p.prevIndex?.isSome

/-- Moves to an index if there is one. -/
def moveTo (p : Playlist) (i? : Option Nat) : Playlist × Option Nat :=
  match i? with
  | some i => ({ p with cursor := i }, some i)
  | none => (p, none)

/-- Steps forwards. -/
def next (p : Playlist) : Playlist × Option Nat := p.moveTo p.nextIndex?

/-- Steps backwards. -/
def prev (p : Playlist) : Playlist × Option Nat := p.moveTo p.prevIndex?

/-- Changes the track at an index, in all its places. -/
def update (p : Playlist) (i : Nat) (f : Track → Track) : Playlist :=
  { p with tracks := p.tracks.mapIdx fun j t => if p.isSame i j then f t else t }

/-- Marks a track as one that cannot be played. -/
def mark (p : Playlist) (i : Nat) : Playlist := p.update i fun t => { t with playable := false }

/-- Bounds how much of a track is played. -/
def setLimit (p : Playlist) (i : Nat) (limit : Option Span) : Playlist :=
  p.update i fun t => { t with limit }

end Playlist

end Jukebox
