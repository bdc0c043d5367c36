import Jukebox.Buffer

/-!
Consumers that wait for the first data of a buffer. One that asks is either answered at once or
sleeps; a sleeper wakes as soon as the buffer has an answer, and is told what holds at that moment.

Sleepers do not watch the buffer. They sleep until an operation calls them, and then look once more,
sooner or later; a lobby is a buffer with those who came to it and with the calls they have heard.
-/

namespace Jukebox

/-- Somebody who waits for first data. -/
inductive Waiter where
  | asleep
  | answered (hasData : Bool)
  deriving DecidableEq

namespace Waiter

/-- A waiter who arrives at a buffer. -/
def arrive (b : Buffer) : Waiter :=
  match b.wait? with
  | some hasData => .answered hasData
  | none => .asleep

/-- A waiter after the buffer has changed. -/
def wake (b : Buffer) : Waiter → Waiter
  | .asleep => arrive b
  | .answered hasData => .answered hasData

end Waiter

/-- Does an operation call those who sleep? The first bytes do, the first end of the input, and every
abort. -/
def Buffer.calls (b : Buffer) : Buffer.Op → Bool
  | .write bytes => !b.dataReady && (b.write bytes).1.dataReady
  | .endInput => !b.ended
  | .abort | .fail => true
  | .size _ | .read _ | .seekFrame _ | .seek _ => false

/-- Somebody who came to a lobby. -/
structure Guest where
  waiter : Waiter := .asleep
  /-- On the way to look at the buffer: just come, or called. -/
  roused : Bool := true
  deriving DecidableEq

namespace Guest

/-- Sleeps until somebody calls. -/
def isBlocked (g : Guest) : Bool := decide (g.waiter = .asleep) && !g.roused

def call (g : Guest) : Guest := { g with roused := true }

/-- Looks at the buffer, and goes to sleep if there is no answer. -/
def look (b : Buffer) (g : Guest) : Guest := { waiter := g.waiter.wake b, roused := false }

end Guest

/-- A buffer and those who came to wait for its first data. -/
structure Lobby where
  buffer : Buffer
  guests : List Guest := []

namespace Lobby

/-- A lobby that nobody has come to. -/
def empty (f : Format) : Lobby := { buffer := Buffer.empty f }

/-- What happens in a lobby. -/
inductive Move where
  | enter
  | operate (op : Buffer.Op)
  /-- A guest looks at the buffer. Even one whom nobody has called may do so. -/
  | look (i : Nat)

def step (l : Lobby) : Move → Lobby
  | .enter => { l with guests := l.guests ++ [{}] }
  | .operate op =>
    { buffer := l.buffer.apply op
      guests := if l.buffer.calls op then l.guests.map Guest.call else l.guests }
  | .look i => { l with guests := l.guests.modify i (Guest.look l.buffer) }

/-- The lobby after all of these. -/
def run (l : Lobby) (moves : List Move) : Lobby := moves.foldl step l

end Lobby

end Jukebox
