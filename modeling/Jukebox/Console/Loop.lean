import Jukebox.Console.Prompt
import Jukebox.Deck.Message

/-!
The loop of the program: it waits for a line of the prompt, for the prompt to close, for news of the
player, or for an interrupt, whichever comes first, and says what is to be done. It ends when it is
told to, when the player stops after the prompt has closed, or when no more news can come.
-/

namespace Jukebox.Console

/-- What can reach the loop. -/
inductive Signal where
  | line (text : String)
  | closed
  | news (n : Deck.Notification)
  /-- Nobody is left to tell any news. -/
  | silence
  | interrupt

/-- What the loop wants done. -/
inductive Action where
  | say (text : String)
  | command (c : Deck.Command)
  | volume (volume : Float32)
  | tellStatus

/-- The loop: is the prompt open, and does the loop still wait? -/
structure Loop where
  listening : Bool := true
  running : Bool := true
  deriving DecidableEq

namespace Loop

/-- What is said to a line that asks for nothing. -/
def help : String := "? p n b s g i | seek <secs> | tempo <coef> | vol <0..1> | q"

/-- What a line wants done, unless it ends the program. -/
def actions : Input → List Action
  | .togglePause => [.command .togglePause]
  | .next => [.command .next]
  | .prev => [.command .prev]
  | .stop => [.command .stop]
  | .play => [.command .play]
  | .status => [.tellStatus]
  | .quit => []
  | .seek position => [.command (.seek position)]
  | .tempo tempo => [.command (.setTempo tempo)]
  | .volume volume => [.volume volume]

/-- Takes a line. -/
def line (l : Loop) (text : String) : Loop × List Action :=
  match Input.parse? text with
  | none => (l, [.say help])
  | some .quit => ({ l with running := false }, [])
  | some input => (l, actions input)

/-- Takes news of the player. -/
def news (l : Loop) : Deck.Notification → Loop × List Action
  | .started title => (l, [.say ("> " ++ title)])
  | .unplayable title => (l, [.say ("! cannot play " ++ title)])
  | .stateChanged _ after =>
    if after = .stopped ∧ ¬ l.listening then ({ l with running := false }, []) else (l, [])

/-- Takes a signal. A loop that has ended takes none, and a closed prompt has no lines. -/
def step (l : Loop) (s : Signal) : Loop × List Action :=
  if ¬ l.running then (l, [])
  else match s with
    | .line text => if l.listening then l.line text else (l, [])
    | .closed => ({ l with listening := false }, [])
    | .news n => l.news n
    | .silence | .interrupt => ({ l with running := false }, [])

/-- Takes signals one after the other: the loop after them. -/
def run (l : Loop) (signals : List Signal) : Loop :=
  signals.foldl (fun l s => (l.step s).1) l

end Loop

end Jukebox.Console
