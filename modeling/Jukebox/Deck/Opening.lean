import Jukebox.Deck
import Jukebox.Device.Choice
import Jukebox.Fault

/-!
Opening a deck on a sound card. What was asked for decides how a failure is worded: where a card or
a rate was named, the failure is one of the output device.
-/

namespace Jukebox.Deck

/-- Why a deck could not be opened. -/
inductive OpeningFault where
  /-- The card could not be opened; texts outermost first. -/
  | card (texts : List String)
  /-- The output side died before it could say anything. -/
  | gone

/-- The texts of a fault, outermost first. -/
def OpeningFault.messages : OpeningFault → List String
  | .card texts => "open output backend" :: texts
  | .gone => ["output thread exited during startup"]

/-- A choice that failed, told as a fault of the output device. -/
def OpeningFault.device (e : Device.ChoiceFault) : OpeningFault :=
  .card [(Fault.device (": ".intercalate e.messages)).message]

/-- Chooses a card for a deck. -/
def choose (h : Device.Host) (needle : Option String) (rate : Option Nat) :
    Except OpeningFault Device.Selection :=
  (h.select needle rate).mapError .device

end Jukebox.Deck
