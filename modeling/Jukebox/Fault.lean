import Jukebox.Text.Quoted

/-!
What can go wrong while a track is opened, decoded, converted or played, as causes. The wording of a
cause is in `message` alone.
-/

namespace Jukebox

/-- Why the system refused to open a file. -/
inductive OpenRefusal where | notFound | notDirectory | zeroByte
  deriving DecidableEq

def OpenRefusal.message : OpenRefusal → String
  | .notFound => "No such file or directory (os error 2)"
  | .notDirectory => "Not a directory (os error 20)"
  | .zeroByte => "file name contained an unexpected NUL byte"

/-- Why samples could not be converted. -/
inductive ConversionFault where
  /-- A frame has another rate or other channels than the ones before it. -/
  | layoutChanged (fromRate fromChannels toRate toChannels : Nat)
  /-- No filter exists for this ratio of rates. -/
  | noFilter
  /-- The receiver of the frames refused one. -/
  | refused (reason : String)
  deriving DecidableEq

def ConversionFault.message : ConversionFault → String
  | .layoutChanged r c r' c' =>
    "source layout changed from " ++ toString r ++ "Hz/" ++ toString c ++ "ch to " ++
      toString r' ++ "Hz/" ++ toString c' ++ "ch"
  | .noFilter => "resampler init"
  | .refused reason => reason

/-- What went wrong with a track or the device. -/
inductive Fault where
  | openFailed (path : String) (reason : OpenRefusal)
  | unknownContainer
  | noAudioStream
  | decoderUnavailable
  | badPacket
  | conversion (cause : ConversionFault)
  | unknownDuration
  | durationAlreadySet
  | noInitialData
  | device (reason : String)
  deriving DecidableEq

def Fault.message : Fault → String
  | .openFailed path reason => "cannot open " ++ Text.quoted path ++ ": " ++ reason.message
  | .unknownContainer => "cannot probe container"
  | .noAudioStream => "no decodable audio stream"
  | .decoderUnavailable => "cannot open decoder"
  | .badPacket => "decode failed"
  | .conversion cause => "conversion failed: " ++ cause.message
  | .unknownDuration => "track duration is unknown"
  | .durationAlreadySet => "buffer duration already set"
  | .noInitialData => "no audio data was produced"
  | .device reason => "output device error: " ++ reason

end Jukebox
