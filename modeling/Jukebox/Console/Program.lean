import Jukebox.Console.Arguments
import Jukebox.Console.Loop
import Jukebox.Decode
import Jukebox.Deck.Opening

/-!
The program as a whole: its words are read, a sound card is chosen, the files become a playlist, and
a deck plays it while the loop takes lines from the prompt and news from the deck. Whatever comes
from outside is handled until the deck is at rest and all its news have been taken.
-/

namespace Jukebox.Console

/-- The machine the program runs on. -/
structure Machine where
  host : Device.Host
  refuses : Deck.Call → Nat → Bool
  /-- The bytes of the file at a path, if there is one. -/
  file : String → Option Bytes

/-- A running program. -/
structure Program where
  world : Deck.World
  card : Device.Selection
  deck : Deck
  loop : Loop := {}
  /-- How many news have been taken. -/
  told : Nat := 0
  /-- Bytes of a line that is not finished. -/
  unfinished : List UInt8 := []
  /-- Lines printed so far. -/
  out : List String := []

/-- How a program ends: its exit code, what it printed, and its complaint. -/
structure Exit where
  code : Nat
  out : List String := []
  complaint : Option String := none

/-- What becomes of a program when it is started. -/
inductive Start where
  | ended (e : Exit)
  | running (p : Program)

/-- What the program says about its words. -/
def usage : List String := [
  "Usage: player [OPTIONS] [PATHS]...",
  "",
  "Arguments:",
  "  [PATHS]...  Audio files to play, in order",
  "",
  "Options:",
  "      --list-devices",
  "          List output devices and exit",
  "      --device <DEVICE>",
  "          Use a specific output device by substring match",
  "      --chunk-frames <CHUNK_FRAMES>",
  "          Resampler input chunk size in frames (higher => more latency, lower => more overhead) [default: 1024]",
  "      --refill-max-frames <REFILL_MAX_FRAMES>",
  "          Playback callback refill cap (frames) [default: 4096]",
  "      --stop-fade-ms <STOP_FADE_MS>",
  "          Fade-out length when stopping, in milliseconds [default: 500]",
  "      --skip-fade-ms <SKIP_FADE_MS>",
  "          Fade-out length when skipping, in milliseconds [default: 250]",
  "      --rate <RATE>",
  "          Preferred output sample rate in Hz (0 = highest the device supports) [default: 48000]",
  "      --volume <VOLUME>",
  "          Initial volume, 0.0 to 1.0 [default: 1]",
  "  -h, --help",
  "          Print help",
  "  -V, --version",
  "          Print version"]

/-- A complaint with its causes. A single cause is not numbered. -/
def complaint (text : String) (causes : List String) : String :=
  let lines := match causes with
    | [cause] => "    " ++ cause ++ "\n"
    | _ => String.join (causes.zipIdx.map fun (cause, i) =>
        "    " ++ toString i ++ ": " ++ cause ++ "\n")
  "Error: " ++ text ++ "\n" ++ if causes.isEmpty then "" else "\nCaused by:\n" ++ lines

/-- The complaint about texts, outermost first. -/
def complaintOf : List String → String
  | [] => complaint "" []
  | text :: causes => complaint text causes

namespace Program

/-- What the deck plays on: a card chosen as asked, and files decoded from start to end. -/
def worldOf (m : Machine) (s : Setup) (card : Device.Selection) : Deck.World where
  format := card.format
  renderer := ⟨card.kind, s.refillMaxFrames⟩
  refuses := m.refuses
  load := fun _ _ track =>
    (m.file track.path).map fun data =>
      Decode.file { chunk := s.chunkFrames, limit := track.limit } data card.format

/-- What the status tells. -/
def status (p : Program) : Snapshot :=
  (p.deck.status p.world (some p.card.card) p.card.buffer).snapshot

/-- The status on one line. -/
def statusLine (s : Snapshot) : String :=
  let twoPlaces (x : Float32) := Number.toTwoPlaces .single x.toBits.toNat
  " | ".intercalate [s.state.text, s.nowPlaying.getD "-",
    toString (s.position.getD 0) ++ " / " ++ toString (s.duration.getD 0) ++ " ms",
    "vol " ++ twoPlaces s.volume, "tempo " ++ twoPlaces s.tempo,
    "underruns " ++ toString s.underrunEvents]

/-- Prints a line. -/
def say (p : Program) (text : String) : Program := { p with out := p.out ++ [text] }

/-- Does what the loop wants. A command is given and not waited for. -/
def act (p : Program) : Action → Program
  | .say text => p.say text
  | .command c => { p with deck := p.deck.give c }
  | .volume volume => { p with deck := p.deck.setVolume volume }
  | .tellStatus => p.say (statusLine p.status)

/-- Gives a signal to the loop and does what it wants. -/
def signal (p : Program) (s : Signal) : Program :=
  let (loop, actions) := p.loop.step s
  actions.foldl act { p with loop }

/-- News of the deck that have not been taken. -/
def news (p : Program) : List Deck.Notification :=
  ((p.deck.control.inboxes.head?).getD []).drop p.told

/-- Takes the news of the deck. No news makes the deck do anything. -/
def catchUp (p : Program) : Program :=
  let news := p.news
  news.foldl (fun p n => p.signal (.news n)) { p with told := p.told + news.length }

/-- Lets the deck come to rest and takes the news that follow. -/
def rest (p : Program) : Program := { p with deck := p.deck.settle p.world }.catchUp

/-- Gives a signal to the loop and waits for what becomes of it. -/
def handle (p : Program) (s : Signal) : Program :=
  if p.loop.running then (p.signal s).rest else p

/-- Takes what is left of the prompt when it closes. The prompt is closed before any news of the
last line arrive. -/
def close (p : Program) : Program :=
  let rest := p.unfinished
  let p := { p with unfinished := [] }
  match String.fromUTF8? ⟨rest.toArray⟩ with
  | some text => (if rest.isEmpty then p else p.signal (.line text)).handle .closed
  | none => p.handle .closed

/-- Takes a byte of the prompt. A line that is no text closes it. -/
def byte (p : Program) (b : UInt8) : Program :=
  if ¬ p.loop.listening then p
  else if b = 10 then
    let line := p.unfinished
    let p := { p with unfinished := [] }
    match String.fromUTF8? ⟨line.toArray⟩ with
    | some text => p.handle (.line text)
    | none => p.handle .closed
  else { p with unfinished := p.unfinished ++ [b] }

/-- Takes bytes of the prompt. Of lines that come at once each is handled before the next is taken. -/
def typed (p : Program) (bytes : Bytes) : Program := bytes.foldl byte p

/-- The card asks for samples. -/
def render (p : Program) (card : Array Nat) : Program × Deck.CardAnswer :=
  let (deck, answer) := p.deck.render p.world card
  ({ p with deck }.catchUp, answer)

/-- Starts the program on its words, behind its own name. -/
def start (m : Machine) (words : List String) : Start :=
  match Arguments.parse words with
  | .error .help => .ended { code := 0, out := usage }
  | .error .version => .ended { code := 0, out := ["player 0.1.0"] }
  | .error _ => .ended { code := 2 }
  | .ok a =>
    if a.listDevices then
      let (lines, fault) := m.host.listing
      match fault with
      | none => .ended { code := 0, out := lines }
      | some e => .ended { code := 1, out := lines, complaint := some (complaintOf e.messages) }
    else
      let setup := a.setup
      match Deck.choose m.host setup.device setup.targetRate with
      | .error e =>
        .ended { code := 1, complaint := some (complaintOf ("start player" :: e.messages)) }
      | .ok card =>
        let world := worldOf m setup card
        let fades : Deck.Fades := { stop := setup.stopFade, skip := setup.skipFade }
        let deck := Deck.initial fades ⟨a.paths.map Track.ofPath, 0⟩
        let deck := ((deck.setVolume a.volume).command world .subscribe).command world .play
        .running ({ world, card, deck : Program }).catchUp

end Program

end Jukebox.Console
