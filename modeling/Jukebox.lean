import Jukebox.Main
import Jukebox.Proofs.Buffer.Bounds
import Jukebox.Proofs.Buffer.Clock
import Jukebox.Proofs.Buffer.Ending
import Jukebox.Proofs.Buffer.Refinement
import Jukebox.Proofs.Buffer.Seeking
import Jukebox.Proofs.Buffer.Waiting
import Jukebox.Proofs.Chain.Fade
import Jukebox.Proofs.Console.Ending
import Jukebox.Proofs.Console.Grammar
import Jukebox.Proofs.Deck.Account
import Jukebox.Proofs.Deck.Cursor
import Jukebox.Proofs.Deck.Failing
import Jukebox.Proofs.Deck.Fate
import Jukebox.Proofs.Deck.History
import Jukebox.Proofs.Deck.LastWord
import Jukebox.Proofs.Deck.Notices
import Jukebox.Proofs.Deck.Producers
import Jukebox.Proofs.Deck.Seek
import Jukebox.Proofs.Deck.Stop
import Jukebox.Proofs.Decode.Length
import Jukebox.Proofs.Decode.Return
import Jukebox.Proofs.Device.Playable
import Jukebox.Proofs.Format.Alignment
import Jukebox.Proofs.Greatest
import Jukebox.Proofs.Media.Choice
import Jukebox.Proofs.Playback.Callback
import Jukebox.Proofs.Playlist.Stepping
import Jukebox.Proofs.Rate.Room
import Jukebox.Proofs.Source.Aim
import Jukebox.Source
