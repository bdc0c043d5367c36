import Jukebox.Proofs.Deck.Agreement

/-!
A deck at rest. All that is always true of a deck is put together here, and read where nothing is on
its way: the control side and the output side then tell the same about the stream, and the status
tells the title and the chain of the track that is held.
-/

namespace Jukebox.Deck

open Transport (State)

variable {w : World} {m : Move} {k k' : Control.Sketch} {f f' : Output.Sketch}

/-- All that is always true of a deck. -/
structure Sound (k : Control.Sketch) (f : Output.Sketch) : Prop where
  orderly : f.Orderly
  mail : Mail k f
  labels : Labels k f
  agrees : k.closed = false → Agrees k f

theorem Sound.shift (h : Sound k f) (hm : Shift w m k f k' f') : Sound k' f' :=
  ⟨h.orderly.shift hm, h.mail.shift hm, h.labels.shift h.mail hm,
    fun ho => Agrees.shift h.agrees h.orderly h.mail hm ho⟩

/-- While the player is paused no stream is going to be opened. -/
theorem Sound.not_waiting (h : Sound k f) (ho : k.closed = false) (hst : k.state = .paused)
    (i : Nat) (seek : Option Span) : f.phase ≠ .waiting i seek := by
  intro hp
  obtain ⟨-, z, r, hz, hr, -⟩ := (agrees_paused hst).1 (h.agrees ho)
  simp [(h.orderly.busy.waits hp hz).1] at hr

theorem sound_initial (fades : Fades) (playlist : Playlist) :
    Sound (initial fades playlist).control.sketch (initial fades playlist).output.sketch := by
  refine ⟨⟨.lost rfl, .ready rfl, .dark ?_ ⟨rfl, rfl⟩⟩, ?_, ?_, fun _ => ?_⟩
  · rintro z ⟨⟩
  · refine ⟨Nat.le_refl _, ⟨0, Nat.le_refl _, rfl, ?_⟩, ?_, fun _ => ?_⟩
    · rintro z ⟨⟩
    · rintro ⟨⟩
    · rintro ⟨⟩
  · refine ⟨?_, fun hs => absurd rfl hs, fun hs => absurd rfl hs⟩
    rintro s ⟨⟩
  · refine (agrees_stopped rfl).2 ⟨rfl, ?_, ?_⟩
    · rintro i seek ⟨⟩
    · rintro z ⟨⟩

theorem Reachable.sound {fades : Fades} {playlist : Playlist} {d : Deck}
    (h : Reachable w fades playlist d) : Sound d.control.sketch d.output.sketch :=
  h.keeps (sound_initial fades playlist) fun hs hm => hs.shift hm

/-! ### Rest -/

/-- What rest is. -/
theorem isQuiet_iff {d : Deck} : d.isQuiet ↔ d.commands = [] ∧
    d.control.sent.length ≤ d.output.taken ∧ d.output.idle = [] ∧ d.output.phase = .ready := by
  have hready : d.isReady ↔ d.output.phase = .ready := by
    unfold isReady
    cases d.output.phase <;> simp
  simp only [isQuiet, Bool.and_eq_true, List.isEmpty_iff, Option.isNone_iff_eq_none, nextRequest?,
    List.getElem?_eq_none_iff, hready]
  constructor
  · rintro ⟨⟨⟨⟨hc, hs⟩, -⟩, hi⟩, hp⟩
    exact ⟨hc, hs, hi, hp⟩
  · rintro ⟨hc, hs, hi, hp⟩
    exact ⟨⟨⟨⟨hc, hs⟩, notice?_of_ready hp⟩, hi⟩, hp⟩

/-- What rest means for the invariants. -/
structure Quiet (k : Control.Sketch) (f : Output.Sketch) : Prop where
  pending : pending k f = []
  idle : f.idle = []
  phase : f.phase = .ready

theorem quiet_of_isQuiet {d : Deck} (h : d.isQuiet) : Quiet d.control.sketch d.output.sketch := by
  obtain ⟨-, hs, hi, hp⟩ := isQuiet_iff.1 h
  exact ⟨List.drop_eq_nil_of_le hs, hi, hp⟩

namespace Quiet

theorem numbers (h : Quiet k f) : numbers (Deck.pending k f) = [] := by simp [h.pending]

theorem closed (h : Quiet k f) (hs : Sound k f) : k.closed = false := by
  refine Bool.eq_false_iff.2 fun hc => ?_
  rcases hs.mail.closing hc with hm | hp
  · simp [h.pending] at hm
  · simp [h.phase] at hp

/-- The session that is left is the one the control side means, and its end is not on its way. -/
theorem session (h : Quiet k f) (hs : Sound k f) {z : Session} (hz : f.session = some z) :
    z.id = k.session ∧ z.fired = false := by
  refine ⟨(hs.mail.current_iff hz).2 h.numbers, Bool.eq_false_iff.2 fun hf => ?_⟩
  rcases hs.orderly.signals.posted z hz hf with hr | hm
  · have hp := hs.orderly.signals.reported z hz hr
    simp [h.phase] at hp
  · simp [h.idle] at hm

/-- The stream does what the control side says. -/
theorem runs (h : Quiet k f) (hs : Sound k f) {running : Bool} (hr : f.Runs running) :
    ∃ z, f.session = some z ∧ z.id = k.session ∧ z.stream = some running := by
  obtain ⟨z, r, hz, ho, hrest⟩ := hr
  obtain ⟨hid, hf⟩ := h.session hs hz
  simp only [h.phase, hf, reduceCtorEq, Bool.false_eq_true, false_or] at hrest
  exact ⟨z, hz, hid, by rw [ho, hrest]⟩

end Quiet

/-- The output side plays or pauses the track that the control side holds, and the status tells. -/
def Plays (w : World) (running : Bool) (d : Deck) : Prop :=
  ∃ z i reel track, d.output.session = some z ∧ z.id = d.control.session ∧
    z.stream = some running ∧ z.playing = some i ∧ d.output.reels[i]? = some reel ∧
    reel.session = z.id ∧ d.control.held = some track ∧ reel.track = track ∧
    ∀ device bufferFrames,
      (d.status w device bufferFrames).nowPlaying = some (d.control.title track) ∧
      (d.status w device bufferFrames).chain = some reel.chain

theorem chain_status (d : Deck) (device : Option String) (bufferFrames : Option Nat) :
    (d.status w device bufferFrames).chain =
      d.output.shownReel.bind fun i => (d.output.reels[i]?).map (·.chain) := rfl

/-- An open stream of the session the control side means is of the track that it holds. -/
theorem plays_of_stream {d : Deck} {z : Session} {running : Bool}
    (hs : Sound d.control.sketch d.output.sketch) (hst : d.control.state ≠ .stopped)
    (hz : d.output.session = some z) (hid : z.id = d.control.session)
    (hr : z.stream = some running) : d.Plays w running := by
  obtain ⟨i, s, hp, hi, hsid, hshown, hnow⟩ := hs.orderly.shows.shown z hz (by simp [hr])
  obtain ⟨reel, hreel, rfl⟩ := Option.map_eq_some_iff.1 ((List.getElem?_map ..).symm.trans hi)
  have hm : reel.sleeve ∈ d.output.sketch.sleeves := List.mem_of_getElem? hi
  have hheld := hs.labels.held hst _ hm (hsid.trans hid)
  refine ⟨z, i, reel, reel.track, hz, hid, hr, hp, hreel, hsid, hheld, rfl, ?_⟩
  intro device n
  have hshown : d.output.shownReel = some i := hshown
  constructor
  · have ht := (hs.labels.titled _ hm).1
    have htitle : d.control.title reel.track = reel.title := by
      have hd : d.control.title reel.track = (d.control.playlist.titles[reel.track]?).getD "" := by
        rw [Playlist.titles, List.getElem?_map]
        rfl
      rw [hd, show d.control.playlist.titles[reel.track]? = some reel.title from ht]
      rfl
    rw [htitle]
    exact hnow
  · rw [chain_status, hshown, Option.bind_some, hreel, Option.map_some]

/-- At rest the two sides agree: no start is left unanswered, and the stream, the title and the
chain are those of the state that the control side is in. -/
theorem sides_agree_at_rest {fades : Fades} {playlist : Playlist} {d : Deck}
    (h : Reachable w fades playlist d) (hq : d.isQuiet) :
    d.control.state ≠ .starting ∧
      (d.control.state = .playing → d.Plays w true) ∧
      (d.control.state = .paused → d.Plays w false) ∧
      (d.control.state = .stopped → (∀ z, d.output.session = some z → z.stream = none) ∧
        ∀ device bufferFrames, (d.status w device bufferFrames).nowPlaying = none ∧
          (d.status w device bufferFrames).chain = none) := by
  have hs := h.sound
  have hrest := quiet_of_isQuiet hq
  have hagrees := hs.agrees (hrest.closed hs)
  refine ⟨fun hst => ?_, fun hst => ?_, fun hst => ?_, fun hst => ?_⟩
  · obtain ⟨z, -, ⟨i, seek, hp⟩ | hp | hp⟩ :=
      ((agrees_starting (k := d.control.sketch) hst).1 hagrees).resolve_left fun hn =>
        hn hrest.numbers <;> simp [hrest.phase] at hp
  · have hruns := ((agrees_playing (k := d.control.sketch) hst).1 hagrees).2
    obtain ⟨z, hz, hid, hr⟩ := hrest.runs hs hruns
    exact plays_of_stream hs (by simp [hst]) hz hid hr
  · have hruns := ((agrees_paused (k := d.control.sketch) hst).1 hagrees).2
    obtain ⟨z, hz, hid, hr⟩ := hrest.runs hs hruns
    exact plays_of_stream hs (by simp [hst]) hz hid hr
  · have hsilent := ((agrees_stopped (k := d.control.sketch) hst).1 hagrees).2
    refine ⟨hsilent.unheard, fun device n => ?_⟩
    obtain ⟨hshown, hnow⟩ := hs.orderly.shows.hidden hsilent.unheard
    refine ⟨hnow, ?_⟩
    have hshown : d.output.shownReel = none := hshown
    rw [chain_status, hshown, Option.bind_none]

/-- A machine that does what it is asked, and whose buffers hold two frames once they are fed. -/
def World.obedient : World where
  format := ⟨1000, 1, .signed16, .little⟩
  renderer := ⟨.i16, 1⟩
  load := fun _ _ _ => some ((Buffer.empty ⟨1000, 1, .signed16, .little⟩).apply (.size ⟨2000000⟩))
  refuses := fun _ _ => false

/-- Two tracks that can be played. -/
def pair : Playlist := { tracks := [Track.ofPath "a.wav", Track.ofPath "b.wav"] }

/-- A start that has been answered. -/
def started : List Move :=
  [.give .play, .takeCommand, .takeRequest, .produce 0 (.write #[1, 2, 3, 4]), .proceed,
    .takeNotice]

theorem sides_agree_after_start : ∃ d, Reachable .obedient {} pair d ∧ d.isQuiet ∧
    d.control.state = .playing ∧ d.Plays .obedient true := by
  obtain ⟨d, hrun, hq, hst⟩ : ∃ d, (initial {} pair).run .obedient started = some d ∧
      d.isQuiet = true ∧ d.control.state = .playing := ⟨_, rfl, rfl, rfl⟩
  exact ⟨d, ⟨_, hrun⟩, hq, hst, (sides_agree_at_rest ⟨_, hrun⟩ hq).2.1 hst⟩

end Jukebox.Deck
