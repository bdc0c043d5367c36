import Jukebox.Proofs.Deck.Inbox
import Jukebox.Proofs.Deck.Ledger

/-!
The control side taken alone. Commands and notices of every kind reach it in any order, whether or
not an output side could ever send them, and between two of them anybody who has the tracks may
change which of them can be played. A step is either a dispatch or leaves all alone that a dispatch
decides on, and none changes which entries of the list are the same track; and the control side of a
deck takes no other steps.
-/

namespace Jukebox

namespace Playlist

variable {p : Playlist}

/-- The tracks of which just these can be played. -/
def flag (playable : Nat → Bool) (p : Playlist) : Playlist :=
  { p with tracks := p.tracks.mapIdx fun i t => { t with playable := playable i } }

@[simp] theorem size_flag (playable : Nat → Bool) : (p.flag playable).size = p.size := by
  simp [size, flag]

@[simp] theorem keys_flag (playable : Nat → Bool) : (p.flag playable).keys = p.keys := by
  apply List.ext_getElem?
  intro i
  cases hp : p.tracks[i]? <;> simp [keys, flag, hp]

/-- Playlists are told apart by their tracks and the cursor. -/
theorem eq_of_tracks {q : Playlist} (hc : p.cursor = q.cursor)
    (ht : ∀ i : Nat, p.tracks[i]? = q.tracks[i]?) : p = q := by
  cases p
  cases q
  simp only [mk.injEq]
  exact ⟨List.ext_getElem? ht, hc⟩

end Playlist

namespace Deck

namespace Control

/-- What reaches the control side. -/
inductive Input where
  | command (c : Command)
  | notice (n : Notice)
  /-- Somebody else decides which tracks can be played. -/
  | flags (playable : Nat → Bool)

variable {c c' c'' : Control} {played : Span}

/-- The control side after what has reached it. -/
def step (c : Control) (played : Span) : Input → Control
  | .command cmd => c.onCommand played cmd
  | .notice n => c.onNotice played n
  | .flags playable => { c with playlist := c.playlist.flag playable }

/-- The control side after all of these, each at some playing time. -/
def run (c : Control) (inputs : List (Span × Input)) : Control :=
  inputs.foldl (fun c i => c.step i.1 i.2) c

theorem run_append (c : Control) (is is' : List (Span × Input)) :
    c.run (is ++ is') = (c.run is).run is' := List.foldl_append

/-! ### What a step is -/

/-- The changes of state in a list of notifications. -/
def changes (ns : List Notification) : List (Transport.State × Transport.State) :=
  ns.filterMap fun
    | .stateChanged before after => some (before, after)
    | _ => none

@[simp] theorem changes_append (ns ns' : List Notification) :
    changes (ns ++ ns') = changes ns ++ changes ns' := List.filterMap_append

/-- Every subscriber goes on, and is told of no change of state. -/
def Silent (c c' : Control) : Prop :=
  ∀ (n : Nat) (inbox : List Notification), c.inboxes[n]? = some inbox →
    ∃ more, c'.inboxes[n]? = some (inbox ++ more) ∧ changes more = []

namespace Silent

theorem of_eq (h : c'.inboxes = c.inboxes) : Silent c c' := by
  intro n inbox hn
  exact ⟨[], by rw [h, hn, List.append_nil], rfl⟩

theorem refl (c : Control) : Silent c c := of_eq rfl

theorem trans (h : Silent c c') (h' : Silent c' c'') : Silent c c'' := by
  intro n inbox hn
  obtain ⟨more, hn', hmore⟩ := h n inbox hn
  obtain ⟨more', hn'', hmore'⟩ := h' n _ hn'
  exact ⟨more ++ more', by rw [hn'', List.append_assoc], by simp [hmore, hmore']⟩

theorem notify {n : Notification} (hn : changes [n] = []) : Silent c (c.notify n) := by
  intro i inbox hi
  exact ⟨[n], by simp [Control.notify, hi], hn⟩

end Silent

/-- All that a dispatch decides on is left alone, the marks on the tracks apart. -/
structure Aside (c c' : Control) : Prop where
  state : c'.state = c.state
  shown : c'.shown = c.shown
  held : c'.held = c.held
  cursor : c'.playlist.cursor = c.playlist.cursor
  size : c'.playlist.size = c.playlist.size
  sent : ∃ news, c'.sent = c.sent ++ news ∧ startedTracks news = []
  silent : Silent c c'

theorem Aside.refl (c : Control) : Aside c c :=
  ⟨rfl, rfl, rfl, rfl, rfl, ⟨[], (List.append_nil _).symm, rfl⟩, .refl c⟩

theorem request_aside {r : Request} (hr : r.started? = none) : Aside c (c.request r) :=
  ⟨rfl, rfl, rfl, rfl, rfl, ⟨[r], rfl, by simp [startedTracks, hr]⟩, .refl c⟩

theorem announce_aside : Aside c c.announce := by
  have hk := sketch_announce (c := c)
  have hsent : c.announce.sent = c.sent := congrArg Sketch.sent hk
  have hplaylist : c.announce.playlist = c.playlist := congrArg Sketch.playlist hk
  refine ⟨congrArg Sketch.state hk, ?_, congrArg Sketch.held hk, by rw [hplaylist],
    by rw [hplaylist], ⟨[], by rw [hsent, List.append_nil], rfl⟩, ?_⟩
  · unfold announce
    split
    · rfl
    · dsimp only
      split <;> rfl
  · unfold announce
    split
    · exact .refl c
    · dsimp only
      split
      · exact .refl c
      · exact .notify (c := record { c with announced := true } _) rfl

theorem subscribe_aside (played : Span) : Aside c (c.onCommand played .subscribe) := by
  refine ⟨rfl, rfl, rfl, rfl, rfl, ⟨[], (List.append_nil _).symm, rfl⟩, fun n inbox hn => ?_⟩
  refine ⟨[], ?_, rfl⟩
  rw [List.append_nil, onCommand, List.getElem?_append_left (List.getElem?_eq_some_iff.1 hn).1, hn]

/-- A step is a dispatch, after an announcement perhaps, or nothing that a dispatch decides on. -/
theorem step_cases (played : Span) (c : Control) (i : Input) :
    ∃ c₁, Aside c c₁ ∧
      (c.step played i = c₁ ∨ ∃ e, c.step played i = c₁.dispatch played e) := by
  have dispatched : ∀ e, c.step played i = c.dispatch played e →
      ∃ c₁, Aside c c₁ ∧
        (c.step played i = c₁ ∨ ∃ e, c.step played i = c₁.dispatch played e) :=
    fun e h => ⟨c, .refl c, .inr ⟨e, h⟩⟩
  cases i with
  | command cmd =>
    cases cmd with
    | play => exact dispatched .start rfl
    | pause => exact dispatched .pause rfl
    | resume => exact dispatched .resume rfl
    | stop => exact dispatched .stop rfl
    | next => exact dispatched .next rfl
    | prev => exact dispatched .prev rfl
    | togglePause =>
      by_cases hp : c.state = .paused
      · exact dispatched .resume (by rw [step, onCommand, if_pos hp])
      · by_cases hr : c.state.isRunning
        · exact dispatched .pause (by rw [step, onCommand, if_neg hp, if_pos hr])
        · exact ⟨c, .refl c, .inl (by rw [step, onCommand, if_neg hp, if_neg hr])⟩
    | seek position =>
      refine ⟨_, ?_, .inl rfl⟩
      rw [step, onCommand, seek]
      split
      · exact ⟨rfl, rfl, rfl, rfl, rfl, ⟨[], (List.append_nil _).symm, rfl⟩, .of_eq rfl⟩
      · exact request_aside rfl
      · exact request_aside rfl
      · exact request_aside rfl
      · exact .refl c
      · exact .refl c
    | setTempo tempo =>
      refine ⟨_, ?_, .inl rfl⟩
      rw [step, onCommand, setTempo]
      split
      · exact ⟨rfl, rfl, rfl, rfl, rfl, ⟨[.tempo tempo], rfl, rfl⟩, .of_eq rfl⟩
      · exact .refl c
    | subscribe => exact ⟨_, subscribe_aside played, .inl rfl⟩
    | shutdown =>
      refine ⟨_, ?_, .inl rfl⟩
      exact ⟨rfl, rfl, rfl, rfl, rfl, ⟨[.shutdown], rfl, rfl⟩, .of_eq rfl⟩
  | flags playable =>
    refine ⟨_, ?_, .inl rfl⟩
    exact ⟨rfl, rfl, rfl, rfl, Playlist.size_flag playable, ⟨[], (List.append_nil _).symm, rfl⟩,
      .of_eq rfl⟩
  | notice n =>
    by_cases hn : n.session = c.session
    · cases he : n.event with
      | active =>
        refine ⟨c.announce, announce_aside, .inr ⟨.deviceActive, ?_⟩⟩
        rw [step, onNotice, if_pos hn, he]
      | suspended => exact dispatched .deviceSuspended (by rw [step, onNotice, if_pos hn, he])
      | idle => exact dispatched .deviceIdle (by rw [step, onNotice, if_pos hn, he])
      | failed => exact dispatched .trackFailed (by rw [step, onNotice, if_pos hn, he])
    · refine ⟨c, .refl c, .inl ?_⟩
      rw [step, onNotice, if_neg hn]

/-! ### Which tracks are the same -/

theorem keys_dispatch (e : Transport.Event) :
    (c.dispatch played e).playlist.keys = c.playlist.keys := by
  obtain ⟨s, hu⟩ := dispatch_eq c played e
  refine (Playlist.keys_congr hu.tracks).trans ?_
  split
  · have hp : ({ c with state := s }.markUnplayable).playlist = c.sketch.marked :=
      congrArg Sketch.playlist sketch_markUnplayable
    rw [hp, Sketch.marked]
    split
    · rfl
    · exact Playlist.keys_mark _
  · rfl

theorem keys_step (i : Input) : (c.step played i).playlist.keys = c.playlist.keys := by
  cases i with
  | command cmd => exact Playlist.keys_congr (onCommand_untold cmd).tracks
  | flags playable => exact Playlist.keys_flag playable
  | notice n =>
    rw [step, onNotice]
    split
    · cases n.event with
      | active =>
        have hp : c.announce.playlist = c.playlist := congrArg Sketch.playlist sketch_announce
        exact (keys_dispatch .deviceActive).trans (congrArg Playlist.keys hp)
      | suspended => exact keys_dispatch .deviceSuspended
      | idle => exact keys_dispatch .deviceIdle
      | failed => exact keys_dispatch .trackFailed
    · rfl

/-- Which entries are the same track is settled before anything is played. -/
theorem keys_run (inputs : List (Span × Input)) :
    (c.run inputs).playlist.keys = c.playlist.keys := by
  induction inputs generalizing c with
  | nil => rfl
  | cons i is ih => exact (ih (c := c.step i.1 i.2)).trans (keys_step i.2)

end Control

/-! ### The control side of a deck -/

variable {w : World} {d d' : Deck}

/-- What a run of a deck does to its control side is a run of the control side alone. -/
theorem control_run {moves : List Move} (h : d.run w moves = some d') :
    ∃ inputs, d'.control = d.control.run inputs := by
  induction moves generalizing d with
  | nil =>
    cases h
    exact ⟨[], rfl⟩
  | cons m ms ih =>
    obtain ⟨d₁, hm, hr⟩ := Option.bind_eq_some_iff.1 h
    obtain ⟨inputs, hin⟩ := ih hr
    suffices hstep : ∃ first, d₁.control = d.control.run first by
      obtain ⟨first, hfirst⟩ := hstep
      exact ⟨first ++ inputs, by rw [Control.run_append, ← hfirst, hin]⟩
    cases stepped_of_step hm with
    | @takeCommand cmd => exact ⟨[(d.output.played w, .command cmd)], rfl⟩
    | @takeNotice n => exact ⟨[(d.output.played w, .notice n)], rfl⟩
    | _ => exact ⟨[], rfl⟩

end Deck

end Jukebox
