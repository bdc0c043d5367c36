import Jukebox.Proofs.Deck.Sketch

/-!
What the control side can do, said once. `Ordered` is what a command does to its sketch and `Heard`
what a report of the running session does; they are the transport table and the work it asks for,
put together. The main statements say that every command and every notice is one of these.
-/

namespace Jukebox

namespace Playlist

variable {p : Playlist}

theorem lt_of_nextIndex? {i : Nat} (h : p.nextIndex? = some i) : p.cursor < i ∧ i < p.size := by
  have hi := List.find?_some h
  have hm := List.mem_of_find?_eq_some h
  simp only [Bool.and_eq_true, decide_eq_true_eq] at hi
  exact ⟨hi.1, by simpa using hm⟩

theorem lt_of_prevIndex? {i : Nat} (h : p.prevIndex? = some i) : i < p.cursor ∧ i < p.size := by
  have hm := List.mem_of_find?_eq_some h
  simp only [List.mem_reverse, List.mem_range] at hm
  omega

theorem cursor_lt_of_hasNext (h : p.hasNext = true) : p.cursor < p.size := by
  obtain ⟨i, hi⟩ := Option.isSome_iff_exists.1 h
  have := lt_of_nextIndex? hi
  omega

theorem current?_eq_some (h : p.cursor < p.size) : p.current? = some p.cursor := if_pos h

/-- Stepping forwards stays within the list. -/
theorem current?_next (h : p.cursor < p.size) : p.next.1.current? = some p.next.1.cursor := by
  apply current?_eq_some
  unfold next
  cases hi : p.nextIndex? with
  | none => exact h
  | some i => exact (lt_of_nextIndex? hi).2

theorem current?_prev (h : p.hasPrev = true) : p.prev.1.current? = some p.prev.1.cursor := by
  apply current?_eq_some
  obtain ⟨i, hi⟩ := Option.isSome_iff_exists.1 h
  simp only [prev, moveTo, hi]
  exact (lt_of_prevIndex? hi).2

@[simp] theorem cursor_mark (i : Nat) : (p.mark i).cursor = p.cursor := rfl

@[simp] theorem size_mark (i : Nat) : (p.mark i).size = p.size := by
  simp [size, mark, update]

/-- What a change leaves alone in every track, it leaves alone in the list. -/
theorem map_update {α : Type} {f : Track → Track} {g : Track → α} (hg : ∀ t, g (f t) = g t)
    (i : Nat) : (p.update i f).tracks.map g = p.tracks.map g := by
  apply List.ext_getElem?
  intro j
  cases hp : p.tracks[j]? <;> simp [update, hp, apply_ite g, hg]

@[simp] theorem titles_mark (i : Nat) : (p.mark i).titles = p.titles := by
  unfold titles mark
  exact map_update (by simp) i

@[simp] theorem keys_mark (i : Nat) : (p.mark i).keys = p.keys := by
  unfold keys mark
  exact map_update (by simp) i

theorem keys_congr {p' : Playlist} (h : p'.tracks = p.tracks) : p'.keys = p.keys :=
  congrArg (List.map Track.key) h

/-- Which tracks are the same is a matter of the keys. -/
theorem isSame_congr {p' : Playlist} (h : p'.keys = p.keys) (i j : Nat) :
    p'.isSame i j = p.isSame i j := by
  have hkey : ∀ k, p'.key? k = p.key? k := by
    intro k
    have hk := congrArg (fun keys => keys[k]?) h
    simp only [keys, List.getElem?_map] at hk
    cases hp : p.tracks[k]? <;> cases hp' : p'.tracks[k]? <;> simp_all [key?, track?]
  rw [isSame, isSame, hkey, hkey]

@[simp] theorem titles_next : p.next.1.titles = p.titles := by
  unfold next
  cases p.nextIndex? <;> rfl

@[simp] theorem titles_prev : p.prev.1.titles = p.titles := by
  unfold prev
  cases p.prevIndex? <;> rfl

end Playlist

namespace Deck

open Transport (State)

namespace Control.Sketch

/-- What a command does. -/
inductive Ordered (k : Sketch) : Command → Sketch → Prop where
  | begin {t} (hs : k.state = .stopped ∨ k.state = .paused) (ht : k.playlist.current? = some t) :
    Ordered k .play (k.begin k.playlist t)
  /-- A running track fades out first. -/
  | fade {c s window} (hs : k.state.isRunning)
      (hc : c = .play ∧ s = .fadingTo .current ∨ c = .stop ∧ s = .fadingToStop ∨
        c = .next ∧ s = .fadingTo .next ∨ c = .prev ∧ s = .fadingTo .prev) :
    Ordered k c ({ k with state := s }.ask (.fadeOut k.session window))
  | turn (hs : k.state.isFading) : Ordered k .play { k with state := .fadingTo .current }
  | suspend {c} (hs : k.state.isRunning) (hc : c = .pause ∨ c = .togglePause) :
    Ordered k c (k.ask (.suspend k.session))
  | resume {c} (hs : k.state = .paused) (hc : c = .resume ∨ c = .togglePause) :
    Ordered k c (k.ask (.resume k.session))
  | halt (hs : k.state = .paused) : Ordered k .stop (k.ask (.stop k.session))
  /-- A paused or fading track is cut off. -/
  | cut {c s} (hc : k.state.isFading ∧ c = .stop ∧ s = .fadingToStop ∨
        k.state = .paused ∧ (c = .next ∧ s = .fadingTo .next ∨ c = .prev ∧ s = .fadingTo .prev)) :
    Ordered k c ({ k with state := s }.ask (.stop k.session))
  | step {c p} (hs : k.state = .stopped)
      (hc : c = .next ∧ p = k.playlist.next.1 ∨ c = .prev ∧ p = k.playlist.prev.1) :
    Ordered k c { k with playlist := p }
  | seek {position} (hs : k.state.isRunning ∨ k.state = .paused) :
    Ordered k (.seek position) (k.ask (.seek k.session position))
  | remember {position} (hs : k.state = .stopped) :
    Ordered k (.seek position) { k with pendingSeek := some position }
  | tempo {tempo} : Ordered k (.setTempo tempo) (k.ask (.tempo tempo))
  | shutdown : Ordered k .shutdown ({ k with closed := true }.ask .shutdown)
  | ignored {c} (hstop : c = .stop → k.state = .stopped)
      (hpause : c = .pause → k.state.isRunning = false)
      (hresume : c = .resume → k.state ≠ .paused) : Ordered k c k

/-- What a report of the running session does. -/
inductive Heard (k : Sketch) : DeviceEvent → Sketch → Prop where
  | play (hs : k.state.isRunning ∨ k.state = .paused) :
    Heard k .active { k with state := .playing }
  | pause (hs : k.state.isRunning ∨ k.state = .paused) :
    Heard k .suspended { k with state := .paused }
  /-- A track has ended and another follows. -/
  | next {t} (hs : k.state.isRunning) (hn : k.playlist.hasNext)
      (ht : k.playlist.next.1.current? = some t) : Heard k .idle (k.begin k.playlist.next.1 t)
  | arrive {target t} (hs : k.state = .fadingTo target)
      (ht : (target.step k.playlist).current? = some t) :
    Heard k .idle (k.begin (target.step k.playlist) t)
  | finish (hs : k.state ≠ .stopped) (hn : k.state.isRunning → k.playlist.hasNext = false) :
    Heard k .idle (k.finish k.playlist)
  /-- A track has failed and another follows. -/
  | skip {t} (hs : k.state = .starting) (hn : k.playlist.hasNext)
      (ht : k.marked.next.1.current? = some t) : Heard k .failed (k.begin k.marked.next.1 t)
  | giveUp (hs : k.state = .starting) : Heard k .failed (k.finish k.marked)
  | mark (hs : k.state.isFading) : Heard k .failed { k with playlist := k.marked }
  | ignored {e} (hs : k.state = .stopped ∨ k.state.isFading ∧ (e = .active ∨ e = .suspended) ∨
      e = .failed ∧ (k.state = .playing ∨ k.state = .paused)) : Heard k e k

end Control.Sketch

namespace Control

variable {c : Control} (played : Span)

/-! ### The work on the sketch -/

@[simp] theorem sketch_publish (s : State) : (c.publish s).sketch = c.sketch := by
  unfold publish
  split <;> rfl

theorem sketch_record_all (entries : List (Nat × Span)) (c : Control) :
    (entries.foldl (fun c (track, played) => c.record (.finished track played)) c).sketch =
      c.sketch := by
  induction entries generalizing c with
  | nil => rfl
  | cons e es ih => rw [List.foldl_cons, ih]; rfl

theorem sketch_releaseTrack : (c.releaseTrack played).sketch =
    if c.state = .stopped then { c.sketch with held := none } else c.sketch := by
  have hk := sketch_record_all c.retired { c with retired := [] }
  unfold releaseTrack
  dsimp only at hk ⊢
  generalize c.retired.foldl (fun c (track, played) => c.record (.finished track played))
    { c with retired := [] } = c' at hk ⊢
  have hst : c'.state = c.state := congrArg Sketch.state hk
  have hk' : c'.sketch = c.sketch := hk
  rw [← hst]
  split
  · rw [← hk']
    split
    · next hn => simp [sketch, hn]
    · rfl
  · exact hk'

theorem sketch_markUnplayable :
    c.markUnplayable.sketch = { c.sketch with playlist := c.sketch.marked } := by
  unfold markUnplayable
  split <;> next hh => simp [sketch, Sketch.marked, hh, notify]

/-- A start, and the release of the track it replaces. -/
theorem sketch_startTrack {t : Nat} (ht : c.playlist.current? = some t) :
    ({ c with state := .starting }.startTrack played).sketch = c.sketch.begin c.playlist t ∧
      (({ c with state := .starting }.startTrack played).releaseTrack played).sketch =
        c.sketch.begin c.playlist t := by
  have hk : ({ c with state := .starting }.startTrack played).sketch =
      c.sketch.begin c.playlist t := by
    simp only [startTrack, ht]
    rfl
  refine ⟨hk, ?_⟩
  have hst : ({ c with state := .starting }.startTrack played).state = .starting :=
    congrArg Sketch.state hk
  rw [sketch_releaseTrack, hst, if_neg (by decide), hk]

theorem sketch_dispatch (e : Transport.Event) :
    (c.dispatch played e).sketch =
      ((Transport.transition c.state e c.around).2.foldl (perform played)
        { c with state := (Transport.transition c.state e c.around).1 }).sketch := by
  simp [dispatch]

/-- Where the table has no row. -/
theorem sketch_dispatch_none {e : Transport.Event}
    (h : Transport.transition c.state e c.around = (c.state, [])) :
    (c.dispatch played e).sketch = c.sketch := by
  rw [sketch_dispatch, h]
  rfl

attribute [local simp] Transport.transition

/-! ### Commands -/

open Sketch (Ordered Heard)

theorem dispatch_start : Ordered c.sketch .play (c.dispatch played .start).sketch := by
  have unplayable : Transport.transition c.state .start c.around = (c.state, []) →
      Ordered c.sketch .play (c.dispatch played .start).sketch := by
    intro h
    rw [sketch_dispatch_none played h]
    exact .ignored (by simp) (by simp) (by simp)
  cases hs : c.state with
  | stopped =>
    cases hc : c.playlist.current? with
    | none => exact unplayable (by simp [around, hs, hc])
    | some t =>
      rw [sketch_dispatch, hs]
      simp only [Transport.transition, around, hc, Option.isSome_some, if_true, List.foldl, perform]
      rw [(sketch_startTrack played hc).1]
      exact .begin (.inl hs) hc
  | paused =>
    cases hc : c.playlist.current? with
    | none => exact unplayable (by simp [around, hs, hc])
    | some t =>
      rw [sketch_dispatch, hs]
      simp only [Transport.transition, around, hc, Option.isSome_some, if_true, List.foldl, perform]
      rw [(sketch_startTrack played hc).2]
      exact .begin (.inr hs) hc
  | playing | starting =>
    rw [sketch_dispatch, hs]
    exact .fade (by simp [sketch, hs, State.isRunning]) (.inl ⟨rfl, rfl⟩)
  | fadingToStop | fadingTo =>
    rw [sketch_dispatch, hs]
    exact .turn (by simp [sketch, hs, State.isFading])

theorem dispatch_pause {cmd : Command} (hc : cmd = .pause ∨ cmd = .togglePause)
    (hr : cmd = .togglePause → c.state.isRunning) :
    Ordered c.sketch cmd (c.dispatch played .pause).sketch := by
  cases hs : c.state with
  | playing | starting =>
    rw [sketch_dispatch, hs]
    have := Ordered.suspend (k := c.sketch) (by simp [sketch, hs, State.isRunning]) hc
    simp only [Transport.transition, List.foldl, perform, ← hs]
    exact this
  | _ =>
    obtain rfl | rfl := hc
    · rw [sketch_dispatch_none played (by simp [hs])]
      exact .ignored (by simp) (by simp [sketch, hs, State.isRunning]) (by simp)
    · simp [hs, State.isRunning] at hr

theorem dispatch_resume {cmd : Command} (hc : cmd = .resume ∨ cmd = .togglePause)
    (hr : cmd = .togglePause → c.state = .paused) :
    Ordered c.sketch cmd (c.dispatch played .resume).sketch := by
  cases hs : c.state with
  | paused =>
    rw [sketch_dispatch, hs]
    have := Ordered.resume (k := c.sketch) hs hc
    simp only [Transport.transition, List.foldl, perform, ← hs]
    exact this
  | _ =>
    obtain rfl | rfl := hc
    · rw [sketch_dispatch_none played (by simp [hs])]
      exact .ignored (by simp) (by simp) (by simp [sketch, hs])
    · simp [hs] at hr

theorem dispatch_stop : Ordered c.sketch .stop (c.dispatch played .stop).sketch := by
  cases hs : c.state with
  | stopped =>
    rw [sketch_dispatch_none played (by simp [hs])]
    exact .ignored (fun _ => hs) (by simp) (by simp)
  | paused =>
    rw [sketch_dispatch, hs]
    have := Ordered.halt (k := c.sketch) hs
    simp only [Transport.transition, List.foldl, perform, ← hs]
    exact this
  | playing | starting =>
    rw [sketch_dispatch, hs]
    exact .fade (by simp [sketch, hs, State.isRunning]) (.inr (.inl ⟨rfl, rfl⟩))
  | fadingToStop | fadingTo =>
    rw [sketch_dispatch, hs]
    exact .cut (.inl ⟨by simp [sketch, hs, State.isFading], rfl, rfl⟩)

theorem dispatch_next : Ordered c.sketch .next (c.dispatch played .next).sketch := by
  cases hs : c.state with
  | stopped =>
    rw [sketch_dispatch, hs]
    have := Ordered.step (k := c.sketch) (c := .next) hs (.inl ⟨rfl, rfl⟩)
    simpa [Transport.skip, perform, advance, sketch, hs] using this
  | paused =>
    rw [sketch_dispatch, hs]
    exact .cut (.inr ⟨hs, .inl ⟨rfl, rfl⟩⟩)
  | playing | starting =>
    rw [sketch_dispatch, hs]
    exact .fade (by simp [sketch, hs, State.isRunning]) (.inr (.inr (.inl ⟨rfl, rfl⟩)))
  | fadingToStop | fadingTo =>
    rw [sketch_dispatch_none played (by simp [Transport.skip, hs])]
    exact .ignored (by simp) (by simp) (by simp)

theorem dispatch_prev : Ordered c.sketch .prev (c.dispatch played .prev).sketch := by
  cases hs : c.state with
  | stopped =>
    rw [sketch_dispatch, hs]
    have := Ordered.step (k := c.sketch) (c := .prev) hs (.inr ⟨rfl, rfl⟩)
    simpa [Transport.skip, perform, advance, sketch, hs] using this
  | paused =>
    rw [sketch_dispatch, hs]
    exact .cut (.inr ⟨hs, .inr ⟨rfl, rfl⟩⟩)
  | playing | starting =>
    rw [sketch_dispatch, hs]
    exact .fade (by simp [sketch, hs, State.isRunning]) (.inr (.inr (.inr ⟨rfl, rfl⟩)))
  | fadingToStop | fadingTo =>
    rw [sketch_dispatch_none played (by simp [Transport.skip, hs])]
    exact .ignored (by simp) (by simp) (by simp)

theorem seek_ordered (position : Span) :
    Ordered c.sketch (.seek position) (c.seek position).sketch := by
  unfold seek
  cases hs : c.state with
  | stopped =>
    have : Ordered c.sketch (.seek position) _ := .remember hs
    simpa [sketch, hs] using this
  | paused => exact .seek (k := c.sketch) (.inr hs)
  | playing | starting => exact .seek (.inl (by simp [sketch, hs, State.isRunning]))
  | _ => exact .ignored (by simp) (by simp) (by simp)

/-- Every command does one of the things in the table. -/
theorem onCommand_ordered (cmd : Command) :
    Ordered c.sketch cmd (c.onCommand played cmd).sketch := by
  cases cmd with
  | play => exact dispatch_start played
  | pause => exact dispatch_pause played (.inl rfl) (by simp)
  | resume => exact dispatch_resume played (.inl rfl) (by simp)
  | togglePause =>
    simp only [onCommand]
    split
    · next hs => exact dispatch_resume played (.inr rfl) fun _ => hs
    · split
      · next hs => exact dispatch_pause played (.inr rfl) fun _ => hs
      · exact .ignored (by simp) (by simp) (by simp)
  | stop => exact dispatch_stop played
  | next => exact dispatch_next played
  | prev => exact dispatch_prev played
  | seek position => exact seek_ordered position
  | setTempo tempo =>
    simp only [onCommand, setTempo]
    split
    · exact .tempo
    · exact .ignored (by simp) (by simp) (by simp)
  | subscribe => exact .ignored (by simp) (by simp) (by simp)
  | shutdown => exact .shutdown

/-! ### Notices -/

@[simp] theorem sketch_announce : c.announce.sketch = c.sketch := by
  unfold announce
  split
  · rfl
  · dsimp only
    split <;> rfl

theorem heard_active : Heard c.sketch .active (c.dispatch played .deviceActive).sketch := by
  cases hs : c.state with
  | starting =>
    rw [sketch_dispatch, hs]
    exact .play (k := c.sketch) (.inl (by simp [sketch, hs, State.isRunning]))
  | paused =>
    rw [sketch_dispatch, hs]
    exact .play (k := c.sketch) (.inr hs)
  | playing =>
    rw [sketch_dispatch, hs]
    have := Heard.play (k := c.sketch) (.inl (by simp [sketch, hs, State.isRunning]))
    simpa [sketch, hs] using this
  | stopped =>
    rw [sketch_dispatch_none played (by simp [hs])]
    exact .ignored (.inl hs)
  | fadingToStop | fadingTo =>
    rw [sketch_dispatch_none played (by simp [hs])]
    exact .ignored (.inr (.inl ⟨by simp [sketch, hs, State.isFading], .inl rfl⟩))

theorem heard_suspended :
    Heard c.sketch .suspended (c.dispatch played .deviceSuspended).sketch := by
  cases hs : c.state with
  | starting | playing =>
    rw [sketch_dispatch, hs]
    exact .pause (k := c.sketch) (.inl (by simp [sketch, hs, State.isRunning]))
  | paused =>
    rw [sketch_dispatch, hs]
    have := Heard.pause (k := c.sketch) (.inr hs)
    simpa [sketch, hs] using this
  | stopped =>
    rw [sketch_dispatch_none played (by simp [hs])]
    exact .ignored (.inl hs)
  | fadingToStop | fadingTo =>
    rw [sketch_dispatch_none played (by simp [hs])]
    exact .ignored (.inr (.inl ⟨by simp [sketch, hs, State.isFading], .inr rfl⟩))

/-- The end of a track after which nothing follows. -/
theorem sketch_finish :
    ({ c with state := .stopped }.releaseTrack played).sketch = c.sketch.finish c.playlist := by
  rw [sketch_releaseTrack, if_pos rfl]
  rfl

/-- A step to another track, which starts. -/
theorem sketch_follow {t : Nat} (d : Transport.Direction)
    (ht : (c.advance d).playlist.current? = some t) :
    ([.advance d, .startTrack, .releaseTrack].foldl (perform played)
      { c with state := .starting }).sketch = c.sketch.begin (c.advance d).playlist t :=
  (sketch_startTrack (c := c.advance d) played ht).2

theorem boundary_idle (hs : c.state.isRunning) :
    Heard c.sketch .idle (((Transport.boundary [] c.around).2).foldl (perform played)
      { c with state := (Transport.boundary [] c.around).1 }).sketch := by
  unfold Transport.boundary
  split
  · next hn =>
    have ht := Playlist.current?_next (Playlist.cursor_lt_of_hasNext hn)
    simp only [List.nil_append]
    rw [sketch_follow played .next ht]
    exact .next hs hn ht
  · next hn =>
    simp only [List.nil_append, List.foldl, perform]
    rw [sketch_finish]
    refine .finish (fun h => ?_) fun _ => Bool.eq_false_iff.2 hn
    rw [show c.state = .stopped from h] at hs
    exact absurd hs (by decide)

theorem arrival_idle {target : Transport.Target} (hs : c.state = .fadingTo target) :
    Heard c.sketch .idle (((Transport.arrival target c.around).2).foldl (perform played)
      { c with state := (Transport.arrival target c.around).1 }).sketch := by
  have stops : Heard c.sketch .idle
      ([Transport.Effect.releaseTrack].foldl (perform played)
        { c with state := .stopped }).sketch := by
    simp only [List.foldl, perform]
    rw [sketch_finish]
    refine .finish (fun h => ?_) fun h => ?_
    · rw [show c.state = .stopped from h] at hs
      exact absurd hs (by simp)
    · rw [show c.sketch.state = .fadingTo target from hs] at h
      exact absurd h (by simp [State.isRunning])
  unfold Transport.arrival
  cases target with
  | current =>
    dsimp only
    split
    · next hc =>
      obtain ⟨t, ht⟩ := Option.isSome_iff_exists.1 hc
      simp only [List.foldl, perform]
      rw [(sketch_startTrack played ht).2]
      exact .arrive (k := c.sketch) hs ht
    · exact stops
  | next =>
    dsimp only
    split
    · next hn =>
      have ht := Playlist.current?_next (Playlist.cursor_lt_of_hasNext hn)
      dsimp only
      rw [sketch_follow played .next ht]
      exact .arrive (k := c.sketch) hs ht
    · exact stops
  | prev =>
    dsimp only
    split
    · next hn =>
      have ht := Playlist.current?_prev hn
      dsimp only
      rw [sketch_follow played .prev ht]
      exact .arrive (k := c.sketch) hs ht
    · exact stops

theorem heard_idle : Heard c.sketch .idle (c.dispatch played .deviceIdle).sketch := by
  cases hs : c.state with
  | playing | starting =>
    rw [sketch_dispatch, hs]
    exact boundary_idle played (by simp [hs, State.isRunning])
  | fadingTo target =>
    rw [sketch_dispatch, hs]
    exact arrival_idle played hs
  | stopped =>
    rw [sketch_dispatch_none played (by simp [hs])]
    exact .ignored (.inl hs)
  | paused | fadingToStop =>
    rw [sketch_dispatch, hs]
    simp only [Transport.transition, List.foldl, perform]
    rw [sketch_finish]
    exact .finish (by simp [sketch, hs]) (by simp [sketch, hs, State.isRunning])

theorem boundary_failed (hs : c.state = .starting) :
    Heard c.sketch .failed (((Transport.boundary [.markUnplayable] c.around).2).foldl
      (perform played)
      { c with state := (Transport.boundary [.markUnplayable] c.around).1 }).sketch := by
  have hm : ∀ s : State, ({ c with state := s }.markUnplayable).sketch =
      { c.sketch with state := s, playlist := c.sketch.marked } := fun s => sketch_markUnplayable
  unfold Transport.boundary
  split
  · next hn =>
    have hlt : c.sketch.marked.cursor < c.sketch.marked.size := by
      have : c.sketch.playlist.cursor < c.sketch.playlist.size :=
        Playlist.cursor_lt_of_hasNext hn
      unfold Sketch.marked
      split <;> simpa using this
    have ht := Playlist.current?_next hlt
    simp only [List.cons_append, List.nil_append, List.foldl_cons, perform]
    have hm := hm .starting
    generalize { c with state := .starting }.markUnplayable = c' at hm
    have hp : c'.playlist = c.sketch.marked := congrArg Sketch.playlist hm
    have hs' : { c' with state := .starting } = c' := by
      rw [← show c'.state = .starting from congrArg Sketch.state hm]
    have ht' : (c'.advance .next).playlist.current? = some c.sketch.marked.next.1.cursor := by
      rw [← ht, ← hp]
      rfl
    have hf := sketch_follow played .next ht'
    rw [hs'] at hf
    have hb : c'.sketch.begin (c'.advance .next).playlist c.sketch.marked.next.1.cursor =
        c.sketch.begin c.sketch.marked.next.1 c.sketch.marked.next.1.cursor := by
      rw [hm, ← hp]
      rfl
    refine Eq.subst (motive := Heard c.sketch .failed) (hf.trans hb).symm ?_
    exact .skip hs hn ht
  · next hn =>
    simp only [List.cons_append, List.nil_append, List.foldl_cons, List.foldl_nil, perform]
    have hm := hm .stopped
    generalize { c with state := .stopped }.markUnplayable = c' at hm
    have hs' : { c' with state := .stopped } = c' := by
      rw [← show c'.state = .stopped from congrArg Sketch.state hm]
    have hf := sketch_finish (c := c') played
    have hb : c'.sketch.finish c'.playlist = c.sketch.finish c.sketch.marked := by
      rw [hm, show c'.playlist = c.sketch.marked from congrArg Sketch.playlist hm]
      rfl
    rw [← hs', hf, hb]
    exact .giveUp hs

theorem heard_failed : Heard c.sketch .failed (c.dispatch played .trackFailed).sketch := by
  cases hs : c.state with
  | starting =>
    rw [sketch_dispatch, hs]
    exact boundary_failed played hs
  | stopped =>
    rw [sketch_dispatch_none played (by simp [hs])]
    exact .ignored (.inl hs)
  | playing =>
    rw [sketch_dispatch_none played (by simp [hs])]
    exact .ignored (.inr (.inr ⟨rfl, .inl hs⟩))
  | paused =>
    rw [sketch_dispatch_none played (by simp [hs])]
    exact .ignored (.inr (.inr ⟨rfl, .inr hs⟩))
  | fadingToStop | fadingTo target =>
    rw [sketch_dispatch, hs]
    have := Heard.mark (k := c.sketch) (by simp [sketch, hs, State.isFading])
    simp only [Transport.transition, List.foldl, perform, ← hs]
    rwa [sketch_markUnplayable]

/-- Every notice of the running session does one of the things in the table, and no other notice
does anything. -/
theorem onNotice_heard (n : Notice) :
    (n.session = c.session → Heard c.sketch n.event (c.onNotice played n).sketch) ∧
      (n.session ≠ c.session → (c.onNotice played n).sketch = c.sketch) := by
  refine ⟨fun h => ?_, fun h => by simp [onNotice, h]⟩
  simp only [onNotice, if_pos h]
  cases n.event with
  | active =>
    have := heard_active (c := c.announce) played
    rwa [sketch_announce] at this
  | suspended => exact heard_suspended played
  | idle => exact heard_idle played
  | failed => exact heard_failed played

end Control

end Deck

end Jukebox
