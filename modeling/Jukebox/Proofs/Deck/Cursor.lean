import Jukebox.Proofs.Deck.Desk

/-!
What plays is what the playlist points at. The control side asks what there is around the cursor
before it does the work of an event, and the work then marks tracks, moves the cursor and starts what
the cursor points at. Every row of the transport table is of one of four kinds, and each of them
keeps the track that is held at the cursor, also where the next track is the one that has just been
marked, in another place, and the cursor stays where it is.
-/

namespace Jukebox

namespace Playlist

variable {p : Playlist}

theorem current?_isSome : p.current?.isSome ↔ p.cursor < p.size := by
  unfold current?
  split <;> simp [*]

/-- No step leaves the list. -/
theorem lt_of_next (h : p.cursor < p.size) : p.next.1.cursor < p.next.1.size := by
  unfold next
  cases hi : p.nextIndex? with
  | none => exact h
  | some i => exact (lt_of_nextIndex? hi).2

theorem lt_of_prev (h : p.cursor < p.size) : p.prev.1.cursor < p.prev.1.size := by
  unfold prev
  cases hi : p.prevIndex? with
  | none => exact h
  | some i => exact (lt_of_prevIndex? hi).2

/-- The cursor takes one step at most, over tracks that cannot be played. -/
def Steps (p p' : Playlist) : Prop :=
  p'.cursor = p.cursor ∨ ({ p' with cursor := p.cursor } : Playlist).nextIndex? = some p'.cursor ∨
    ({ p' with cursor := p.cursor } : Playlist).prevIndex? = some p'.cursor

/-- A step is one from where the marks have been changed. -/
theorem steps_of_tracks {p' q : Playlist} (hq : q.cursor = p.cursor) (ht : p'.tracks = q.tracks)
    (h : p'.cursor = q.cursor ∨ q.nextIndex? = some p'.cursor ∨ q.prevIndex? = some p'.cursor) :
    p.Steps p' := by
  have hsame : ({ p' with cursor := p.cursor } : Playlist) = q := by rw [← hq, ht]
  rw [Steps, hsame, ← hq]
  exact h

end Playlist

/-! ### The rows of the table -/

namespace Transport

/-- Work that leaves the track, the cursor and the requests for tracks alone. -/
def Effect.holds : Effect → Bool
  | .startTrack | .advance _ | .releaseTrack => false
  | _ => true

/-- The kinds of rows that the table has. -/
inductive Row (s : State) (around : Around) : State × List Effect → Prop where
  /-- The track stays, if there is one. -/
  | hold {s' es} (hs : s' = .stopped ↔ s = .stopped) (hes : es.all Effect.holds) :
    Row s around (s', es)
  /-- The cursor moves while nothing plays. -/
  | step {direction} (hs : s = .stopped) : Row s around (.stopped, [.advance direction])
  /-- Another track begins, after one step at most. -/
  | start {first last} (direction : Option Direction) (hs : s = .stopped → around.current)
      (hfirst : first.all Effect.holds) (hlast : last = [] ∨ last = [.releaseTrack]) :
    Row s around (.starting, first ++ (direction.map .advance).toList ++ .startTrack :: last)
  | finish {first} (hs : s ≠ .stopped) (hfirst : first.all Effect.holds) :
    Row s around (.stopped, first ++ [.releaseTrack])

/-- The track at the cursor begins, and there is nothing else to do before. -/
theorem Row.restart {s : State} {around : Around} {last : List Effect}
    (hs : s = .stopped → around.current) (hlast : last = [] ∨ last = [.releaseTrack]) :
    Row s around (.starting, .startTrack :: last) :=
  @Row.start s around [] last none hs rfl hlast

theorem boundary_row {s : State} (hs : s ≠ .stopped) {first : List Effect}
    (hfirst : first.all Effect.holds) (around : Around) :
    Row s around (boundary first around) := by
  unfold boundary
  split
  · have hrow : Row s around (.starting, first ++ [.advance .next] ++ [.startTrack, .releaseTrack]) :=
      .start (some .next) (fun h => absurd h hs) hfirst (.inr rfl)
    simpa using hrow
  · exact .finish hs hfirst

theorem arrival_row {s : State} (hs : s ≠ .stopped) (target : Target) (around : Around) :
    Row s around (arrival target around) := by
  have starts : ∀ direction : Option Direction, Row s around
      (.starting, [] ++ (direction.map Effect.advance).toList ++ [.startTrack, .releaseTrack]) :=
    fun direction => .start direction (fun h => absurd h hs) rfl (.inr rfl)
  have finishes : Row s around (.stopped, [] ++ [.releaseTrack]) := .finish hs rfl
  cases target <;> unfold arrival <;> dsimp only <;> split
  · exact starts none
  · exact finishes
  · exact starts (some .next)
  · exact finishes
  · exact starts (some .prev)
  · exact finishes

theorem skip_row (s : State) (direction : Direction) (around : Around) :
    Row s around (skip s direction) := by
  cases s with
  | stopped => exact .step rfl
  | _ => exact .hold (by simp) rfl

theorem transition_row (s : State) (e : Event) (around : Around) :
    Row s around (transition s e around) := by
  cases e with
  | start =>
    cases s with
    | stopped =>
      rw [transition]
      split
      · next hc => exact .restart (fun _ => hc) (.inl rfl)
      · exact .hold Iff.rfl rfl
    | paused =>
      rw [transition]
      split
      · next hc => exact .restart (fun _ => hc) (.inr rfl)
      · exact .hold Iff.rfl rfl
    | _ => exact .hold (by simp) rfl
  | next => cases s <;> exact skip_row _ .next around
  | prev => cases s <;> exact skip_row _ .prev around
  | deviceIdle =>
    cases s with
    | stopped => exact .hold Iff.rfl rfl
    | playing | starting => exact boundary_row (by simp) rfl around
    | paused | fadingToStop => exact @Row.finish _ around [] (by simp) rfl
    | fadingTo target => exact arrival_row (by simp) target around
  | trackFailed =>
    cases s with
    | starting => exact boundary_row (by simp) rfl around
    | _ => exact .hold Iff.rfl rfl
  | _ => cases s <;> exact .hold (by simp) rfl

/-- Where there is no track, a player that is stopped starts none. -/
theorem starts_nothing {around : Around} (e : Event) (h : around.current = false) :
    .startTrack ∉ (transition .stopped e around).2 := by
  cases e <;> simp [transition, skip, h]

/-- A boundary to a track that exists starts it. -/
theorem boundary_starts {first : List Effect} {around : Around} (h : around.next) :
    (boundary first around).1 = .starting := by rw [boundary, if_pos h]

theorem idle_starts {s : State} {around : Around} (hs : s.isRunning ∨ s = .fadingTo .next)
    (h : around.next) : (transition s .deviceIdle around).1 = .starting := by
  rcases hs with hs | rfl
  · cases s with
    | playing | starting => exact boundary_starts h
    | _ => cases hs
  · simp [transition, arrival, h]

end Transport

namespace Deck

open Transport (State Effect)

namespace Control

variable {c c' c'' : Control} {played : Span}

/-! ### Work -/

theorem Aside.trans (h : Aside c c') (h' : Aside c' c'') : Aside c c'' := by
  obtain ⟨news, hsent, hnews⟩ := h.sent
  obtain ⟨news', hsent', hnews'⟩ := h'.sent
  exact ⟨h'.state.trans h.state, h'.shown.trans h.shown, h'.held.trans h.held,
    h'.cursor.trans h.cursor, h'.size.trans h.size,
    ⟨news ++ news', by rw [hsent', hsent, List.append_assoc], by simp [hnews, hnews']⟩,
    h.silent.trans h'.silent⟩

theorem markUnplayable_aside : Aside c c.markUnplayable := by
  unfold markUnplayable
  split
  · exact .refl c
  · exact ⟨rfl, rfl, rfl, rfl, Playlist.size_mark _, ⟨[], (List.append_nil _).symm, rfl⟩,
      .notify (c := { c with playlist := _ }) rfl⟩

theorem perform_aside {e : Effect} (he : e.holds) : Aside c (c.perform played e) := by
  cases e with
  | markUnplayable => exact markUnplayable_aside
  | startTrack | advance | releaseTrack => cases he
  | suspendDevice | resumeDevice | stopDevice | fadeOut => exact request_aside rfl

theorem foldl_aside (played : Span) {es : List Effect}
    (hes : es.all Effect.holds) (c : Control) :
    Aside c (es.foldl (perform played) c) := by
  induction es generalizing c with
  | nil => exact .refl c
  | cons e es ih =>
    rw [List.all_cons, Bool.and_eq_true] at hes
    exact (perform_aside hes.1).trans (ih hes.2 _)

/-- Does the cursor point at a track? -/
def Startable (c : Control) : Prop := c.playlist.cursor < c.playlist.size

theorem Startable.advance (h : c.Startable) (direction : Transport.Direction) :
    (c.advance direction).Startable := by
  cases direction with
  | next => exact Playlist.lt_of_next h
  | prev => exact Playlist.lt_of_prev h

theorem playlist_startTrack (c : Control) : (c.startTrack played).playlist = c.playlist := by
  unfold startTrack
  split <;> rfl

theorem playlist_releaseTrack (c : Control) : (c.releaseTrack played).playlist = c.playlist := by
  have h := congrArg Sketch.playlist (sketch_releaseTrack (c := c) played)
  split at h <;> exact h

theorem state_releaseTrack (c : Control) : (c.releaseTrack played).state = c.state := by
  have h := congrArg Sketch.state (sketch_releaseTrack (c := c) played)
  split at h <;> exact h

theorem Aside.startable (h : Aside c c') (hc : c.Startable) : c'.Startable := by
  unfold Startable
  rw [h.cursor, h.size]
  exact hc

/-- No work takes the cursor off the list. -/
theorem Startable.perform (h : c.Startable) (e : Effect) :
    (c.perform played e).Startable := by
  by_cases he : e.holds
  · exact (perform_aside he).startable h
  · cases e with
    | advance direction => exact h.advance direction
    | startTrack =>
      unfold Startable
      rw [Control.perform, playlist_startTrack]
      exact h
    | releaseTrack =>
      unfold Startable
      rw [Control.perform, playlist_releaseTrack]
      exact h
    | _ => exact absurd rfl he

/-- A start finds something to start, and no other work touches the state. -/
theorem state_perform {e : Effect} (h : e = .startTrack → c.Startable) :
    (c.perform played e).state = c.state := by
  by_cases he : e.holds
  · exact (perform_aside he).state
  · cases e with
    | advance direction => rfl
    | startTrack =>
      rw [perform, startTrack, Playlist.current?_eq_some (h rfl)]
      rfl
    | releaseTrack =>
      rw [perform]
      exact state_releaseTrack c
    | _ => exact absurd rfl he

theorem Startable.foldl (h : c.Startable) (es : List Effect) :
    (es.foldl (Control.perform played) c).Startable ∧
      (es.foldl (Control.perform played) c).state = c.state := by
  induction es generalizing c with
  | nil => exact ⟨h, rfl⟩
  | cons e es ih =>
    obtain ⟨hstart, hstate⟩ := ih (h.perform e)
    exact ⟨hstart, hstate.trans (state_perform fun _ => h)⟩

theorem foldl_state {es : List Effect} (hes : .startTrack ∉ es) (c : Control) :
    (es.foldl (perform played) c).state = c.state := by
  induction es generalizing c with
  | nil => rfl
  | cons e es ih =>
    rw [List.mem_cons, not_or] at hes
    exact (ih hes.2 _).trans (state_perform fun he => absurd he.symm hes.1)

/-! ### Events -/

/-- Nothing is held while the player is stopped; otherwise the track at the cursor is, and it is the
last one that was asked for. -/
structure Pointed (c : Control) : Prop where
  stopped : c.state = .stopped ↔ c.held = none
  held : c.state ≠ .stopped → c.held = c.playlist.current?
  last : c.state ≠ .stopped → (startedTracks c.sent).getLast? = c.held

/-- One track is asked for at most, which is then the one at the cursor; the cursor takes one step at
most, over tracks that cannot be played; and while there is a track, it takes none without a start. -/
structure Leads (c c' : Control) : Prop where
  sent : ∃ news, c'.sent = c.sent ++ news ∧ (startedTracks news).length ≤ 1 ∧
    (∀ t ∈ startedTracks news, c'.playlist.current? = some t) ∧
    (c.state ≠ .stopped → c'.playlist.cursor ≠ c.playlist.cursor → startedTracks news ≠ [])
  cursor : c.playlist.Steps c'.playlist

theorem Pointed.startable (h : c.Pointed) (hs : c.state ≠ .stopped) : c.Startable := by
  have hheld : c.held ≠ none := fun hn => hs (h.stopped.2 hn)
  rw [h.held hs, Option.ne_none_iff_isSome] at hheld
  exact Playlist.current?_isSome.1 hheld

theorem Aside.pointed (h : Aside c c') (hc : c.Pointed) : c'.Pointed := by
  obtain ⟨news, hsent, hnews⟩ := h.sent
  have hcurrent : c'.playlist.current? = c.playlist.current? := by
    unfold Playlist.current?
    rw [h.cursor, h.size]
  refine ⟨?_, ?_, ?_⟩
  · rw [h.state, h.held]
    exact hc.stopped
  · rw [h.state, h.held, hcurrent]
    exact hc.held
  · rw [h.state, h.held, hsent, startedTracks_append, hnews, List.append_nil]
    exact hc.last

theorem Aside.leads {s : State} (h : Aside { c with state := s } c') : Leads c c' := by
  obtain ⟨news, hsent, hnews⟩ := h.sent
  refine ⟨⟨news, hsent, by simp [hnews], by simp [hnews], fun _ hne => absurd h.cursor hne⟩,
    .inl h.cursor⟩

theorem Aside.leads_trans (h : Aside c c') (h' : Leads c' c'') : Leads c c'' := by
  obtain ⟨news, hsent, hnews⟩ := h.sent
  obtain ⟨news', hsent', hone, hstart, hmove⟩ := h'.sent
  refine ⟨⟨news ++ news', by rw [hsent', hsent, List.append_assoc], ?_, ?_, ?_⟩, ?_⟩
  · simpa [hnews] using hone
  · simpa [hnews] using hstart
  · rw [← h.state, ← h.cursor]
    simpa [hnews] using hmove
  · have hsteps := h'.cursor
    rwa [Playlist.Steps, h.cursor] at hsteps

/-- To tell the world changes neither. -/
theorem publish_pointed {s : State} (h : c'.Pointed ∧ Leads c c') :
    (c'.publish s).Pointed ∧ Leads c (c'.publish s) := by
  unfold publish
  split
  · exact h
  · exact ⟨⟨h.1.stopped, h.1.held, h.1.last⟩, ⟨h.2.sent, h.2.cursor⟩⟩

/-- A track that stays. -/
theorem hold_pointed (h : c.Pointed) {s : State} {es : List Effect}
    (hs : s = .stopped ↔ c.state = .stopped) (hes : es.all Effect.holds) :
    (es.foldl (perform played) { c with state := s }).Pointed ∧
      Leads c (es.foldl (perform played) { c with state := s }) := by
  have haside := foldl_aside played hes { c with state := s }
  have hstate : ({ c with state := s } : Control).Pointed :=
    ⟨hs.trans h.stopped, fun hn => h.held fun hc => hn (hs.2 hc),
      fun hn => h.last fun hc => hn (hs.2 hc)⟩
  exact ⟨haside.pointed hstate, haside.leads⟩

/-- A step of the cursor. -/
theorem advance_cases (c : Control) (direction : Transport.Direction) :
    (c.advance direction).playlist.tracks = c.playlist.tracks ∧
      ((c.advance direction).playlist.cursor = c.playlist.cursor ∨
        c.playlist.nextIndex? = some (c.advance direction).playlist.cursor ∨
        c.playlist.prevIndex? = some (c.advance direction).playlist.cursor) := by
  cases direction with
  | next =>
    refine ⟨Playlist.tracks_next, ?_⟩
    rw [advance, Playlist.next]
    cases hi : c.playlist.nextIndex? with
    | none => exact .inl rfl
    | some i => exact .inr (.inl rfl)
  | prev =>
    refine ⟨Playlist.tracks_prev, ?_⟩
    rw [advance, Playlist.prev]
    cases hi : c.playlist.prevIndex? with
    | none => exact .inl rfl
    | some i => exact .inr (.inr rfl)

/-- A step while the player is stopped. -/
theorem step_pointed (h : c.Pointed) (hs : c.state = .stopped) (direction : Transport.Direction) :
    ({ c with state := .stopped }.advance direction).Pointed ∧
      Leads c ({ c with state := .stopped }.advance direction) := by
  obtain ⟨htracks, hcursor⟩ := advance_cases { c with state := .stopped } direction
  refine ⟨⟨iff_of_true rfl (h.stopped.1 hs), fun hn => absurd rfl hn, fun hn => absurd rfl hn⟩,
    ⟨[], (List.append_nil _).symm, by simp [startedTracks], by simp [startedTracks],
      fun hn => absurd hs hn⟩, ?_⟩
  exact Playlist.steps_of_tracks rfl htracks hcursor

/-- The step before a start, if there is one. -/
theorem approach (played : Span) (hs : c.Startable)
    (direction : Option Transport.Direction) :
    let c' := (direction.map Effect.advance).toList.foldl (perform played) c
    c'.Startable ∧ c'.state = c.state ∧ c'.sent = c.sent ∧
      c'.playlist.tracks = c.playlist.tracks ∧
      (c'.playlist.cursor = c.playlist.cursor ∨
        c.playlist.nextIndex? = some c'.playlist.cursor ∨
        c.playlist.prevIndex? = some c'.playlist.cursor) := by
  intro c'
  cases direction with
  | none => exact ⟨hs, rfl, rfl, rfl, .inl rfl⟩
  | some d =>
    obtain ⟨htracks, hcursor⟩ := advance_cases c d
    exact ⟨hs.advance d, rfl, rfl, htracks, hcursor⟩

/-- A start finds the track at the cursor. -/
theorem sketch_start (played : Span) (hs : c.Startable)
    (hstate : c.state = .starting) {last : List Effect}
    (hlast : last = [] ∨ last = [.releaseTrack]) :
    ((Effect.startTrack :: last).foldl (perform played) c).sketch =
      c.sketch.begin c.playlist c.playlist.cursor := by
  have hboth := sketch_startTrack (c := c) played (Playlist.current?_eq_some hs)
  rw [← hstate] at hboth
  rcases hlast with rfl | rfl
  · exact hboth.1
  · exact hboth.2

/-- The track that is started, and the step before it. -/
theorem start_pointed (hs : c.Startable) {first last : List Effect}
    {direction : Option Transport.Direction} (hfirst : first.all Effect.holds)
    (hlast : last = [] ∨ last = [.releaseTrack]) :
    ((first ++ (direction.map Effect.advance).toList ++ Effect.startTrack :: last).foldl
        (perform played) { c with state := .starting }).Pointed ∧
      Leads c ((first ++ (direction.map Effect.advance).toList ++ Effect.startTrack :: last).foldl
        (perform played) { c with state := .starting }) := by
  have haside := foldl_aside played hfirst { c with state := .starting }
  rw [List.foldl_append, List.foldl_append]
  generalize first.foldl (perform played) { c with state := .starting } = c₁ at haside ⊢
  obtain ⟨news, hsent, hnews⟩ := haside.sent
  obtain ⟨hstart, hstate, hsent₂, htracks, hcursor⟩ :=
    approach played (haside.startable hs) direction
  generalize (direction.map Effect.advance).toList.foldl (perform played) c₁ = c₂
    at hstart hstate hsent₂ htracks hcursor ⊢
  have hcurrent : c₂.playlist.current? = some c₂.playlist.cursor := Playlist.current?_eq_some hstart
  have hk := sketch_start played hstart (hstate.trans haside.state) hlast
  generalize (Effect.startTrack :: last).foldl (perform played) c₂ = c' at hk ⊢
  have hstate' : c'.state = .starting := congrArg Sketch.state hk
  have hheld : c'.held = some c₂.playlist.cursor := congrArg Sketch.held hk
  have hplaylist : c'.playlist = c₂.playlist := congrArg Sketch.playlist hk
  have hsent' : c'.sent = c₂.sent ++ [.start (c₂.session + 1) c₂.playlist.cursor c₂.pendingSeek] :=
    congrArg Sketch.sent hk
  rw [hsent₂, hsent, List.append_assoc] at hsent'
  generalize hall : news ++ [Request.start (c₂.session + 1) c₂.playlist.cursor c₂.pendingSeek] = all
    at hsent'
  have hone : startedTracks all = [c₂.playlist.cursor] := by
    rw [← hall, startedTracks_append, hnews]
    rfl
  refine ⟨⟨?_, fun _ => ?_, fun _ => ?_⟩, ⟨all, hsent', ?_, ?_, ?_⟩, ?_⟩
  · simp [hstate', hheld]
  · rw [hheld, hplaylist, hcurrent]
  · rw [hsent', startedTracks_append, hone, hheld]
    simp
  · simp [hone]
  · intro t ht
    rw [hone, List.mem_singleton] at ht
    rw [ht, hplaylist, hcurrent]
  · simp [hone]
  · rw [hplaylist]
    exact Playlist.steps_of_tracks haside.cursor htracks hcursor

/-- The end of the last track. -/
theorem finish_pointed {first : List Effect} (hfirst : first.all Effect.holds) :
    ((first ++ [Effect.releaseTrack]).foldl (perform played)
        { c with state := .stopped }).Pointed ∧
      Leads c ((first ++ [Effect.releaseTrack]).foldl (perform played)
        { c with state := .stopped }) := by
  have haside := foldl_aside played hfirst { c with state := .stopped }
  rw [List.foldl_append]
  generalize first.foldl (perform played) { c with state := .stopped } = c₁ at haside ⊢
  have hk : ([Effect.releaseTrack].foldl (perform played) c₁).sketch =
      { c₁.sketch with held := none } := by
    have hrelease := sketch_releaseTrack (c := c₁) played
    rwa [if_pos (show c₁.state = .stopped from haside.state)] at hrelease
  generalize [Effect.releaseTrack].foldl (perform played) c₁ = c' at hk ⊢
  have hstate : c'.state = .stopped := (congrArg Sketch.state hk).trans haside.state
  have hheld : c'.held = none := congrArg Sketch.held hk
  have hplaylist : c'.playlist = c₁.playlist := congrArg Sketch.playlist hk
  have hsent : c'.sent = c₁.sent := congrArg Sketch.sent hk
  obtain ⟨hnews, hcursor⟩ := haside.leads
  refine ⟨⟨iff_of_true hstate hheld, fun hn => absurd hstate hn, fun hn => absurd hstate hn⟩,
    ?_, ?_⟩
  · rw [hsent, hplaylist]
    exact hnews
  · rw [hplaylist]
    exact hcursor

/-- Every event keeps what plays at the cursor. -/
theorem dispatch_pointed (h : c.Pointed) (played : Span)
    (e : Transport.Event) :
    (c.dispatch played e).Pointed ∧ Leads c (c.dispatch played e) := by
  have hrow := Transport.transition_row c.state e c.around
  unfold dispatch
  generalize Transport.transition c.state e c.around = row at hrow
  refine publish_pointed ?_
  cases hrow with
  | hold hs hes => exact hold_pointed h hs hes
  | step hs => exact step_pointed h hs _
  | start direction hs hfirst hlast =>
    refine start_pointed ?_ hfirst hlast
    by_cases hst : c.state = .stopped
    · exact Playlist.current?_isSome.1 (hs hst)
    · exact h.startable hst
  | finish hs hfirst => exact finish_pointed hfirst

/-! ### Runs -/

theorem step_pointed_leads (h : c.Pointed) (i : Input) :
    (c.step played i).Pointed ∧ Leads c (c.step played i) := by
  obtain ⟨c₁, haside, hstep | ⟨e, hstep⟩⟩ := step_cases played c i
  · rw [hstep]
    exact ⟨haside.pointed h, haside.leads⟩
  · rw [hstep]
    obtain ⟨hpointed, hleads⟩ := dispatch_pointed (haside.pointed h) played e
    exact ⟨hpointed, haside.leads_trans hleads⟩

theorem Pointed.run (h : c.Pointed) (inputs : List (Span × Input)) :
    (c.run inputs).Pointed := by
  induction inputs generalizing c with
  | nil => exact h
  | cons i is ih => exact ih (step_pointed_leads h i.2).1

/-- While an event is worked on, the state is the one that the table has given, and a start finds
something to start. -/
theorem Pointed.during (h : c.Pointed) {e : Transport.Event} {es rest : List Effect}
    (hes : (Transport.transition c.state e c.around).2 = es ++ rest) :
    let mid := es.foldl (perform played)
      { c with state := (Transport.transition c.state e c.around).1 }
    mid.state = (Transport.transition c.state e c.around).1 ∧
      (rest.head? = some .startTrack → mid.playlist.current?.isSome) := by
  intro mid
  by_cases hs : c.Startable
  · have hs' : ({ c with state := (Transport.transition c.state e c.around).1 } :
        Control).Startable := hs
    obtain ⟨hmid, hstate⟩ : mid.Startable ∧ mid.state = _ := hs'.foldl es
    exact ⟨hstate, fun _ => Playlist.current?_isSome.2 hmid⟩
  · -- there is no track at the cursor, so the player is stopped, and the table starts nothing
    have hst : c.state = .stopped :=
      Decidable.byContradiction fun hne => hs (h.startable hne)
    have hnone : .startTrack ∉ es ++ rest := by
      rw [← hes, hst]
      refine Transport.starts_nothing e ?_
      rw [← Bool.not_eq_true]
      exact fun hc => hs (Playlist.current?_isSome.1 hc)
    rw [List.mem_append, not_or] at hnone
    exact ⟨foldl_state hnone.1 _, fun hhead => absurd (List.mem_of_head? hhead) hnone.2⟩

theorem pointed_new (fades : Fades) (playlist : Playlist) :
    ({ fades, playlist } : Control).Pointed :=
  ⟨iff_of_true rfl rfl, fun hn => absurd rfl hn, fun hn => absurd rfl hn⟩

/-- What plays is what the playlist points at. Between two pieces of work nothing is held exactly
while the player is stopped, and otherwise the track at the cursor, the last one asked for. Every step
asks for one track at most, moves the cursor by one step at most, and while there is a track only
together with a start. No start finds nothing to start, so the state is never another one than the
table says; and where there is a next track, a boundary to it starts it. -/
theorem plays_what_the_cursor_points_at (fades : Fades) (playlist : Playlist)
    (inputs : List (Span × Input)) :
    let c := Control.run { fades, playlist } inputs
    c.Pointed ∧
      (∀ played i, Leads c (c.step played i)) ∧
      (∀ played e es rest, (Transport.transition c.state e c.around).2 = es ++ rest →
        let mid := es.foldl (perform played)
          { c with state := (Transport.transition c.state e c.around).1 }
        mid.state = (Transport.transition c.state e c.around).1 ∧
          (rest.head? = some .startTrack → mid.playlist.current?.isSome)) ∧
      (c.playlist.hasNext →
        (c.state.isRunning ∨ c.state = .fadingTo .next →
          (Transport.transition c.state .deviceIdle c.around).1 = .starting) ∧
        (c.state = .starting →
          (Transport.transition c.state .trackFailed c.around).1 = .starting)) := by
  intro c
  have hc : c.Pointed := (pointed_new fades playlist).run inputs
  refine ⟨hc, fun played i => (step_pointed_leads hc i).2, fun played e es rest => hc.during,
    fun hnext => ⟨fun hs => ?_, fun hs => ?_⟩⟩
  · exact Transport.idle_starts hs hnext
  · rw [hs]
    exact Transport.boundary_starts hnext

/-- A track that stands in the list twice and cannot be played: it is marked in both places, so the
cursor stays, and the track is asked for once more. -/
example :
    let track : Track := { Track.ofPath "a.wav" with key := some 0 }
    let c := Control.run { playlist := { tracks := [track, track] } }
      [(.zero, .command .play), (.zero, .notice ⟨1, .failed⟩)]
    c.state = .starting ∧ c.playlist.cursor = 0 ∧ startedTracks c.sent = [0, 0] := ⟨rfl, rfl, rfl⟩

end Control

end Deck

end Jukebox
