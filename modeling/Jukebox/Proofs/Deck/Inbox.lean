import Jukebox.Proofs.Deck.Control

/-!
What subscribers are told of a track: that it has started, or that it cannot be played. A command
tells neither. A notice of the running session tells the one if it is the first to say that the track
is active, and the other if it says that the track has failed while the control side waits for it;
then the track is marked, and no other track ever is.
-/

namespace Jukebox.Playlist

variable {p : Playlist}

@[simp] theorem tracks_next : p.next.1.tracks = p.tracks := by
  unfold next
  cases p.nextIndex? <;> rfl

@[simp] theorem tracks_prev : p.prev.1.tracks = p.tracks := by
  unfold prev
  cases p.prevIndex? <;> rfl

theorem isPlayable_mark (i j : Nat) :
    (p.mark i).isPlayable j ↔ p.isPlayable j ∧ p.isSame i j = false := by
  unfold isPlayable track? mark update
  rw [List.getElem?_mapIdx]
  cases p.isSame i j <;> cases p.tracks[j]? <;> simp

end Jukebox.Playlist

namespace Jukebox.Deck

open Transport (State)

/-- What becomes of a start, with the title of the track. -/
inductive Fate where
  | started (title : String)
  | unplayable (title : String)
  deriving DecidableEq

/-- The fate that a notification tells. -/
def Notification.fate? : Notification → Option Fate
  | .started title => some (.started title)
  | .unplayable title => some (.unplayable title)
  | .stateChanged .. => none

/-- A state in which the end of a start is still awaited. -/
def Awaits (s : State) : Prop := s = .starting ∨ s.isFading

instance (s : State) : Decidable (Awaits s) := inferInstanceAs (Decidable (_ ∨ _))

namespace Control

/-- The fates that the first subscriber has been told, oldest first. -/
def fates (c : Control) : List Fate := (c.inboxes.head?.getD []).filterMap Notification.fate?

/-- The track that a report of the running session marks. -/
def marks (c : Control) : DeviceEvent → Option Nat
  | .failed => if Awaits c.state then c.held else none
  | .active | .suspended | .idle => none

/-- The fate that a report of the running session tells. -/
def tells (c : Control) : DeviceEvent → Option Fate
  | .active => if c.announced then none else c.held.map fun track => .started (c.title track)
  | .failed => (c.marks .failed).map fun track => .unplayable (c.title track)
  | .suspended | .idle => none

variable {c c' c'' : Control} {played : Span}

theorem fates_notify (h : c.inboxes ≠ []) (n : Notification) :
    (c.notify n).fates = c.fates ++ n.fate?.toList := by
  obtain ⟨inbox, others, hi⟩ := List.exists_cons_of_ne_nil h
  simp only [fates, notify, hi, List.map_cons, List.head?_cons, Option.getD_some,
    List.filterMap_append]
  cases hn : n.fate? <;> simp [hn]

theorem attended_notify (h : c.inboxes ≠ []) (n : Notification) : (c.notify n).inboxes ≠ [] := by
  simpa [notify] using h

/-! ### What tells nothing of a track -/

/-- Nothing has been told of a track, none is marked, and what has begun since is not announced. -/
structure Untold (c c' : Control) : Prop where
  attended : c.inboxes ≠ [] → c'.inboxes ≠ []
  fates : c'.fates = c.fates
  tracks : c'.playlist.tracks = c.playlist.tracks
  later : c.session ≤ c'.session
  announced : c'.announced = if c'.session = c.session then c.announced else false

namespace Untold

theorem of_eq (hi : c'.inboxes = c.inboxes) (ht : c'.playlist.tracks = c.playlist.tracks)
    (hs : c'.session = c.session) (ha : c'.announced = c.announced) : Untold c c' := by
  refine ⟨fun h => hi ▸ h, ?_, ht, Nat.le_of_eq hs.symm, ?_⟩
  · rw [Control.fates, Control.fates, hi]
  · rw [if_pos hs, ha]

theorem refl (c : Control) : Untold c c := of_eq rfl rfl rfl rfl

theorem trans (h : Untold c c') (h' : Untold c' c'') : Untold c c'' := by
  have hle := h.later
  have hle' := h'.later
  refine ⟨fun ha => h'.attended (h.attended ha), h'.fates.trans h.fates, h'.tracks.trans h.tracks,
    Nat.le_trans hle hle', ?_⟩
  rw [h'.announced, h.announced]
  by_cases hs : c''.session = c.session
  · have hs' : c''.session = c'.session := by omega
    rw [if_pos hs', if_pos (hs'.symm.trans hs), if_pos hs]
  · rw [if_neg hs]
    split
    · next hs' => rw [if_neg fun he => hs (hs'.trans he)]
    · rfl

theorem publish (h : Untold c c') (s : State) : Untold c (c'.publish s) := by
  refine h.trans ?_
  unfold Control.publish
  split
  · exact refl c'
  · refine ⟨fun ha => attended_notify ha _, ?_, rfl, Nat.le_refl _, (if_pos rfl).symm⟩
    by_cases ha : c'.inboxes = []
    · simp [Control.fates, notify, ha]
    · rw [fates_notify (c := { c' with shown := c'.state }) ha]
      exact List.append_nil _

end Untold

/-- Closing tracks only writes the ledger. -/
theorem record_all_eq (entries : List (Nat × Span)) (c : Control) : ∃ ledger,
    entries.foldl (fun c (track, played) => c.record (.finished track played)) c =
      { c with ledger } := by
  induction entries generalizing c with
  | nil => exact ⟨c.ledger, rfl⟩
  | cons e es ih =>
    obtain ⟨ledger, h⟩ := ih (c.record (.finished e.1 e.2))
    exact ⟨ledger, h⟩

theorem releaseTrack_untold : Untold c (c.releaseTrack played) := by
  obtain ⟨ledger, h⟩ := record_all_eq c.retired { c with retired := [] }
  unfold releaseTrack
  dsimp only at h ⊢
  rw [h]
  split
  · split <;> exact .of_eq rfl rfl rfl rfl
  · exact .of_eq rfl rfl rfl rfl

theorem startTrack_untold : Untold c (c.startTrack played) := by
  unfold startTrack
  split
  · exact .of_eq rfl rfl rfl rfl
  · exact ⟨id, rfl, rfl, Nat.le_succ _, (if_neg (Nat.succ_ne_self _)).symm⟩

/-- Only marking a track tells something of one. -/
theorem perform_untold {e : Transport.Effect} (he : e ≠ .markUnplayable) :
    Untold c (c.perform played e) := by
  cases e with
  | markUnplayable => exact absurd rfl he
  | startTrack => exact startTrack_untold
  | releaseTrack => exact releaseTrack_untold
  | advance d => cases d <;> exact .of_eq rfl (by simp [perform, advance]) rfl rfl
  | _ => exact .of_eq rfl rfl rfl rfl

theorem foldl_untold {es : List Transport.Effect} (hes : .markUnplayable ∉ es) (c : Control) :
    Untold c (es.foldl (perform played) c) := by
  induction es generalizing c with
  | nil => exact .refl c
  | cons e es ih =>
    rw [List.mem_cons, not_or] at hes
    exact (perform_untold (Ne.symm hes.1)).trans (ih hes.2 _)

/-! ### What marks a track -/

theorem boundary_marks (first : List Transport.Effect) (around : Transport.Around) : ∃ rest,
    .markUnplayable ∉ rest ∧ (Transport.boundary first around).2 = first ++ rest := by
  unfold Transport.boundary
  split
  · exact ⟨_, by simp, rfl⟩
  · exact ⟨_, by simp, rfl⟩

theorem not_mem_arrival (target : Transport.Target) (around : Transport.Around) :
    .markUnplayable ∉ (Transport.arrival target around).2 := by
  cases target <;> unfold Transport.arrival <;> dsimp only <;> split <;> simp

theorem not_mem_skip (s : State) (d : Transport.Direction) :
    .markUnplayable ∉ (Transport.skip s d).2 := by
  cases s <;> simp [Transport.skip]

/-- The table marks a track first of all, and only where it fails while its start is awaited. -/
theorem transition_marks (s : State) (e : Transport.Event) (around : Transport.Around) :
    ∃ rest, .markUnplayable ∉ rest ∧ (Transport.transition s e around).2 =
      (if e = .trackFailed ∧ Awaits s then [.markUnplayable] else []) ++ rest := by
  have plain : ¬ (e = .trackFailed ∧ Awaits s) →
      .markUnplayable ∉ (Transport.transition s e around).2 →
      ∃ rest, .markUnplayable ∉ rest ∧ (Transport.transition s e around).2 =
        (if e = .trackFailed ∧ Awaits s then [.markUnplayable] else []) ++ rest := by
    intro hno hmem
    exact ⟨_, hmem, by rw [if_neg hno, List.nil_append]⟩
  cases e with
  | trackFailed =>
    cases s with
    | starting => exact boundary_marks [.markUnplayable] around
    | fadingToStop | fadingTo => exact ⟨[], by simp, rfl⟩
    | stopped | playing | paused =>
      exact plain (by simp [Awaits, State.isFading]) (by simp [Transport.transition])
  | deviceIdle =>
    refine plain (by simp) ?_
    obtain ⟨rest, hrest, hall⟩ := boundary_marks [] around
    cases s with
    | playing | starting =>
      rw [List.nil_append] at hall
      exact hall ▸ hrest
    | fadingTo target => exact not_mem_arrival target around
    | stopped | paused | fadingToStop => simp [Transport.transition]
  | next =>
    refine plain (by simp) ?_
    cases s <;> exact not_mem_skip _ .next
  | prev =>
    refine plain (by simp) ?_
    cases s <;> exact not_mem_skip _ .prev
  | start =>
    refine plain (by simp) ?_
    cases s <;> simp only [Transport.transition] <;> (try split) <;> simp
  | _ =>
    refine plain (by simp) ?_
    cases s <;> simp [Transport.transition]

/-- Before anything else, a failure that is awaited marks the track and tells so. -/
theorem dispatch_eq (c : Control) (played : Span) (e : Transport.Event) : ∃ s,
    Untold (if e = .trackFailed ∧ Awaits c.state then { c with state := s }.markUnplayable else c)
      (c.dispatch played e) := by
  obtain ⟨rest, hrest, hall⟩ := transition_marks c.state e c.around
  refine ⟨(Transport.transition c.state e c.around).1, ?_⟩
  unfold dispatch
  dsimp only
  rw [hall]
  split
  · exact (foldl_untold hrest _).publish _
  · have hstate : Untold c { c with state := (Transport.transition c.state e c.around).1 } :=
      .of_eq rfl rfl rfl rfl
    exact (hstate.trans (foldl_untold hrest _)).publish _

theorem dispatch_untold {e : Transport.Event} (he : e ≠ .trackFailed) :
    Untold c (c.dispatch played e) := by
  obtain ⟨s, h⟩ := dispatch_eq c played e
  rwa [if_neg fun hf => he hf.1] at h

/-! ### Commands and notices -/

/-- No command tells anything of a track. -/
theorem onCommand_untold (cmd : Command) : Untold c (c.onCommand played cmd) := by
  cases cmd with
  | play | pause | resume | stop | next | prev => exact dispatch_untold (by simp)
  | togglePause =>
    rw [onCommand]
    split
    · exact dispatch_untold (by simp)
    · split
      · exact dispatch_untold (by simp)
      · exact .refl c
  | seek position =>
    rw [onCommand, seek]
    split <;> exact .of_eq rfl rfl rfl rfl
  | setTempo tempo =>
    rw [onCommand, setTempo]
    split <;> exact .of_eq rfl rfl rfl rfl
  | subscribe =>
    refine ⟨by simp [onCommand], ?_, rfl, Nat.le_refl _, (if_pos rfl).symm⟩
    cases hi : c.inboxes <;> simp [onCommand, fates, hi]
  | shutdown => exact .of_eq rfl rfl rfl rfl

/-- What a report of the running session tells and marks, and what is announced then. -/
structure Tells (c : Control) (e : DeviceEvent) (c' : Control) : Prop where
  attended : c'.inboxes ≠ []
  fates : c'.fates = c.fates ++ (c.tells e).toList
  tracks : c'.playlist.tracks = ((c.marks e).elim c.playlist c.playlist.mark).tracks
  announced : c'.announced =
    if c'.session = c.session then c.announced || decide (e = .active) else false

/-- What is told at once, and then nothing. -/
theorem Tells.trans {e : DeviceEvent} (h : c.Tells e c') (hs : c'.session = c.session)
    (h' : Untold c' c'') : c.Tells e c'' := by
  have hann := h.announced
  rw [if_pos hs] at hann
  refine ⟨h'.attended h.attended, h'.fates.trans h.fates, h'.tracks.trans h.tracks, ?_⟩
  rw [h'.announced, hs, hann]

/-- A report that tells nothing. -/
theorem Untold.tells {e : DeviceEvent} (h : Untold c c') (ha : c.inboxes ≠ [])
    (hnone : c.tells e = none) (hmark : c.marks e = none) (he : e ≠ .active) : c.Tells e c' := by
  have hstill : c.Tells e c := by
    refine ⟨ha, by simp [hnone], by simp [hmark], by simp [he]⟩
  exact hstill.trans rfl h

theorem announce_tells (ha : c.inboxes ≠ []) : c.Tells .active c.announce := by
  unfold announce
  by_cases hn : c.announced = true
  · rw [if_pos hn]
    exact ⟨ha, by simp [tells, hn], rfl, by simp [hn]⟩
  · rw [if_neg hn]
    dsimp only
    split
    · next hh => exact ⟨ha, by simp [tells, hh, fates], rfl, by simp⟩
    · next track hh =>
      have hi : (record { c with announced := true } (.started track)).inboxes ≠ [] := ha
      refine ⟨attended_notify hi _, ?_, rfl, by simp [notify, record]⟩
      rw [fates_notify hi, tells, if_neg hn, hh]
      rfl

theorem markUnplayable_tells (ha : c.inboxes ≠ []) (hw : Awaits c.state) (s : State) :
    c.Tells .failed { c with state := s }.markUnplayable := by
  have hmarks : c.marks .failed = c.held := if_pos hw
  unfold markUnplayable
  dsimp only
  split
  · next hh =>
    exact ⟨ha, by simp [tells, hmarks, hh, fates], by simp [hmarks, hh], by simp⟩
  · next track hh =>
    have hi : ({ c with state := s, playlist := c.playlist.mark track } : Control).inboxes ≠ [] := ha
    refine ⟨attended_notify hi _, ?_, by rw [hmarks, hh]; rfl, by simp [notify]⟩
    rw [fates_notify hi, tells, hmarks, hh]
    rfl

/-- What every notice of the running session tells. -/
theorem onNotice_tells (ha : c.inboxes ≠ []) {n : Notice} (hn : n.session = c.session) :
    c.Tells n.event (c.onNotice played n) := by
  rw [onNotice, if_pos hn]
  cases n.event with
  | active =>
    refine (announce_tells ha).trans ?_ (dispatch_untold (by simp))
    exact congrArg Sketch.session (sketch_announce (c := c))
  | suspended => exact (dispatch_untold (by simp)).tells ha rfl rfl (by simp)
  | idle => exact (dispatch_untold (by simp)).tells ha rfl rfl (by simp)
  | failed =>
    obtain ⟨s, h⟩ := dispatch_eq c played .trackFailed
    by_cases hw : Awaits c.state
    · rw [if_pos ⟨rfl, hw⟩] at h
      refine (markUnplayable_tells ha hw s).trans ?_ h
      exact congrArg Sketch.session (sketch_markUnplayable (c := { c with state := s }))
    · rw [if_neg fun hf => hw hf.2] at h
      have hmark : c.marks .failed = none := if_neg hw
      exact h.tells ha (by rw [tells, hmark]; rfl) hmark (by simp)

end Control

end Jukebox.Deck
