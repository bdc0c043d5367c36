import Jukebox.Proofs.Deck.Desk

/-!
The history of states that subscribers are given. The state is written by the transport table and by
a start that finds nothing to start, the status and the subscribers only after all work is done; so
the changes that a subscriber is told of could miss a state, or tell of one that never was. They do
not: they lead without a gap from the state in which it subscribed to the state of now.
-/

namespace Jukebox.Deck

open Transport (State)

/-- Changes that lead from one state to another without a gap. -/
def Gapless : State → List (State × State) → State → Prop
  | s, [], s' => s = s'
  | s, (before, after) :: rest, s' => before = s ∧ before ≠ after ∧ Gapless after rest s'

theorem Gapless.append {s s' s'' : State} {cs cs' : List (State × State)} (h : Gapless s cs s')
    (h' : Gapless s' cs' s'') : Gapless s (cs ++ cs') s'' := by
  induction cs generalizing s with
  | nil =>
    cases h
    exact h'
  | cons change rest ih =>
    obtain ⟨hbefore, hne, hrest⟩ := h
    exact ⟨hbefore, hne, ih hrest⟩

namespace Control

variable {c c' c'' : Control} {played : Span}

/-! ### While work is done -/

/-- Nobody is told of a state, nor is the status. -/
structure Unpublished (c c' : Control) : Prop where
  shown : c'.shown = c.shown
  silent : Silent c c'

theorem Unpublished.of_eq (hs : c'.shown = c.shown) (hi : c'.inboxes = c.inboxes) :
    Unpublished c c' := ⟨hs, .of_eq hi⟩

theorem Unpublished.trans (h : Unpublished c c') (h' : Unpublished c' c'') : Unpublished c c'' :=
  ⟨h'.shown.trans h.shown, h.silent.trans h'.silent⟩

theorem releaseTrack_unpublished : Unpublished c (c.releaseTrack played) := by
  obtain ⟨ledger, h⟩ := record_all_eq c.retired { c with retired := [] }
  unfold releaseTrack
  dsimp only at h ⊢
  rw [h]
  split
  · split <;> exact .of_eq rfl rfl
  · exact .of_eq rfl rfl

theorem startTrack_unpublished : Unpublished c (c.startTrack played) := by
  unfold startTrack
  split <;> exact .of_eq rfl rfl

theorem perform_unpublished (e : Transport.Effect) : Unpublished c (c.perform played e) := by
  cases e with
  | startTrack => exact startTrack_unpublished
  | releaseTrack => exact releaseTrack_unpublished
  | markUnplayable =>
    rw [perform, markUnplayable]
    split
    · exact .of_eq rfl rfl
    · exact ⟨rfl, .notify (c := { c with playlist := _ }) rfl⟩
  | _ => exact .of_eq rfl rfl

theorem foldl_unpublished (es : List Transport.Effect) (c : Control) :
    Unpublished c (es.foldl (perform played) c) := by
  induction es generalizing c with
  | nil => exact .of_eq rfl rfl
  | cons e es ih => exact (perform_unpublished e).trans (ih _)

/-! ### Between two pieces of work -/

/-- Every subscriber is told how the state has come to be what it is, and the status follows. -/
structure Chronicled (c c' : Control) : Prop where
  shown : c.shown = c.state → c'.shown = c'.state
  told : ∀ (n : Nat) (inbox : List Notification), c.inboxes[n]? = some inbox →
    ∃ more, c'.inboxes[n]? = some (inbox ++ more) ∧ Gapless c.state (changes more) c'.state

namespace Chronicled

theorem refl (c : Control) : Chronicled c c :=
  ⟨id, fun _ inbox hn => ⟨[], by rw [hn, List.append_nil], rfl⟩⟩

theorem trans (h : Chronicled c c') (h' : Chronicled c' c'') : Chronicled c c'' := by
  refine ⟨fun hs => h'.shown (h.shown hs), fun n inbox hn => ?_⟩
  obtain ⟨more, hn', hmore⟩ := h.told n inbox hn
  obtain ⟨more', hn'', hmore'⟩ := h'.told n _ hn'
  refine ⟨more ++ more', by rw [hn'', List.append_assoc], ?_⟩
  rw [changes_append]
  exact hmore.append hmore'

theorem of_aside (h : Aside c c') : Chronicled c c' := by
  refine ⟨fun hs => h.shown.trans (hs.trans h.state.symm), fun n inbox hn => ?_⟩
  obtain ⟨more, hn', hmore⟩ := h.silent n inbox hn
  exact ⟨more, hn', by rw [hmore]; exact h.state.symm⟩

/-- Whatever the work has made of the state, it is told once it is done. -/
theorem publish {s : State} (h : Unpublished { c with state := s } c') :
    Chronicled c (c'.publish c.state) := by
  unfold Control.publish
  split
  · next hs =>
    refine ⟨fun hc => h.shown.trans (hc.trans hs.symm), fun n inbox hn => ?_⟩
    obtain ⟨more, hn', hmore⟩ := h.silent n inbox hn
    exact ⟨more, hn', by rw [hmore]; exact hs.symm⟩
  · next hs =>
    refine ⟨fun _ => rfl, fun n inbox hn => ?_⟩
    obtain ⟨more, hn', hmore⟩ := h.silent n inbox hn
    refine ⟨more ++ [.stateChanged c.state c'.state], ?_, ?_⟩
    · simp [notify, hn']
    · rw [changes_append, hmore]
      exact ⟨rfl, Ne.symm hs, rfl⟩

theorem dispatch (e : Transport.Event) : Chronicled c (c.dispatch played e) :=
  publish (foldl_unpublished _ _)

theorem step (i : Input) : Chronicled c (c.step played i) := by
  obtain ⟨c₁, haside, hstep | ⟨e, hstep⟩⟩ := step_cases played c i
  · rw [hstep]
    exact of_aside haside
  · rw [hstep]
    exact (of_aside haside).trans (dispatch e)

theorem run (inputs : List (Span × Input)) : Chronicled c (c.run inputs) := by
  induction inputs generalizing c with
  | nil => exact refl c
  | cons i is ih => exact (step i.2).trans ih

end Chronicled

/-- The status always tells the state of the control side, and the changes that a subscriber is told
of lead without a gap from the state in which it subscribed to the state of now. -/
theorem history_is_gapless (fades : Fades) (playlist : Playlist)
    (before after : List (Span × Input)) (played : Span) :
    let c := Control.run { fades, playlist } before
    let c' := (c.step played (.command .subscribe)).run after
    c.shown = c.state ∧ c'.shown = c'.state ∧
      ∃ inbox, c'.inboxes[c.inboxes.length]? = some inbox ∧
        Gapless c.state (changes inbox) c'.state := by
  intro c c'
  have hc : c.shown = c.state := (Chronicled.run before).shown rfl
  have hafter : Chronicled { c with inboxes := c.inboxes ++ [[]] } c' := .run after
  obtain ⟨more, hmore, hgapless⟩ := hafter.told c.inboxes.length [] (by simp)
  exact ⟨hc, hafter.shown hc, more, hmore, hgapless⟩

/-- A track that is started and stopped before it is heard. -/
example : changes ((Control.run { playlist := { tracks := [.ofPath "a.wav"] } }
    [(.zero, .command .subscribe), (.zero, .command .play), (.zero, .command .stop),
      (.zero, .notice ⟨1, .idle⟩)]).inboxes.headD []) =
    [(.stopped, .starting), (.starting, .fadingToStop), (.fadingToStop, .stopped)] := by rfl

end Control

/-- So the status of a deck tells the state of its control side. -/
theorem Reachable.state_status {w : World} {fades : Fades} {playlist : Playlist} {d : Deck}
    (h : Reachable w fades playlist d) (device : Option String) (bufferFrames : Option Nat) :
    (d.status w device bufferFrames).state = d.control.state := by
  obtain ⟨moves, hrun⟩ := h
  obtain ⟨inputs, hinputs⟩ := control_run hrun
  have hchronicled : Control.Chronicled (initial fades playlist).control d.control :=
    hinputs ▸ .run inputs
  exact hchronicled.shown rfl

end Jukebox.Deck
