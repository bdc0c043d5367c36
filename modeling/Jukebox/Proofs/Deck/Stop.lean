import Jukebox.Proofs.Deck.Overtaken

/-!
What a stop is worth. A stop of a track that starts, plays or fades leads to the end whatever is on
its way, and so does the stop of a paused track unless the track was asked to play on before and has
not answered yet. The main statement says that this is the only way.
-/

namespace Jukebox.Deck

open Output.Sketch (Turn)
open Transport (State)

variable {w : World} {m : Move} {c : Cause} {k k' : Control.Sketch} {f f' : Output.Sketch}
  {d d' : Deck}

/-! ### Where nothing is started any more -/

/-- Nothing that is on its way will start a track. -/
structure Settled (k : Control.Sketch) (f : Output.Sketch) : Prop where
  closed : k.closed = false
  state : k.state = .stopped ∨ k.state = .fadingToStop ∨
    (k.state = .playing ∨ k.state = .paused) ∧ k.playlist.hasNext = false ∨
    k.state = .paused ∧ ¬ AwaitsActive k f

theorem Settled.heard {n : Notice} (h : Settled k f) (hp : f.phase = .reporting n)
    (hn : n.session = k.session) (hk : k.Heard n.event k')
    (hf : f'.phase = .ready ∧ f'.taken = f.taken) : Settled k' f' ∧ k'.sent = k.sent := by
  obtain ⟨hcl, hst⟩ := h
  obtain ⟨hready, htaken⟩ := hf
  have hpend : pending k f' = pending k f := by rw [pending, htaken]; rfl
  have hevent : f.phase = .reporting ⟨k.session, n.event⟩ := by rw [hp, ← hn]
  generalize n.event = e at hk hevent
  have waits : ¬ AwaitsActive k f → e ≠ .idle → ∀ {k₁ : Control.Sketch}, k₁.sent = k.sent →
      k₁.session = k.session → ¬ AwaitsActive k₁ f' := by
    intro hno he k₁ hsent hid hor
    rcases hor with hp' | ⟨hm, -⟩
    · simp [hready] at hp'
    · refine hno (.inr ⟨?_, by simpa [hevent] using he⟩)
      rw [← hpend, pending, ← hsent, ← hid]
      exact hm
  cases hk with
  | play hs =>
    refine ⟨⟨hcl, ?_⟩, rfl⟩
    rcases hst with hst | hst | ⟨-, hnext⟩ | ⟨-, hno⟩
    · simp [hst, State.isRunning] at hs
    · simp [hst, State.isRunning] at hs
    · exact .inr (.inr (.inl ⟨.inl rfl, hnext⟩))
    · exact absurd (.inl hevent) hno
  | pause hs =>
    refine ⟨⟨hcl, ?_⟩, rfl⟩
    rcases hst with hst | hst | ⟨-, hnext⟩ | ⟨-, hno⟩
    · simp [hst, State.isRunning] at hs
    · simp [hst, State.isRunning] at hs
    · exact .inr (.inr (.inl ⟨.inr rfl, hnext⟩))
    · exact .inr (.inr (.inr ⟨rfl, waits hno (by simp) rfl rfl⟩))
  | next hs hnext =>
    rcases hst with hst | hst | ⟨-, hno⟩ | ⟨hst, -⟩
    · simp [hst, State.isRunning] at hs
    · simp [hst, State.isRunning] at hs
    · simp [hno] at hnext
    · simp [hst, State.isRunning] at hs
  | arrive hs | skip hs =>
    rcases hst with hst | hst | ⟨hst | hst, -⟩ | ⟨hst, -⟩ <;> simp [hs] at hst
  | finish | giveUp => exact ⟨⟨hcl, .inl rfl⟩, rfl⟩
  | mark hs =>
    refine ⟨⟨hcl, ?_⟩, rfl⟩
    rcases hst with hst | hst | ⟨hst | hst, -⟩ | ⟨hst, -⟩
    · exact .inl hst
    · exact .inr (.inl hst)
    all_goals simp [hst, State.isFading] at hs
  | ignored hs =>
    refine ⟨⟨hcl, hst.imp id (Or.imp id (Or.imp id ?_))⟩, rfl⟩
    rintro ⟨hst, hno⟩
    refine ⟨hst, waits hno ?_ rfl rfl⟩
    rintro rfl
    simp [hst, State.isFading] at hs

/-- While a report waits to be acknowledged, only the card and the producers go on. -/
theorem Output.Sketch.Turn.reporting {n : Notice} (ht : Turn w c f f') (ha : c ≠ .acknowledgement)
    (hr : c.isRequest ∨ c.isIdle → f.phase = .ready) (hp : f.phase = .reporting n) :
    f'.phase = .reporting n := by
  have busy : f.phase ≠ .ready := by simp [hp]
  cases ht with
  | failed hp' | opened hp' => simp [hp] at hp'
  | acknowledged | ended => exact absurd rfl ha
  | rendered | dry | produced => exact hp
  | idle | idleNone => exact absurd (hr (.inr rfl)) busy
  | _ => exact absurd (hr (.inl rfl)) busy

/-- What is awaited after a step of the output side was awaited before. -/
theorem AwaitsActive.of_turn {idle : List Nat} {taken : Nat} (h : AwaitsActive k f')
    (hf : Turn w c { f with idle, taken } f') (ha : c ≠ .acknowledgement)
    (hr : c.isRequest ∨ c.isIdle → f.phase = .ready) (htaken : f.taken ≤ taken)
    (hc : ∀ tracks r, c = .request tracks r → r ∈ pending k f)
    (hw : ∀ i seek, f.phase ≠ .waiting i seek) : AwaitsActive k f := by
  rcases h with hp | ⟨hm, hp⟩
  · rcases hf.active hp with hp | ⟨tracks, rfl⟩ | ⟨i, seek, hp⟩
    · exact .inl hp
    · have hready : f.phase = .ready := hr (.inl rfl)
      exact .inr ⟨hc _ _ rfl, by simp [hready]⟩
    · exact absurd hp (hw i seek)
  · refine .inr ⟨?_, fun hidle => hp (hf.reporting ha hr hidle)⟩
    rw [pending, hf.taken_eq] at hm
    exact List.drop_subset_drop_left _ htaken hm

theorem Settled.shift (h : Settled k f) (hs : Sound k f) (hm : Shift w m k f k' f')
    (hne : m ≠ .takeCommand) : Settled k' f' ∧ k'.sent = k.sent := by
  have still : (k.state = .paused → AwaitsActive k f' → AwaitsActive k f) →
      Settled k f' ∧ k.sent = k.sent := by
    intro hback
    refine ⟨⟨h.closed, h.state.imp id (Or.imp id (Or.imp id ?_))⟩, rfl⟩
    rintro ⟨hst, hno⟩
    exact ⟨hst, fun hor => hno (hback hst hor)⟩
  have opened := hs.not_waiting h.closed
  cases hm with
  | give => exact still fun _ => id
  | command => exact absurd rfl hne
  | @notice n _ _ _ _ ho hp hk hk' hf =>
    by_cases hn : n.session = k.session
    · exact h.heard hp hn (hk hn) ⟨hf.ready, hf.taken_eq⟩
    · rw [hk' hn]
      refine still fun _ hor => ?_
      rcases hor with hp' | ⟨hm, -⟩
      · simp [hf.ready] at hp'
      · refine .inr ⟨?_, fun he => hn ?_⟩
        · rwa [pending, hf.taken_eq] at hm
        · rw [hp] at he
          cases he
          rfl
  | giveUp hcl => simp [h.closed] at hcl
  | @request r _ _ _ hp hr hf =>
    refine still fun hst hor =>
      hor.of_turn hf (by simp) (fun _ => hp) (Nat.le_succ _) ?_ (opened hst)
    rintro tracks r' he
    cases he
    exact List.mem_of_getElem? (i := 0) (by simp [pending, hr])
  | idle hp _ hf =>
    exact still fun hst hor =>
      hor.of_turn hf (by simp) (fun _ => hp) (Nat.le_refl _) (by simp) (opened hst)
  | proceed hf | render hf | produce hf =>
    refine still fun hst hor =>
      hor.of_turn hf (by simp) ?_ (Nat.le_refl _) (by simp) (opened hst)
    simp [Cause.isRequest, Cause.isIdle]

/-- A stop settles everything but a paused track whose resumption is on its way. -/
theorem settled_of_stop (ht : f.taken ≤ k.sent.length) (ho : k.closed = false)
    (hk : k.Ordered .stop k')
    (hlate : ¬ (k.state = .paused ∧ k.playlist.hasNext ∧ AwaitsActive k f)) : Settled k' f := by
  cases hk with
  | fade hs hc =>
    rcases hc with ⟨hc, -⟩ | ⟨-, rfl⟩ | ⟨hc, -⟩ | ⟨hc, -⟩
    · cases hc
    · exact ⟨ho, .inr (.inl rfl)⟩
    · cases hc
    · cases hc
  | cut hc =>
    rcases hc with ⟨-, -, rfl⟩ | ⟨-, ⟨hc, -⟩ | ⟨hc, -⟩⟩
    · exact ⟨ho, .inr (.inl rfl)⟩
    · cases hc
    · cases hc
  | halt hs =>
    refine ⟨ho, .inr (.inr ?_)⟩
    cases hnext : k.playlist.hasNext with
    | false => exact .inl ⟨.inr hs, hnext⟩
    | true =>
      refine .inr ⟨hs, fun hor => hlate ⟨hs, hnext, ?_⟩⟩
      refine hor.imp id (And.imp_left fun hm => ?_)
      rw [pending_ask ht, List.mem_append, List.mem_singleton] at hm
      exact hm.resolve_right (by simp)
  | ignored hstop => exact ⟨ho, .inl (hstop rfl)⟩
  | suspend _ hc | resume _ hc | step _ hc => simp at hc

/-- Where all is settled, no run without a command sends anything. -/
theorem Settled.becomes (h : Settled d.control.sketch d.output.sketch)
    (hs : Sound d.control.sketch d.output.sketch) (hd : Becomes w d d') :
    d'.control.sent = d.control.sent := by
  obtain ⟨moves, hmoves, hrun⟩ := hd
  refine (run_keeps (P := fun k f => Settled k f ∧ Sound k f ∧ k.sent = d.control.sent) ?_
    ⟨h, hs, rfl⟩ hrun).2.2
  rintro m hm k f k' f' ⟨hset, hsound, hsent⟩ hshift
  obtain ⟨hset', hsent'⟩ := hset.shift hsound hshift (hmoves m hm)
  exact ⟨hset', hsound.shift hshift, hsent'.trans hsent⟩

/-! ### The stop -/

/-- The stop that is taken next is overtaken: the player is paused, a track follows, and the answer
that it plays on is on its way. -/
def StopsLate (d : Deck) : Prop :=
  d.control.state = .paused ∧ d.control.playlist.hasNext ∧
    AwaitsActive d.control.sketch d.output.sketch

/-- After a stop nothing is started any more, as long as no other command is taken, unless the stop
comes late; and if it comes late, there is an order of the remaining steps in which the next track
is started, provided that the card plays when it is asked to. -/
theorem stop_is_final_unless_late {fades : Deck.Fades} {playlist : Playlist}
    {commands : List Command} (h : Reachable w fades playlist d)
    (hc : d.commands = .stop :: commands) (hd : d.step w .takeCommand = some d') :
    (¬ d.StopsLate → ∀ d'', Becomes w d' d'' → numbers d''.control.sent = numbers d'.control.sent) ∧
      (d.StopsLate → (∀ n, w.refuses .play n = false) →
        ∃ d'' id, Becomes w d' d'' ∧
          numbers d''.control.sent = numbers d'.control.sent ++ [id]) := by
  have hs := h.sound
  have hs' := hs.shift (step_shift hd)
  have hstop : d.control.closed = false ∧ d'.output = d.output ∧
      d.control.sketch.Ordered .stop d'.control.sketch := by
    simp only [step, hc] at hd
    split at hd
    · cases hd
    · next ho =>
      cases hd
      exact ⟨Bool.eq_false_iff.2 ho, rfl, Control.onCommand_ordered _ _⟩
  obtain ⟨ho, hout, hk⟩ := hstop
  rw [hout] at hs'
  refine ⟨fun hlate d'' hd'' => ?_, ?_⟩
  · have hset := settled_of_stop hs.mail.taken ho hk hlate
    rw [← hout] at hset hs'
    rw [hset.becomes hs' hd'']
  · rintro ⟨hst, hnext, hor⟩ hw
    have hover := overtaken_of_stop hs (h.recent ho) ho hst hnext hor hk
    rw [← hout] at hover hs'
    exact hover.starts hs' hw

/-- A paused track that has been asked to play on, before a stop that is taken next. -/
def resumed : List Move :=
  started ++ [.give .pause, .takeCommand, .takeRequest, .takeNotice, .give .resume, .takeCommand,
    .give .stop]

theorem stop_is_not_final_after_resume : ∃ d d', Reachable .obedient {} pair d ∧
    d.commands = [.stop] ∧ d.step .obedient .takeCommand = some d' ∧ d.StopsLate ∧
      ∃ d'' id, Becomes .obedient d' d'' ∧
        numbers d''.control.sent = numbers d'.control.sent ++ [id] := by
  obtain ⟨d, d', hrun, hc, hd, hst, hnext, hp, hphase⟩ : ∃ d d',
      (initial {} pair).run .obedient resumed = some d ∧ d.commands = [.stop] ∧
        d.step .obedient .takeCommand = some d' ∧ d.control.state = .paused ∧
        d.control.playlist.hasNext = true ∧
        pending d.control.sketch d.output.sketch = [.resume d.control.session] ∧
        d.output.phase = .ready := ⟨_, _, rfl, rfl, rfl, rfl, rfl, rfl, rfl⟩
  have hlate : d.StopsLate := by
    refine ⟨hst, hnext, .inr ⟨?_, ?_⟩⟩
    · rw [hp]
      exact List.mem_singleton.2 rfl
    · simp [Output.sketch, hphase]
  refine ⟨d, d', ⟨_, hrun⟩, hc, hd, hlate, ?_⟩
  exact (stop_is_final_unless_late ⟨_, hrun⟩ hc hd).2 hlate fun _ => rfl

/-- The next track is started although no command has been taken since the stop. -/
theorem next_track_after_stop : ∃ d d' d'', Reachable .obedient {} pair d ∧
    d.commands = [.stop] ∧ d.step .obedient .takeCommand = some d' ∧ Becomes .obedient d' d'' ∧
      numbers d'.control.sent = [1] ∧ numbers d''.control.sent = [1, 2] := by
  have hmoves : ∀ m ∈ [Move.takeRequest, .takeNotice, .takeRequest, .takeIdle, .takeNotice],
      m ≠ .takeCommand := by simp
  exact ⟨_, _, _, ⟨resumed, rfl⟩, rfl, rfl, ⟨_, hmoves, rfl⟩, rfl, rfl⟩

end Jukebox.Deck
