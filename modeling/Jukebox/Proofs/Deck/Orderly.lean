import Jukebox.Proofs.Deck.Run

/-!
What is always true of the output side alone. A session that has posted its idle signal has it in
the queue until it is reported, and is reported last of all; a notice on its way tells what the
stream does; and what is on show is the reel of the open stream. Each of the three is kept by every
turn.
-/

namespace Jukebox.Deck

open Output.Sketch (Turn)

/-- What a report says about the session. -/
def DeviceEvent.Fits (z : Session) : DeviceEvent → Prop
  | .active => z.stream = some true
  | .suspended => z.stream = some false
  | .idle => z.reported = true
  | .failed => z.stream = none

namespace Output.Sketch

variable {w : World} {f f' : Sketch}

/-- An idle signal that has been posted is in the queue or being reported. -/
structure Signals (f : Sketch) : Prop where
  posted : ∀ z, f.session = some z → z.fired → z.reported ∨ z.id ∈ f.idle
  reported : ∀ z, f.session = some z → z.reported → f.phase = .reporting ⟨z.id, .idle⟩

/-- What the output side is busy with is a matter of its session. -/
structure Busy (f : Sketch) : Prop where
  waiting : ∀ i seek, f.phase = .waiting i seek → ∃ z s, f.session = some z ∧ z.stream = none ∧
    f.sleeves[i]? = some s ∧ s.session = z.id
  reporting : ∀ n, f.phase = .reporting n → ∃ z, f.session = some z ∧ z.id = n.session ∧
    n.event.Fits z
  closed : f.phase = .closed → f.session = none

/-- The reel of the open stream is on show, and nothing else. -/
structure Shows (f : Sketch) : Prop where
  shown : ∀ z, f.session = some z → z.stream.isSome → ∃ i s, z.playing = some i ∧
    f.sleeves[i]? = some s ∧ s.session = z.id ∧ f.shownReel = some i ∧ f.nowPlaying = some s.title
  hidden : (∀ z, f.session = some z → z.stream = none) → f.shownReel = none ∧ f.nowPlaying = none

/-- All that is always true of the output side alone. -/
structure Orderly (f : Sketch) : Prop where
  signals : f.Signals
  busy : f.Busy
  shows : f.Shows

theorem live_self {z : Session} (hs : f.session = some z) : f.live z.id = some z := by
  simp [live, hs]

/-! ### Idle signals -/

theorem Signals.not_reported (h : f.Signals) {z : Session} (hs : f.session = some z)
    (hp : f.phase ≠ .reporting ⟨z.id, .idle⟩) : z.reported = false :=
  Bool.eq_false_iff.2 fun hr => hp (h.reported z hs hr)

theorem Signals.fire (h : f.Signals) {z : Session} (hs : f.session = some z)
    (stream : Option Bool) : (f.fire { z with stream }).Signals := by
  refine ⟨?_, ?_⟩
  · rintro _ ⟨rfl⟩ -
    cases hf : z.fired with
    | false => exact .inr (by simp [Sketch.fire])
    | true =>
      rcases h.posted z hs hf with hr | hm
      · exact .inl hr
      · exact .inr (List.mem_append_left _ hm)
  · rintro _ ⟨rfl⟩ hr
    exact h.reported z hs hr

/-- A session whose signals have not changed, in a phase that is no idle report. -/
theorem Signals.update (h : f.Signals) {z z' : Session} (hs : f.session = some z)
    (hp : f.phase ≠ .reporting ⟨z.id, .idle⟩) (hs' : f'.session = some z') (hi : f'.idle = f.idle)
    (hz : z'.id = z.id ∧ z'.fired = z.fired ∧ z'.reported = z.reported) : f'.Signals := by
  have hr := h.not_reported hs hp
  refine ⟨fun y hy hf => ?_, fun y hy hr' => ?_⟩
  · rw [hs'] at hy
    cases hy
    rw [hz.2.1] at hf
    rw [hz.2.2, hz.1, hi]
    exact h.posted z hs hf
  · rw [hs'] at hy
    cases hy
    rw [hz.2.2, hr] at hr'
    cases hr'

theorem Signals.lost (hs : f.session = none) : f.Signals := by
  refine ⟨fun z hz => ?_, fun z hz => ?_⟩ <;> simp [hs] at hz

theorem Signals.fresh {id : Nat} {reel : Option Nat} (hs : f.session = some { id, reel }) :
    f.Signals := by
  refine ⟨fun z hz hf => ?_, fun z hz hr => ?_⟩ <;> rw [hs] at hz <;> cases hz
  · cases hf
  · cases hr

/-- Every turn but the handling of an idle signal keeps the signals. -/
theorem Signals.turn {c : Cause} (h : f.Signals)
    (ht : Turn w c f f') (hr : c.isRequest → f.phase = .ready) (hc : c.isIdle = false) :
    f'.Signals := by
  cases ht with
  | empty | load => exact .fresh rfl
  | suspend hs | resume hs => exact h.update hs (by simp [hr rfl]) rfl rfl ⟨rfl, rfl, rfl⟩
  | failed hp hs | opened hp hs => exact h.update hs (by simp [hp]) rfl rfl ⟨rfl, rfl, rfl⟩
  | stop hs | cut hs | dry hs => exact h.fire hs _
  | shutdown | ended => exact .lost rfl
  | acknowledged hp hn =>
    refine ⟨h.posted, fun z hs hr => ?_⟩
    have hs' : f.session = some z := hs
    have he := h.reported z hs' hr
    rw [hp] at he
    cases he
    have hl : f.live z.id = none := hn rfl
    rw [live_self hs'] at hl
    cases hl
  | idleNone | idle => cases hc
  | fade => exact ⟨h.posted, h.reported⟩
  | _ => exact h

/-- An idle signal leaves the queue to be reported, or because there is nothing to report. -/
theorem Signals.onIdle {id : Nat} {idle : List Nat} (h : f.Signals) (hi : f.idle = id :: idle)
    (ht : Turn w (.idle id) { f with idle } f') : f'.Signals := by
  cases ht with
  | idleNone hn =>
    refine ⟨fun z hs hf => ?_, h.reported⟩
    have hs' : f.session = some z := hs
    rcases h.posted z hs' hf with hr | hm
    · exact .inl hr
    · rw [hi, List.mem_cons] at hm
      rcases hm with rfl | hm
      · exact .inl (hn z (live_self hs'))
      · exact .inr hm
  | idle hs hr =>
    refine ⟨?_, ?_⟩
    · rintro _ ⟨rfl⟩ -
      exact .inl rfl
    · rintro _ ⟨rfl⟩ -
      rfl

/-! ### What the output side is busy with -/

/-- While it takes requests and idle signals, it is busy with nothing. -/
theorem Busy.ready (hp : f.phase = .ready) : f.Busy := by
  constructor <;> simp [hp]

theorem Busy.report {z : Session} {e : DeviceEvent} (hs : f.session = some z)
    (hp : f.phase = .reporting ⟨z.id, e⟩) (he : e.Fits z) : f.Busy := by
  refine ⟨by simp [hp], fun n hn => ?_, by simp [hp]⟩
  rw [hp] at hn
  cases hn
  exact ⟨z, hs, rfl, he⟩

/-- The session that is waited for has no stream yet. -/
theorem Busy.waits (h : f.Busy) {z : Session} {i : Nat} {seek : Option Span}
    (hp : f.phase = .waiting i seek) (hs : f.session = some z) :
    z.stream = none ∧ ∃ s, f.sleeves[i]? = some s ∧ s.session = z.id := by
  obtain ⟨z', s, hs', hn, hi, hid⟩ := h.waiting i seek hp
  rw [hs] at hs'
  cases hs'
  exact ⟨hn, s, hi, hid⟩

/-- A session on which the card has posted an idle signal is otherwise what it was. -/
theorem Busy.fire (h : f.Busy) {z : Session} (hs : f.session = some z) : (f.fire z).Busy := by
  refine ⟨fun i seek hp => ?_, fun n hp => ?_, fun hp => ?_⟩
  · obtain ⟨hn, s, hi, hid⟩ := h.waits hp hs
    exact ⟨_, s, rfl, hn, hi, hid⟩
  · obtain ⟨z', hs', hid, he⟩ := h.reporting n hp
    rw [hs] at hs'
    cases hs'
    refine ⟨_, rfl, hid, ?_⟩
    cases hev : n.event <;> rw [hev] at he <;> exact he
  · cases (h.closed hp).symm.trans hs

theorem Busy.turn {c : Cause} (h : f.Busy)
    (ht : Turn w c f f') (hr : c.isRequest ∨ c.isIdle → f.phase = .ready) : f'.Busy := by
  cases ht with
  | empty => exact .report rfl rfl rfl
  | load =>
    refine ⟨fun i seek hp => ?_, by simp, by simp⟩
    cases hp
    exact ⟨_, _, rfl, rfl, List.getElem?_concat_length .., rfl⟩
  | suspend | resume | opened | idle => exact .report rfl rfl rfl
  | failed hp hs => exact .report rfl rfl (h.waits hp hs).1
  | shutdown => exact ⟨by simp, by simp, fun _ => rfl⟩
  | acknowledged | ended => exact .ready rfl
  | stop | cut | fade => exact .ready (hr (.inl rfl))
  | dry hs => exact h.fire hs
  | _ => exact h

/-! ### What is on show -/

/-- A change that is not about the stream does not show. -/
theorem Shows.update (h : f.Shows) {z z' : Session} (hs : f.session = some z)
    (hs' : f'.session = some z')
    (hz : z'.id = z.id ∧ z'.playing = z.playing ∧ z'.stream.isSome = z.stream.isSome)
    (hf : f'.sleeves = f.sleeves ∧ f'.shownReel = f.shownReel ∧ f'.nowPlaying = f.nowPlaying) :
    f'.Shows := by
  obtain ⟨hid, hp, ho⟩ := hz
  obtain ⟨hl, hr, hn⟩ := hf
  refine ⟨fun y hy hsome => ?_, fun hnone => ?_⟩
  · rw [hs'] at hy
    cases hy
    rw [hl, hr, hn, hid, hp]
    exact h.shown z hs (ho ▸ hsome)
  · rw [hr, hn]
    refine h.hidden fun y hy => ?_
    rw [hs] at hy
    cases hy
    have := hnone z' hs'
    simpa [this] using ho

theorem Shows.clear (h : f.Shows) : f.clear.shownReel = none ∧ f.clear.nowPlaying = none := by
  unfold Sketch.clear
  cases hs : f.session with
  | some z => simp
  | none => simpa using h.hidden (by simp [hs])

/-- Without a stream and with nothing on show. -/
theorem Shows.dark (hs : ∀ z, f.session = some z → z.stream = none)
    (hd : f.shownReel = none ∧ f.nowPlaying = none) : f.Shows := by
  refine ⟨fun z hz ho => ?_, fun _ => hd⟩
  simp [hs z hz] at ho

theorem Shows.turn {c : Cause} (h : f.Shows) (hb : f.Busy) (ht : Turn w c f f') : f'.Shows := by
  cases ht with
  | empty | load =>
    refine .dark ?_ h.clear
    rintro _ ⟨rfl⟩
    rfl
  | shutdown | ended => exact .dark (by simp) h.clear
  | suspend hs ho | resume hs ho =>
    exact h.update hs rfl ⟨rfl, rfl, by simp [ho]⟩ ⟨rfl, rfl, rfl⟩
  | stop hs ho => exact h.update hs rfl ⟨rfl, rfl, ho⟩ ⟨rfl, rfl, rfl⟩
  | cut hs | dry hs | failed _ hs | idle hs =>
    exact h.update hs rfl ⟨rfl, rfl, rfl⟩ ⟨rfl, rfl, rfl⟩
  | acknowledged => exact ⟨h.shown, h.hidden⟩
  | opened hp hs =>
    obtain ⟨-, s, hi, hid⟩ := hb.waits hp hs
    refine ⟨?_, fun hn => ?_⟩
    · rintro _ ⟨rfl⟩ -
      exact ⟨_, s, rfl, hi, hid, rfl, by simp [hi]⟩
    · cases hn _ rfl
  | @fade _ _ _ i =>
    refine ⟨fun z hz ho => ?_, h.hidden⟩
    obtain ⟨j, s, hj, hi, hid, hr, hn⟩ := h.shown z hz ho
    by_cases hij : i = j
    · exact ⟨j, s.fade, hj, by simp [hij, hi], hid, hr, hn⟩
    · exact ⟨j, s, hj, by simp [hij, hi], hid, hr, hn⟩
  | _ => exact h

/-! ### All of it -/

theorem Orderly.turn {c : Cause} (h : f.Orderly)
    (ht : Turn w c f f') (hr : c.isRequest → f.phase = .ready) (hc : c.isIdle = false) :
    f'.Orderly :=
  ⟨h.signals.turn ht hr hc, h.busy.turn ht fun hi => hr (hi.resolve_right (by simp [hc])),
    h.shows.turn h.busy ht⟩

/-- Every shift keeps the output side in order. -/
theorem Orderly.shift {m : Move} {k k' : Control.Sketch} (h : f.Orderly)
    (hm : Shift w m k f k' f') : f'.Orderly := by
  cases hm with
  | give => exact h
  | command => exact h
  | notice _ _ _ _ hf | giveUp _ hf | proceed hf | render hf | produce hf =>
    exact h.turn hf (by rintro ⟨⟩) rfl
  | request hp _ hf =>
    have h' : Orderly { f with taken := f.taken + 1 } :=
      ⟨⟨h.signals.posted, h.signals.reported⟩,
        ⟨h.busy.waiting, h.busy.reporting, h.busy.closed⟩, ⟨h.shows.shown, h.shows.hidden⟩⟩
    exact h'.turn hf (fun _ => hp) rfl
  | @idle _ idle _ _ _ hp hi hf =>
    have hb : Busy { f with idle } := .ready hp
    have hs : Shows { f with idle } := ⟨h.shows.shown, h.shows.hidden⟩
    exact ⟨h.signals.onIdle hi hf, hb.turn hf fun _ => hp, hs.turn hb hf⟩

end Output.Sketch

end Jukebox.Deck
