import Jukebox.Proofs.Deck.Rest

/-!
What the card is fed. The frames that the card gets of a session, over all steps of a run, are told
from the calls of the card alone. The counter of the output side counts those of the session that it
runs, whatever other steps there are: a start resets it, and only the card moves it. A session whose
start has failed never feeds the card.
-/

namespace Jukebox.Deck

open Output.Sketch (Turn)

/-- The playing time of so many frames. -/
def World.playingTime (w : World) (frames : Nat) : Span :=
  if 0 < w.format.rate then
    (Span.ofDouble? (Number.Binary.double.quotient frames w.format.rate)).getD .zero
  else .zero

/-- The frames that the card gets of a session when it asks. -/
def Output.feeds (w : World) (o : Output) (id : Nat) (card : Array Nat) : Nat :=
  match o.session, o.stream? with
  | some z, some (i, true) =>
    if z.id = id then
      ((o.reels[i]?).map fun reel =>
        let f := reel.chain.buffer.format
        let need := card.size / max f.channels 1
        (Renderer.pull (w.renderer.chunk f) reel.chain need).2.size / f.bytesPerFrame).getD 0
    else 0
  | _, _ => 0

/-- The frames that the card gets of a session in a step. -/
def feeds (w : World) (d : Deck) (id : Nat) : Move → Nat
  | .render card => d.output.feeds w id card
  | _ => 0

/-- The frames that the card gets of a session in a run. -/
def fed (w : World) (id : Nat) : Deck → List Move → Nat
  | _, [] => 0
  | d, m :: ms => d.feeds w id m + ((d.step w m).map fun d => fed w id d ms).getD 0

namespace Output

variable {w : World} {o o' : Output}

/-! ### The counters -/

theorem counters_of_call {c : Call} {b : Bool} (h : o.call w c = (o', b)) :
    o'.counters = o.counters := by
  unfold call at h
  split at h <;> cases h <;> rfl

theorem counters_fire : o.fire.counters = o.counters := by
  unfold fire
  split <;> rfl

theorem counters_teardown : o.teardown.counters = o.counters := by
  unfold teardown
  split
  · rfl
  · dsimp only
    split <;> split <;> rfl

theorem counters_startFailed (s : Session) : (o.startFailed s).counters = o.counters := by
  unfold startFailed
  dsimp only
  split <;> rfl

theorem counters_start (id index : Nat) (track : Option Track) (seek : Option Span) :
    (o.start w id index track seek).counters = {} := by
  unfold start
  dsimp only
  split
  · exact counters_startFailed ..
  · rfl

theorem counters_suspend (id : Nat) : (o.suspend w id).counters = o.counters := by
  unfold suspend
  split
  · rfl
  · split <;>
    · next hc =>
      have hsame := counters_of_call hc
      exact hsame

theorem counters_resume (id : Nat) : (o.resume w id).counters = o.counters := by
  unfold resume
  split
  · rfl
  · split <;>
    · next hc =>
      have hsame := counters_of_call hc
      exact hsame

theorem counters_stop (id : Nat) : (o.stop w id).counters = o.counters := by
  unfold stop
  split
  · rfl
  · split
    · exact counters_fire
    · split <;>
      · next hc =>
        have hsame := counters_of_call hc
        exact counters_fire.trans hsame

theorem counters_fadeOut (id : Nat) (window : Span) :
    (o.fadeOut id window).counters = o.counters := by
  unfold fadeOut
  split
  · rfl
  · split
    · rfl
    · exact counters_fire

theorem counters_seek (id : Nat) (position : Span) :
    (o.seek id position).counters = o.counters := by
  unfold seek
  split <;> rfl

theorem counters_setTempo (tempo : Float32) : (o.setTempo tempo).counters = o.counters := by
  unfold setTempo
  dsimp only
  split <;> rfl

/-- A start resets the counters, and no other request touches them. -/
theorem counters_handle (tracks : Playlist) (r : Request) :
    (o.handle w tracks r).counters = if r.number?.isSome then {} else o.counters := by
  cases r with
  | start id track seek => exact counters_start ..
  | suspend id => exact counters_suspend id
  | resume id => exact counters_resume id
  | stop id => exact counters_stop id
  | fadeOut id window => exact counters_fadeOut id window
  | seek id position => exact counters_seek id position
  | tempo tempo => exact counters_setTempo tempo
  | shutdown => exact counters_teardown

theorem counters_openStream (z : Session) (i : Nat) :
    (o.openStream w z i).counters = o.counters := by
  unfold openStream
  split
  · exact counters_startFailed z
  · split
    · next hc => exact (counters_startFailed z).trans (counters_of_call hc)
    · next hc =>
      split
      · next hc' =>
        exact (counters_startFailed z).trans ((counters_of_call hc').trans (counters_of_call hc))
      · next hc' => exact (counters_of_call hc').trans (counters_of_call hc)

theorem counters_proceed (h : o.proceed w = some o') : o'.counters = o.counters := by
  unfold proceed at h
  split at h
  · next i seek z _ _ =>
    split at h
    · cases h
    · cases h
      exact counters_startFailed z
    · cases h
      cases seek with
      | none => exact counters_openStream z i
      | some position => exact counters_openStream z i
  · cases h

theorem counters_onIdle (id : Nat) : (o.onIdle id).counters = o.counters := by
  unfold onIdle
  split
  · rfl
  · split <;> rfl

theorem counters_acknowledged : o.acknowledged.counters = o.counters := by
  unfold acknowledged
  split
  · dsimp only
    split
    · exact counters_teardown
    · rfl
  · rfl

/-- A callback counts the frames that it pulls. -/
theorem counters_renderer (r : Renderer) (volume : Float32) (p : Playback) (card : Array Nat) :
    (r.render volume p card).playback.counters.playedFrames =
      p.counters.playedFrames +
        (Renderer.pull (r.chunk p.chain.buffer.format) p.chain
          (card.size / max p.chain.buffer.format.channels 1)).2.size /
            p.chain.buffer.format.bytesPerFrame := by
  unfold Renderer.render
  dsimp only
  split
  · split <;> rfl
  · rfl

/-- The card moves the counter by what it gets. -/
theorem counters_render {volume : Float32} {card card' : Array Nat}
    (h : o.render w volume card = some (o', card')) {z : Session} (hs : o.session = some z) :
    o'.counters.playedFrames = o.counters.playedFrames + o.feeds w z.id card := by
  unfold render at h
  split at h
  · next y i hy ho =>
    rw [hs] at hy
    cases hy
    obtain ⟨reel, hreel, he⟩ := Option.map_eq_some_iff.1 h
    rw [← (Prod.mk.inj he).1]
    refine (counters_renderer ..).trans ?_
    simp [feeds, hs, ho, hreel]
  · cases h

/-! ### What the card gets -/

theorem feeds_of_other {id : Nat} {card : Array Nat}
    (h : ∀ z, o.session = some z → z.id = id → z.stream = none) : o.feeds w id card = 0 := by
  unfold feeds
  split
  · next z i hz ho =>
    split
    · next hid =>
      simp [stream?, hz, h z hz hid] at ho
    · rfl
  · rfl

end Output

variable {w : World} {d d' : Deck} {m : Move} {k k' : Control.Sketch} {f f' : Output.Sketch}

/-- Only a session with a stream feeds the card. -/
theorem feeds_of_other {id : Nat} (m : Move)
    (h : ∀ z, d.output.session = some z → z.id = id → z.stream = none) : d.feeds w id m = 0 := by
  cases m with
  | render card => exact Output.feeds_of_other h
  | _ => rfl

/-- What takes no request moves the counter by what the card gets of the running session. -/
theorem counters_step (h : d.step w m = some d') (hm : m ≠ .takeRequest) {z : Session}
    (hs : d.output.session = some z) :
    d'.output.counters.playedFrames = d.output.counters.playedFrames + d.feeds w z.id m := by
  cases stepped_of_step h with
  | takeRequest => exact absurd rfl hm
  | render ho => exact Output.counters_render ho hs
  | proceed ho => exact congrArg Counters.playedFrames (Output.counters_proceed ho)
  | takeNotice | giveUp => exact congrArg Counters.playedFrames Output.counters_acknowledged
  | takeIdle => exact congrArg Counters.playedFrames (Output.counters_onIdle _)
  | give | takeCommand | produce => rfl

namespace Output.Sketch

variable {c : Cause}

/-- A session that goes on keeps its stream, if it has one. -/
theorem Turn.stream_of_other (h : Turn w c f f') (hc : c.number? = none) {z' : Session}
    (hz : f'.session = some z') :
    ∃ z, f.session = some z ∧ z.id = z'.id ∧ (z'.stream = none → z.stream = none) := by
  cases h with
  | empty => cases hc
  | load => cases hc
  | shutdown => cases hz
  | ended => cases hz
  | suspend hs | resume hs | opened _ hs =>
    cases hz
    exact ⟨_, hs, rfl, nofun⟩
  | stop hs ho =>
    cases hz
    refine ⟨_, hs, rfl, fun hn => Option.not_isSome_iff_eq_none.1 ?_⟩
    rw [← ho]
    simpa using hn
  | cut hs | dry hs | failed _ hs | idle hs =>
    cases hz
    exact ⟨_, hs, rfl, id⟩
  | _ => exact ⟨z', hz, rfl, id⟩

end Output.Sketch

/-! ### The count -/

/-- A step that takes no request. -/
theorem Shift.sends (hm : Shift w m k f k' f') (hne : m ≠ .takeRequest) :
    ∃ c idle, k.Acts k' ∧ Turn w c { f with idle } f' ∧ c.isRequest = false := by
  cases hm with
  | give => exact ⟨_, _, .nothing, .produced, rfl⟩
  | command _ hk => exact ⟨_, _, .ordered hk, .produced, rfl⟩
  | @notice n _ _ _ _ _ _ hk hk' hf =>
    refine ⟨_, _, ?_, hf, rfl⟩
    by_cases hn : n.session = k.session
    · exact .heard (hk hn)
    · rw [hk' hn]
      exact .nothing
  | request => exact absurd rfl hne
  | giveUp _ hf | proceed hf | render hf | produce hf => exact ⟨_, _, .nothing, hf, rfl⟩
  | idle _ _ hf => exact ⟨_, _, .nothing, hf, rfl⟩

/-- What is always true of the frames that the card has got of each session, and of the counter. -/
structure Counted (count : Nat → Nat) (counter : Nat) (k : Control.Sketch) (f : Output.Sketch) :
    Prop where
  current : ∀ z, f.session = some z → counter = count z.id
  mute : ∀ z, f.session = some z → z.stream = none → count z.id = 0
  coming : ∀ id, id ∈ numbers (pending k f) ∨ k.session < id → count id = 0

/-- A session that is still to come is not the running one. -/
theorem Mail.ne_of_coming (h : Mail k f) {id : Nat}
    (hid : id ∈ numbers (pending k f) ∨ k.session < id) {z : Session} (hz : f.session = some z) :
    z.id ≠ id := by
  obtain ⟨n, hn, hnum, hsame⟩ := h.numbered
  rw [hsame z hz]
  rcases hid with hid | hid
  · rw [hnum, List.mem_range'_1] at hid
    omega
  · omega

theorem Counted.send {count more : Nat → Nat} {counter counter' : Nat} {news : List Request}
    {c : Cause} {idle : List Nat} (h : Counted count counter k f) (hmail : Mail k f)
    (hk : k.Sends k' news) (hf : Turn w c { f with idle } f') (hc : c.number? = none)
    (hmute : ∀ id, (∀ z, f.session = some z → z.id = id → z.stream = none) → more id = 0)
    (hcounter : ∀ z, f.session = some z → counter' = counter + more z.id) :
    Counted (fun id => count id + more id) counter' k' f' := by
  refine ⟨fun z' hz' => ?_, fun z' hz' hn => ?_, fun id hid => ?_⟩
  · obtain ⟨z, hz, hid, -⟩ := hf.stream_of_other hc hz'
    rw [hcounter z hz, h.current z hz, hid]
  · obtain ⟨z, hz, hid, hmore⟩ := hf.stream_of_other hc hz'
    have hnone : ∀ y, f.session = some y → y.id = z'.id → y.stream = none := by
      intro y hy _
      cases hz.symm.trans hy
      exact hmore hn
    rw [hmute _ hnone, ← hid, h.mute z hz (hmore hn)]
  · have hcoming : id ∈ numbers (pending k f) ∨ k.session < id := by
      have hpend : pending k' f' = pending k f ++ news := by
        rw [pending, pending, hk.sent, hf.taken_eq, List.drop_append_of_le_length hmail.taken]
      have hlater := hk.later
      rw [hpend, numbers_append, List.mem_append, hk.numbered, List.mem_range'_1] at hid
      rcases hid with (hid | ⟨hid, -⟩) | hid
      · exact .inl hid
      · exact .inr hid
      · exact .inr (by omega)
    rw [h.coming id hcoming, hmute]
    intro z hz he
    exact absurd he (hmail.ne_of_coming hcoming hz)

theorem Counted.take {count : Nat → Nat} {counter : Nat} {r : Request} {tracks : Playlist}
    (h : Counted count counter k f) (hp : pending k f = r :: pending k f')
    (hf : Turn w (.request tracks r) { f with taken := f.taken + 1 } f') :
    Counted count (if r.number?.isSome then 0 else counter) k f' := by
  have hcoming : ∀ id, id ∈ numbers (pending k f') ∨ k.session < id → count id = 0 := by
    refine fun id hid => h.coming id (hid.imp_left fun hid => ?_)
    rw [hp, numbers, List.filterMap_cons]
    split
    · exact hid
    · exact List.mem_cons_of_mem _ hid
  cases hr : r.number? with
  | none =>
    refine ⟨fun z' hz' => ?_, fun z' hz' hn => ?_, hcoming⟩
    · obtain ⟨z, hz, hid, -⟩ := hf.stream_of_other hr hz'
      exact (h.current z hz).trans (congrArg count hid)
    · obtain ⟨z, hz, hid, hmore⟩ := hf.stream_of_other hr hz'
      rw [← hid]
      exact h.mute z hz (hmore hn)
  | some id =>
    obtain ⟨z, hz, hzid⟩ := hf.session_of_start hr
    have hnone : count z.id = 0 := by
      refine h.coming z.id (.inl ?_)
      rw [hp, numbers_cons_of_some hr, hzid]
      exact List.mem_cons_self ..
    refine ⟨fun z' hz' => ?_, fun z' hz' _ => ?_, hcoming⟩ <;> cases hz.symm.trans hz'
    · exact hnone.symm
    · exact hnone

/-- What is always true of the counter of a deck. -/
def Counts (count : Nat → Nat) (d : Deck) : Prop :=
  Counted count d.output.counters.playedFrames d.control.sketch d.output.sketch

theorem Counts.step {count : Nat → Nat} (h : d.Counts count)
    (hs : Sound d.control.sketch d.output.sketch) (hm : d.step w m = some d') :
    d'.Counts fun id => count id + d.feeds w id m := by
  by_cases hne : m = .takeRequest
  · subst hne
    simp only [Deck.step] at hm
    split at hm
    · next r hp hr =>
      cases hm
      have hf := Output.handle_turn (w := w)
        (o := { d.output with taken := d.output.taken + 1 }) d.control.playlist r
      have htake := Counted.take h (pending_cons hr hf.taken_eq) hf
      have hcounter := congrArg Counters.playedFrames (Output.counters_handle (w := w)
        (o := { d.output with taken := d.output.taken + 1 }) d.control.playlist r)
      rw [apply_ite Counters.playedFrames] at hcounter
      unfold Counts
      rw [hcounter]
      exact htake
    · cases hm
  · obtain ⟨c, idle, ha, hf, hc⟩ := (step_shift hm).sends hne
    obtain ⟨news, hk⟩ := ha.sends
    exact Counted.send h hs.mail hk hf (Cause.number?_eq_none hc) (fun id => feeds_of_other m)
      fun z hz => counters_step hm hne hz

/-- Over a run the count is what the card has been fed. -/
theorem Counts.run {count : Nat → Nat} {moves : List Move} (h : d.Counts count)
    (hs : Sound d.control.sketch d.output.sketch) (hrun : d.run w moves = some d') :
    d'.Counts fun id => count id + fed w id d moves := by
  induction moves generalizing d count with
  | nil =>
    cases hrun
    exact h
  | cons m ms ih =>
    obtain ⟨d₁, hm, hrun⟩ := Option.bind_eq_some_iff.1 hrun
    have hnext := ih (h.step hs hm) (hs.shift (step_shift hm)) hrun
    simp only [fed, hm, Option.map_some, Option.getD_some, ← Nat.add_assoc]
    exact hnext

/-- The counter tells how much of the running session the card has been fed, and of a session
without a stream it has been fed nothing. -/
theorem counter_eq_fed {fades : Fades} {playlist : Playlist} {moves : List Move}
    (h : (initial fades playlist).run w moves = some d) {z : Session}
    (hz : d.output.session = some z) :
    d.output.counters.playedFrames = fed w z.id (initial fades playlist) moves ∧
      (z.stream = none → fed w z.id (initial fades playlist) moves = 0) := by
  have hstart : (initial fades playlist).Counts fun _ => 0 := by
    refine ⟨?_, ?_, fun _ _ => rfl⟩ <;> rintro z ⟨⟩
  have hcounts := hstart.run (sound_initial fades playlist) h
  refine ⟨(hcounts.current z hz).trans (Nat.zero_add _), fun hn => ?_⟩
  rw [← Nat.zero_add (fed ..)]
  exact hcounts.mute z hz hn

/-! ### Starts that have failed -/

/-- A session that is not started again and will not have a stream any more. -/
structure Failed (id : Nat) (k : Control.Sketch) (f : Output.Sketch) : Prop where
  past : ∀ n ∈ numbers (pending k f), id < n
  known : id ≤ k.session
  silent : ∀ z, f.session = some z → z.id = id → f.Silent

theorem failed_of_notice {id : Nat} (hs : Sound k f) (hp : f.phase = .reporting ⟨id, .failed⟩) :
    Failed id k f := by
  obtain ⟨z, hz, rfl, hnone⟩ := hs.orderly.busy.reporting _ hp
  obtain ⟨hknown, hbefore⟩ := (hs.mail.past_iff hz).2 (Nat.le_refl z.id)
  refine ⟨hbefore, hknown, fun z' hz' _ => ⟨by simp [hp], fun y hy => ?_⟩⟩
  cases hz.symm.trans hy
  exact hnone

theorem Failed.shift {id : Nat} (h : Failed id k f) (hmail : Mail k f) (hm : Shift w m k f k' f') :
    Failed id k' f' := by
  have stays : ∀ {c idle taken}, f.Silent → Turn w c { f with idle, taken } f' →
      c.number? = none → f'.Silent := by
    intro c idle taken hsilent hf hc
    have hsilent' : Output.Sketch.Silent { f with idle, taken } :=
      ⟨hsilent.still, hsilent.unheard⟩
    exact hsilent'.turn hf hc
  obtain ⟨hknown, hbefore⟩ := Past.shift ⟨h.known, h.past⟩ hmail hm
  refine ⟨hbefore, hknown, fun z' hz' hid => ?_⟩
  cases (hm.post hmail.taken).1 with
  | sent _ _ _ hf hn =>
    have hc := Cause.number?_eq_none hn
    obtain ⟨z, hz, hzid⟩ := hf.session_of_other hc hz'
    exact stays (h.silent z hz (hzid.trans hid)) hf hc
  | @taken r _ _ _ hp hf =>
    cases hr : r.number? with
    | none =>
      obtain ⟨z, hz, hzid⟩ := hf.session_of_other hr hz'
      exact stays (h.silent z hz (hzid.trans hid)) hf hr
    | some n =>
      -- a start is of a later session
      obtain ⟨z, hz, hzid⟩ := hf.session_of_start hr
      cases hz.symm.trans hz'
      have hlt := h.past n (by rw [hp, numbers_cons_of_some hr]; exact List.mem_cons_self ..)
      omega

/-- A session whose failure has been reported has no stream, as long as it is the running one. -/
theorem stream_of_failed {id : Nat} {moves : List Move}
    (hs : Sound d.control.sketch d.output.sketch) (hn : d.notice? = some ⟨id, .failed⟩)
    (hrun : d.run w moves = some d') {z : Session} (hz : d'.output.session = some z)
    (hid : z.id = id) : z.stream = none := by
  have hp : d.output.sketch.phase = .reporting ⟨id, .failed⟩ := notice?_eq_some.1 hn
  have hkeeps := run_keeps (P := fun k f => Sound k f ∧ Failed id k f)
    (fun _ _ _ _ _ _ h hm => ⟨h.1.shift hm, h.2.shift h.1.mail hm⟩)
    ⟨hs, failed_of_notice hs hp⟩ hrun
  exact (hkeeps.2.silent z hz hid).unheard z hz

end Jukebox.Deck
