import Jukebox.Proofs.Deck.Rest

/-!
What a fade waits for. On a card that pauses and plays when it is asked to, the open stream of a
session does what the last request about it asked for. So when nothing is on its way while a track
fades, the fade is on the reel of an open stream, but the stream runs only if the track was not
paused last; a fade on a paused stream is never called back.
-/

namespace Jukebox.Deck

open Output.Sketch (Turn)
open Transport (State)

/-- A machine whose card pauses and plays when it is asked to. Opening may fail. -/
def World.Complies (w : World) : Prop :=
  ∀ n, w.refuses .pause n = false ∧ w.refuses .play n = false

/-- Does a request want the stream of this session to run? -/
def Request.heads (s : Nat) : Request → Option Bool
  | .start id _ _ => if id = s then some true else none
  | .resume id => if id = s then some true else none
  | .suspend id => if id = s then some false else none
  | _ => none

/-- Does the last request about the stream of this session want it to run? -/
def heading (s : Nat) (rs : List Request) : Bool :=
  ((rs.filterMap (Request.heads s)).getLast?).getD true

@[simp] theorem heading_append (s : Nat) (rs : List Request) (r : Request) :
    heading s (rs ++ [r]) = (r.heads s).getD (heading s rs) := by
  cases h : r.heads s <;> simp [heading, h]

/-- The requests that have been taken. -/
def handled (k : Control.Sketch) (f : Output.Sketch) : List Request := k.sent.take f.taken

variable {w : World} {m : Move} {c : Cause} {k k' : Control.Sketch} {f f' : Output.Sketch}
  {rs : List Request}

/-- After these requests the stream is as the last of them wants it, and so is the one that is going
to be opened. -/
structure Output.Sketch.Heads (f : Output.Sketch) (rs : List Request) : Prop where
  waiting : ∀ z i seek, f.session = some z → f.phase = .waiting i seek → heading z.id rs = true
  stream : ∀ z r, f.session = some z → z.stream = some r → z.fired = false → r = heading z.id rs

namespace Output.Sketch

/-- Only requests change what is wanted, and nothing else changes a stream. -/
theorem Heads.turn (h : f.Heads rs) (ht : Turn w c f f') (hc : c.isRequest = false) :
    f'.Heads rs := by
  cases ht with
  | opened hp hs =>
    refine ⟨by simp, ?_⟩
    rintro _ r ⟨rfl⟩ ⟨rfl⟩ -
    exact (h.waiting _ _ _ hs hp).symm
  | failed _ hs | idle hs =>
    have hstream := fun r => h.stream _ r hs
    refine ⟨by simp, ?_⟩
    rintro _ r ⟨rfl⟩
    exact hstream r
  | dry hs =>
    have hwaiting := fun i seek => h.waiting _ i seek hs
    refine ⟨?_, ?_⟩
    · rintro _ i seek ⟨rfl⟩
      exact hwaiting i seek
    · rintro _ r ⟨rfl⟩ - hf
      cases hf
  | ended => exact ⟨by simp, by simp⟩
  | acknowledged => exact ⟨by simp, h.stream⟩
  | idleNone | rendered | produced => exact h
  | _ => cases hc

/-- A request that is not about the running session, or not about its stream. -/
theorem Heads.ignore {r : Request} (h : f.Heads rs) (hp : f.phase = .ready)
    (hr : ∀ z, f.session = some z → z.stream.isSome → r.heads z.id = none) :
    f.Heads (rs ++ [r]) := by
  refine ⟨by simp [hp], fun z b hs ho hf => ?_⟩
  rw [heading_append, hr z hs (by simp [ho])]
  exact h.stream z b hs ho hf

/-- On a card that complies, a request about the stream changes it. -/
theorem Heads.request {tracks : Playlist} {r : Request} (h : f.Heads rs) (hw : w.Complies)
    (hp : f.phase = .ready) (ht : Turn w (.request tracks r) f f') : f'.Heads (rs ++ [r]) := by
  have other : ∀ {id}, (f.live id).bind (·.stream) = none →
      ∀ z, f.session = some z → z.stream.isSome → id ≠ z.id := by
    rintro id hn z hs ho rfl
    simp [live_self hs] at hn
    simp [hn] at ho
  cases ht with
  | empty => exact ⟨by simp, by rintro _ r ⟨rfl⟩ ⟨⟩⟩
  | load =>
    refine ⟨?_, by rintro _ r ⟨rfl⟩ ⟨⟩⟩
    rintro _ i seek ⟨rfl⟩ -
    simp [Request.heads]
  | suspendNone hn | resumeNone hn =>
    exact h.ignore hp fun z hs ho => by simp [Request.heads, other hn z hs ho]
  | suspendRefused hr => simp [(hw _).1] at hr
  | resumeRefused hr => simp [(hw _).2] at hr
  | suspend | resume =>
    refine ⟨by simp, ?_⟩
    rintro _ r ⟨rfl⟩ ⟨rfl⟩ -
    simp [Request.heads]
  | stop | cut =>
    refine ⟨by simp [fire, hp], ?_⟩
    rintro _ r ⟨rfl⟩ - hf
    cases hf
  | @fade _ _ z i window =>
    have hsame := h.ignore (r := .fadeOut z.id window) hp fun _ _ _ => rfl
    exact ⟨hsame.waiting, hsame.stream⟩
  | shutdown => exact ⟨by simp, by simp⟩
  | stopNone | fadeNone | seek | tempo => exact h.ignore hp fun _ _ _ => rfl

end Output.Sketch

/-- What is wanted does not depend on the mailbox. -/
theorem Output.Sketch.Heads.mail (h : f.Heads rs) (idle : List Nat) (taken : Nat) :
    Output.Sketch.Heads { f with idle, taken } rs := ⟨h.waiting, h.stream⟩

/-- A step takes the next request and handles it, or leaves those that have been taken alone. -/
theorem handled_shift (hmail : Mail k f) (hm : Shift w m k f k' f') :
    (∃ c idle, handled k' f' = handled k f ∧ Turn w c { f with idle } f' ∧ c.isRequest = false) ∨
      ∃ r, handled k' f' = handled k f ++ [r] ∧ f.phase = .ready ∧
        Turn w (.request k.playlist r) { f with taken := f.taken + 1 } f' := by
  obtain ⟨hpost, -⟩ := hm.post hmail.taken
  cases hpost with
  | sent _ hk _ hf hn =>
    refine .inl ⟨_, _, ?_, hf, hn⟩
    rw [handled, handled, hk.sent, hf.taken_eq, List.take_append_of_le_length hmail.taken]
  | @taken r hk hp hr _ hf =>
    subst hk
    refine .inr ⟨r, ?_, hp, hf⟩
    rw [handled, handled, hf.taken_eq, List.take_add_one, hr]
    rfl

theorem heads_shift (hw : w.Complies) (h : f.Heads (handled k f)) (hmail : Mail k f)
    (hm : Shift w m k f k' f') : f'.Heads (handled k' f') := by
  rcases handled_shift hmail hm with ⟨c, idle, hsame, hf, hn⟩ | ⟨r, hmore, hp, hf⟩
  · rw [hsame]
    exact (h.mail idle f.taken).turn hf hn
  · rw [hmore]
    exact (h.mail f.idle (f.taken + 1)).request hw hp hf

theorem Reachable.heads {fades : Fades} {playlist : Playlist} {d : Deck} (hw : w.Complies)
    (h : Reachable w fades playlist d) :
    d.output.sketch.Heads (handled d.control.sketch d.output.sketch) := by
  refine (h.keeps (P := fun k f => f.Heads (handled k f) ∧ Mail k f) ?_ ?_).1
  · refine ⟨⟨?_, ?_⟩, (sound_initial fades playlist).mail⟩
    · rintro z i seek ⟨⟩
    · rintro z r ⟨⟩
  · rintro m k f k' f' ⟨hheads, hmail⟩ hm
    exact ⟨heads_shift hw hheads hmail hm, hmail.shift hm⟩

/-- At rest while a track fades, the fade is on the reel of the open stream of this session; and the
stream runs, and the card can call back, exactly if the last request about the stream wanted it. -/
theorem fade_at_rest {fades : Fades} {playlist : Playlist} {d : Deck} (hw : w.Complies)
    (h : Reachable w fades playlist d) (hq : d.isQuiet) (hf : d.control.state.isFading) :
    ∃ z i reel, d.output.session = some z ∧ z.id = d.control.session ∧ z.playing = some i ∧
      d.output.reels[i]? = some reel ∧ reel.session = z.id ∧ reel.chain.fade.isSome ∧
      z.stream = some (heading z.id d.control.sent) ∧
      ∀ card, (d.step w (.render card)).isSome = heading z.id d.control.sent := by
  have hs := h.sound
  have hrest := quiet_of_isQuiet hq
  have hend := (agrees_fading (k := d.control.sketch) hf).1 (hs.agrees (hrest.closed hs))
  -- no request is left that could still end the session
  have hfades : d.output.sketch.Fades := by
    rcases hend with ⟨⟨a, r, b, he, -⟩, -⟩ | ⟨-, hfades⟩
    · simp [hrest.pending] at he
    · exact hfades
  obtain ⟨z, hz, hrun⟩ := hfades
  obtain ⟨hid, hfired⟩ := hrest.session hs hz
  obtain ⟨ho, i, s, hp, hi, hfade⟩ := hrun.resolve_left (by simp [hfired])
  obtain ⟨r, hr⟩ := Option.isSome_iff_exists.1 ho
  obtain ⟨reel, hreel, rfl⟩ := Option.map_eq_some_iff.1 ((List.getElem?_map ..).symm.trans hi)
  have hsent : handled d.control.sketch d.output.sketch = d.control.sent :=
    List.take_of_length_le (isQuiet_iff.1 hq).2.1
  have hheading := (h.heads hw).stream z r hz hr hfired
  rw [hsent] at hheading
  have hsid : reel.session = z.id := by
    obtain ⟨j, s', hj, hi', hsid, -⟩ := hs.orderly.shows.shown z hz ho
    rw [hp] at hj
    cases hj
    rw [hi] at hi'
    cases hi'
    exact hsid
  refine ⟨z, i, reel, hz, hid, hp, hreel, hsid, hfade, by rw [hr, hheading], fun card => ?_⟩
  have hstream : d.output.stream? = some (i, r) := by
    rw [Output.stream?, show d.output.session = some z from hz]
    simp [hr, hp]
  rw [step, Option.isSome_map, Output.render, hstream, ← hheading]
  rw [show d.output.session = some z from hz]
  cases r with
  | true => simp [hreel]
  | false => rfl

theorem fade_after_stop : World.obedient.Complies ∧ ∃ d, Reachable .obedient {} pair d ∧
    d.isQuiet ∧ d.control.state.isFading ∧ ∃ z i reel, d.output.session = some z ∧
      z.id = d.control.session ∧ z.playing = some i ∧ d.output.reels[i]? = some reel ∧
      reel.session = z.id ∧ reel.chain.fade.isSome ∧
      z.stream = some (heading z.id d.control.sent) ∧
      ∀ card, (d.step .obedient (.render card)).isSome = heading z.id d.control.sent := by
  obtain ⟨d, hrun, hq, hf⟩ : ∃ d, (initial {} pair).run .obedient
      (started ++ [.give .stop, .takeCommand, .takeRequest]) = some d ∧
        d.isQuiet = true ∧ d.control.state.isFading = true := ⟨_, rfl, rfl, rfl⟩
  have hw : World.obedient.Complies := fun _ => ⟨rfl, rfl⟩
  exact ⟨hw, d, ⟨_, hrun⟩, hq, hf, fade_at_rest hw ⟨_, hrun⟩ hq hf⟩

/-- A track that is paused and stopped while it starts is left with a fade on a paused stream. -/
theorem fade_on_paused_stream : World.obedient.Complies ∧ ∃ d, Reachable .obedient {} pair d ∧
    d.isQuiet ∧ d.control.state = .fadingToStop ∧ d.output.session.any (·.stream = some false) := by
  refine ⟨fun _ => ⟨rfl, rfl⟩, _, ⟨[.give .play, .takeCommand, .takeRequest, .give .pause,
    .takeCommand, .give .stop, .takeCommand, .produce 0 (.write #[1, 2, 3, 4]), .proceed,
    .takeNotice, .takeRequest, .takeNotice, .takeRequest], rfl⟩, rfl, rfl, rfl⟩

end Jukebox.Deck
