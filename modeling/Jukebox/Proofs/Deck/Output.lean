import Jukebox.Proofs.Deck.Sketch

/-!
What the output side can do, said once. A turn is one reaction of the output side, to a request, to
an idle signal, to an acknowledgement, to the card or to a producer, seen on its sketch. The main
statements say that every operation of the output side is a turn; what is proved of all turns then
holds of the output side, whatever the card refuses and whatever audio there is.
-/

namespace Jukebox.Deck

/-- What the output side reacts to. -/
inductive Cause where
  | request (tracks : Playlist) (r : Request)
  | idle (id : Nat)
  | proceed | acknowledgement | card | producer

def Cause.isRequest : Cause → Bool
  | .request .. => true
  | _ => false

def Cause.isIdle : Cause → Bool
  | .idle _ => true
  | _ => false

namespace Output.Sketch

/-- A reaction of the output side. -/
inductive Turn (w : World) : Cause → Sketch → Sketch → Prop where
  /-- A start that gives no audio. -/
  | empty {f tracks id track seek} :
    Turn w (.request tracks (.start id track seek)) f
      { f.clear with session := some { id }, phase := .reporting ⟨id, .failed⟩ }
  | load {f tracks id track seek title} (ht : (tracks.track? track).map (·.title) = some title) :
    Turn w (.request tracks (.start id track seek)) f
      { f.clear with
          sleeves := f.sleeves ++ [⟨id, track, title, false⟩]
          session := some { id, reel := some f.sleeves.length }
          phase := .waiting f.sleeves.length seek }
  /-- A request to pause where there is no stream. -/
  | suspendNone {f tracks id} (hs : (f.live id).bind (·.stream) = none) :
    Turn w (.request tracks (.suspend id)) f f
  | suspendRefused {f tracks id n} (hw : w.refuses .pause n) :
    Turn w (.request tracks (.suspend id)) f f
  | suspend {f tracks z} (hs : f.session = some z) (ho : z.stream.isSome) :
    Turn w (.request tracks (.suspend z.id)) f
      { f with
          session := some { z with stream := some false }
          phase := .reporting ⟨z.id, .suspended⟩ }
  /-- A request to play on where there is no stream. -/
  | resumeNone {f tracks id} (hs : (f.live id).bind (·.stream) = none) :
    Turn w (.request tracks (.resume id)) f f
  | resumeRefused {f tracks id n} (hw : w.refuses .play n) :
    Turn w (.request tracks (.resume id)) f f
  | resume {f tracks z} (hs : f.session = some z) (ho : z.stream.isSome) :
    Turn w (.request tracks (.resume z.id)) f
      { f with
          session := some { z with stream := some true }
          phase := .reporting ⟨z.id, .active⟩ }
  | stopNone {f tracks id} (hs : f.live id = none) : Turn w (.request tracks (.stop id)) f f
  | stop {f tracks z stream} (hs : f.session = some z) (ho : stream.isSome = z.stream.isSome) :
    Turn w (.request tracks (.stop z.id)) f (f.fire { z with stream })
  | fadeNone {f tracks id window} (hs : f.live id = none) :
    Turn w (.request tracks (.fadeOut id window)) f f
  | fade {f tracks z i window} (hs : f.session = some z) (hp : z.playing = some i)
      (ho : z.stream.isSome) :
    Turn w (.request tracks (.fadeOut z.id window)) f
      { f with sleeves := f.sleeves.modify i Sleeve.fade }
  /-- A fade of a session that has nothing to fade. -/
  | cut {f tracks z window} (hs : f.session = some z) (ho : z.playing = none ∨ z.stream = none) :
    Turn w (.request tracks (.fadeOut z.id window)) f (f.fire z)
  | seek {f tracks id position} : Turn w (.request tracks (.seek id position)) f f
  | tempo {f tracks tempo} : Turn w (.request tracks (.tempo tempo)) f f
  | shutdown {f tracks} : Turn w (.request tracks .shutdown) f { f.clear with phase := .closed }
  | failed {f z i seek} (hp : f.phase = .waiting i seek) (hs : f.session = some z) :
    Turn w .proceed f
      { f with session := some { z with reel := none }, phase := .reporting ⟨z.id, .failed⟩ }
  | opened {f z i seek} (hp : f.phase = .waiting i seek) (hs : f.session = some z) :
    Turn w .proceed f
      { f with
          session := some { z with playing := some i, stream := some true }
          phase := .reporting ⟨z.id, .active⟩
          nowPlaying := (f.sleeves[i]?).map (·.title)
          shownReel := some i }
  | idleNone {f id} (hs : ∀ z, f.live id = some z → z.reported) : Turn w (.idle id) f f
  | idle {f z} (hs : f.session = some z) (hr : z.reported = false) :
    Turn w (.idle z.id) f
      { f with session := some { z with reported := true }, phase := .reporting ⟨z.id, .idle⟩ }
  | acknowledged {f n} (hp : f.phase = .reporting n)
      (hn : n.event = .idle → f.live n.session = none) :
    Turn w .acknowledgement f { f with phase := .ready }
  | ended {f z} (hp : f.phase = .reporting ⟨z.id, .idle⟩) (hs : f.session = some z) :
    Turn w .acknowledgement f { f.clear with phase := .ready }
  | rendered {f z} (hs : f.session = some z) (ho : z.stream = some true) : Turn w .card f f
  /-- The card has found the end of the audio. -/
  | dry {f z} (hs : f.session = some z) (ho : z.stream = some true) : Turn w .card f (f.fire z)
  | produced {f} : Turn w .producer f f

end Output.Sketch

namespace Output

variable {w : World} {o : Output}

/-! ### Operations on single parts -/

theorem call_cases (c : Call) :
    (∃ h, o.call w c = (o.log h, true)) ∨
      ∃ h n, w.refuses c n ∧ o.call w c = (o.log h, false) := by
  unfold call
  split
  · exact .inr ⟨_, _, ‹_›, rfl⟩
  · exact .inl ⟨_, rfl⟩

/-- A change of a chain that keeps its fade does not show on the sketch. -/
theorem sketch_onReel {i : Nat} {g : Chain → Chain}
    (hg : ∀ r, o.reels[i]? = some r → (g r.chain).fade.isSome = r.chain.fade.isSome) :
    (o.onReel i g).sketch = o.sketch := by
  have h : (o.onReel i g).reels.map Reel.sleeve = o.reels.map Reel.sleeve := by
    apply List.ext_getElem?
    intro j
    by_cases hj : i = j
    · subst hj
      cases hr : o.reels[i]? with
      | none => simp [onReel, hr]
      | some r => simp [onReel, hr, Reel.sleeve, hg r hr]
    · simp [onReel, hj]
  simp only [sketch, h]
  rfl

theorem sketch_fade {i : Nat} {window : Span} :
    (o.onReel i (·.fadeOut window)).sketch =
      { o.sketch with sleeves := o.sketch.sleeves.modify i Sleeve.fade } := by
  have hf : ∀ c : Chain, (c.fadeOut window).fade.isSome = true := by
    intro c
    cases h : c.fade <;> simp [Chain.fadeOut, h]
  have h : (o.onReel i (·.fadeOut window)).reels.map Reel.sleeve =
      (o.reels.map Reel.sleeve).modify i Sleeve.fade := by
    apply List.ext_getElem?
    intro j
    by_cases hj : i = j
    · subst hj
      cases hr : o.reels[i]? <;> simp [onReel, hr, Reel.sleeve, Sleeve.fade, hf]
    · simp [onReel, hj]
  simp only [sketch, h]
  rfl

theorem sketch_onBuffer {i : Nat} {g : Buffer → Buffer} :
    (o.onBuffer i g).sketch = o.sketch := sketch_onReel fun _ _ => rfl

theorem sketch_live (id : Nat) : o.sketch.live id = o.live id := rfl

theorem live_eq_some {id : Nat} {z : Session} :
    o.live id = some z ↔ o.session = some z ∧ z.id = id := by
  simp [live, Option.filter_eq_some_iff]

theorem sketch_fire {z : Session} (hs : o.session = some z) : o.fire.sketch = o.sketch.fire z := by
  cases hf : z.fired <;> simp [fire, hs, IdleSignal.fire, hf, sketch, Sketch.fire]

theorem sketch_teardown : o.teardown.sketch = o.sketch.clear := by
  unfold teardown
  cases hs : o.session with
  | none => simp [sketch, Sketch.clear, hs]
  | some z =>
    dsimp only
    cases z.reel with
    | none =>
      dsimp only
      split <;> simp [sketch, Sketch.clear, hs, log]
    | some i =>
      dsimp only
      rw [sketch_onBuffer]
      split <;> simp [sketch, Sketch.clear, hs, log]

theorem sketch_startFailed (s : Session) :
    (o.startFailed s).sketch =
      { o.sketch with
          session := some { s with reel := none }, phase := .reporting ⟨s.id, .failed⟩ } := by
  unfold startFailed notify
  cases s.reel with
  | none => rfl
  | some i =>
    have h := sketch_onBuffer (o := { o with session := some { s with reel := none } }) (i := i)
      (g := Buffer.abort)
    dsimp only
    simp only [sketch, Sketch.mk.injEq] at h ⊢
    simp [h]

/-! ### Requests -/

open Sketch (Turn)

theorem start_turn {tracks : Playlist} {id track : Nat} {seek : Option Span} :
    Turn w (.request tracks (.start id track seek)) o.sketch
      (o.start w id track (tracks.track? track) seek).sketch := by
  have hc := sketch_teardown (o := o)
  unfold start
  cases hl : (tracks.track? track).bind fun t => (w.load id track t).map fun b => (t, b) with
  | none =>
    have : Turn w (.request tracks (.start id track seek)) o.sketch _ := .empty
    rw [← hc] at this
    dsimp only
    rw [sketch_startFailed]
    exact this
  | some p =>
    obtain ⟨t, buffer⟩ := p
    have ht : (tracks.track? track).map (·.title) = some t.title := by
      obtain ⟨t', ht', hb⟩ := Option.bind_eq_some_iff.1 hl
      obtain ⟨b, -, hb⟩ := Option.map_eq_some_iff.1 hb
      rw [ht', Option.map_some, (Prod.mk.inj hb).1]
    have : Turn w (.request tracks (.start id track seek)) o.sketch _ := .load ht
    have hr : o.teardown.sketch.sleeves = o.sketch.sleeves := by rw [hc]; rfl
    have hlen : o.teardown.reels.length = o.teardown.sketch.sleeves.length := by simp [sketch]
    rw [← hc, ← hr, ← hlen] at this
    simpa [sketch, Reel.sleeve] using this

theorem suspend_turn {tracks : Playlist} {id : Nat} :
    Turn w (.request tracks (.suspend id)) o.sketch (o.suspend w id).sketch := by
  unfold suspend
  cases hl : (o.live id).bind (·.stream) with
  | none => exact .suspendNone hl
  | some running =>
    obtain ⟨z, hz, ho⟩ := Option.bind_eq_some_iff.1 hl
    obtain ⟨hs, rfl⟩ := live_eq_some.1 hz
    obtain ⟨h, hc⟩ | ⟨h, n, hw, hc⟩ := call_cases (w := w) (o := o) .pause
    · simp only [hc]
      have : Turn w (.request tracks (.suspend z.id)) o.sketch _ := .suspend hs (by simp [ho])
      simpa [sketch, notify, onSession, log, hs] using this
    · simp only [hc]
      exact .suspendRefused hw

theorem resume_turn {tracks : Playlist} {id : Nat} :
    Turn w (.request tracks (.resume id)) o.sketch (o.resume w id).sketch := by
  unfold resume
  cases hl : (o.live id).bind (·.stream) with
  | none => exact .resumeNone hl
  | some running =>
    obtain ⟨z, hz, ho⟩ := Option.bind_eq_some_iff.1 hl
    obtain ⟨hs, rfl⟩ := live_eq_some.1 hz
    obtain ⟨h, hc⟩ | ⟨h, n, hw, hc⟩ := call_cases (w := w) (o := o) .play
    · simp only [hc]
      have : Turn w (.request tracks (.resume z.id)) o.sketch _ := .resume hs (by simp [ho])
      simpa [sketch, notify, onSession, log, hs] using this
    · simp only [hc]
      exact .resumeRefused hw

theorem stop_turn {tracks : Playlist} {id : Nat} :
    Turn w (.request tracks (.stop id)) o.sketch (o.stop w id).sketch := by
  unfold stop
  cases hl : o.live id with
  | none => exact .stopNone hl
  | some z =>
    obtain ⟨hs, rfl⟩ := live_eq_some.1 hl
    have fires : ∀ (o' : Output) (stream : Option Bool), stream.isSome = z.stream.isSome →
        o'.session = some { z with stream } →
        o'.sketch = { o.sketch with session := some { z with stream } } →
        Turn w (.request tracks (.stop z.id)) o.sketch o'.fire.sketch := by
      intro o' stream ho hs' ho'
      rw [sketch_fire hs', ho']
      exact .stop hs ho
    dsimp only
    cases ho : z.stream with
    | none =>
      dsimp only
      refine fires o none (by simp [ho]) ?_ ?_ <;> simp [hs, sketch, ← ho]
    | some running =>
      dsimp only
      obtain ⟨h, hc⟩ | ⟨h, n, -, hc⟩ := call_cases (w := w) (o := o) .pause
      · simp only [hc]
        refine fires _ (some false) (by simp [ho]) ?_ ?_ <;> simp [onSession, log, hs, sketch]
      · simp only [hc]
        refine fires _ (some running) (by simp [ho]) ?_ ?_ <;> simp [log, hs, sketch, ← ho]

theorem fadeOut_turn {tracks : Playlist} {id : Nat} {window : Span} :
    Turn w (.request tracks (.fadeOut id window)) o.sketch (o.fadeOut id window).sketch := by
  unfold fadeOut
  cases hl : o.live id with
  | none => exact .fadeNone hl
  | some z =>
    obtain ⟨hs, rfl⟩ := live_eq_some.1 hl
    dsimp only
    split
    · next i running hp ho =>
      rw [sketch_fade]
      exact .fade hs hp (by simp [ho])
    · next hn =>
      rw [sketch_fire hs]
      refine .cut hs ?_
      cases hp : z.playing with
      | none => exact .inl rfl
      | some i =>
        cases ho : z.stream with
        | none => exact .inr rfl
        | some running => exact (hn i running hp ho).elim

theorem sketch_seek (id : Nat) (position : Span) : (o.seek id position).sketch = o.sketch := by
  unfold seek
  split
  · exact sketch_onReel fun _ _ => rfl
  · rfl

theorem sketch_setTempo (tempo : Float32) : (o.setTempo tempo).sketch = o.sketch := by
  unfold setTempo
  dsimp only
  split
  · exact sketch_onReel fun _ _ => rfl
  · rfl

/-- Every request is a turn. -/
theorem handle_turn (tracks : Playlist) (r : Request) :
    Turn w (.request tracks r) o.sketch (o.handle w tracks r).sketch := by
  cases r with
  | start id track seek => exact start_turn
  | suspend id => exact suspend_turn
  | resume id => exact resume_turn
  | stop id => exact stop_turn
  | fadeOut id window => exact fadeOut_turn
  | seek id position => rw [handle, sketch_seek]; exact .seek
  | tempo tempo => rw [handle, sketch_setTempo]; exact .tempo
  | shutdown =>
    have : Turn w (.request tracks .shutdown) o.sketch _ := .shutdown
    rw [← sketch_teardown] at this
    simpa [handle, sketch] using this

/-! ### What is no request -/

theorem openStream_turn {z : Session} {i : Nat} {seek : Option Span}
    (hp : o.phase = .waiting i seek) (hs : o.session = some z) :
    Turn w .proceed o.sketch (o.openStream w z i).sketch := by
  have fails : ∀ o' : Output, o'.sketch = o.sketch →
      Turn w .proceed o.sketch (o'.startFailed z).sketch := by
    intro o' ho'
    rw [sketch_startFailed, ho']
    exact .failed hp hs
  unfold openStream
  split
  · exact fails o rfl
  · obtain ⟨h, hc⟩ | ⟨h, n, -, hc⟩ := call_cases (w := w) (o := o) .open
    · obtain ⟨h', hc'⟩ | ⟨h', n, -, hc'⟩ := call_cases (w := w) (o := o.log h) .play
      · simp only [hc, hc']
        have := Turn.opened (w := w) (f := o.sketch) hp hs
        simpa [sketch, notify, log, List.getElem?_map, Option.map_map, Function.comp_def,
          Reel.sleeve] using this
      · simp only [hc, hc']
        exact fails _ rfl
    · simp only [hc]
      exact fails _ rfl

theorem proceed_turn {o' : Output} (h : o.proceed w = some o') :
    Turn w .proceed o.sketch o'.sketch := by
  unfold proceed at h
  split at h
  · next i seek z hp hs =>
    split at h
    · exact absurd h (by simp)
    · cases h
      rw [sketch_startFailed]
      exact .failed hp hs
    · cases h
      cases seek with
      | none => exact openStream_turn hp hs
      | some position =>
        have hk := sketch_onReel (o := o) (i := i) (g := (·.seek position)) fun _ _ => rfl
        have := openStream_turn (w := w) (o := o.onReel i (·.seek position)) (z := z) hp hs
        rwa [hk] at this
  · exact absurd h (by simp)

theorem onIdle_turn (id : Nat) : Turn w (.idle id) o.sketch (o.onIdle id).sketch := by
  unfold onIdle
  cases hl : o.live id with
  | none => exact .idleNone fun z hz => by simp [sketch_live, hl] at hz
  | some z =>
    obtain ⟨hs, rfl⟩ := live_eq_some.1 hl
    dsimp only
    split
    · next hr =>
      refine .idleNone fun z' hz => ?_
      rw [sketch_live, hl] at hz
      cases hz
      exact hr
    · next hr =>
      have := Turn.idle (w := w) (f := o.sketch) hs (by simpa using hr)
      simpa [sketch, notify] using this

theorem acknowledged_turn {n : Notice} (hp : o.phase = .reporting n) :
    Turn w .acknowledgement o.sketch o.acknowledged.sketch := by
  unfold acknowledged
  simp only [hp]
  split
  · next h =>
    obtain ⟨he, hl⟩ := h
    obtain ⟨z, hz⟩ := Option.isSome_iff_exists.1 hl
    obtain ⟨hs, hid⟩ := live_eq_some.1 hz
    rw [sketch_teardown]
    have hn : o.sketch.phase = .reporting ⟨z.id, .idle⟩ := by rw [hid, ← he]; exact hp
    exact Turn.ended hn hs
  · next h =>
    have := Turn.acknowledged (w := w) (f := o.sketch) (n := n) hp fun he => by
      rw [sketch_live, ← Option.not_isSome_iff_eq_none]
      exact fun hl => h ⟨he, hl⟩
    exact this

/-- What a read keeps, pulling frames keeps. -/
theorem pull_keeps {α : Type} (g : Chain → α) (hread : ∀ c room, g (c.read room).1 = g c)
    (chunk : Nat) (c : Chain) (need : Nat) : g (Renderer.pull chunk c need).1 = g c := by
  induction need using Nat.strongRecOn generalizing c with
  | _ need ih =>
    unfold Renderer.pull
    split
    · rfl
    · next h =>
      dsimp only
      split
      · exact hread ..
      · rw [ih _ (by omega)]
        exact hread ..

theorem fade_pull (chunk : Nat) (c : Chain) (need : Nat) :
    (Renderer.pull chunk c need).1.fade = c.fade := pull_keeps (·.fade) (fun _ _ => rfl) chunk c need

/-- A callback pulls frames from the chain and does nothing else to it. -/
theorem chain_render (r : Renderer) (volume : Float32) (p : Playback) (card : Array Nat) :
    (r.render volume p card).playback.chain =
      (Renderer.pull (r.chunk p.chain.buffer.format) p.chain
        (card.size / max p.chain.buffer.format.channels 1)).1 := by
  unfold Renderer.render
  dsimp only
  split
  · split <;> rfl
  · rfl

/-- The card leaves the fade of a chain alone, and posts the idle signal or does not. -/
theorem render_cases (r : Renderer) (volume : Float32) (p : Playback) (card : Array Nat) :
    (r.render volume p card).playback.chain.fade = p.chain.fade ∧
      ((r.render volume p card).playback.idle = p.idle ∧ (r.render volume p card).posted = [] ∨
        ((r.render volume p card).playback.idle, (r.render volume p card).posted) =
          p.idle.fire) := by
  unfold Renderer.render
  dsimp only
  split
  · split
    · exact ⟨fade_pull .., .inr rfl⟩
    · exact ⟨fade_pull .., .inl ⟨rfl, rfl⟩⟩
  · exact ⟨fade_pull .., .inl ⟨rfl, rfl⟩⟩

theorem render_turn {volume : Float32} {card card' : Array Nat} {o' : Output}
    (h : o.render w volume card = some (o', card')) : Turn w .card o.sketch o'.sketch := by
  unfold render at h
  split at h
  · next z i hs hst =>
    obtain ⟨reel, hr, he⟩ := Option.map_eq_some_iff.1 h
    have ho : z.stream = some true := by
      rw [stream?, hs, Option.bind_some] at hst
      obtain ⟨running, h₁, h₂⟩ := Option.bind_eq_some_iff.1 hst
      obtain ⟨j, -, h₃⟩ := Option.map_eq_some_iff.1 h₂
      rw [h₁, (Prod.mk.inj h₃).2]
    have hc := render_cases w.renderer volume ⟨reel.chain, o.counters, ⟨z.id, z.fired⟩⟩ card
    dsimp only at he hc
    generalize w.renderer.render volume ⟨reel.chain, o.counters, ⟨z.id, z.fired⟩⟩ card = rendered
      at he hc
    obtain ⟨hfade, hidle⟩ := hc
    cases he
    have hk := sketch_onReel (o := o) (i := i) (g := fun _ => rendered.playback.chain)
      fun r hr' => by rw [hr] at hr'; cases hr'; rw [hfade]
    simp only [sketch, Sketch.mk.injEq] at hk
    obtain ⟨hi, hp⟩ | hi := hidle
    · have := Turn.rendered (w := w) (f := o.sketch) hs ho
      simpa [sketch, hi, hp, hk, hs] using this
    · have := Turn.dry (w := w) (f := o.sketch) hs ho
      cases hf : z.fired <;> simp only [IdleSignal.fire, hf, Prod.ext_iff] at hi <;>
        simpa [sketch, Sketch.fire, hi, hk, hf] using this
  · exact absurd h (by simp)

theorem produce_turn (i : Nat) (op : Buffer.Op) :
    Turn w .producer o.sketch (o.onBuffer i fun b => b.apply op).sketch := by
  rw [sketch_onBuffer]
  exact .produced

end Output

end Jukebox.Deck
