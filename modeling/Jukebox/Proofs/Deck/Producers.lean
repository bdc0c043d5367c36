import Jukebox.Proofs.Buffer.Ending
import Jukebox.Proofs.Deck.Rest

/-!
Which producers still work for the output side. Every buffer that a track has given stays on a reel,
and its producer goes on decoding until the buffer is aborted. The output side is taken alone here:
requests and idle signals of any kind reach it in any order, and whatever it calls may fail. It
never leaves a producer behind: at most one works, for the session whose stream is open, and none
does once the output side has ended.
-/

namespace Jukebox.Deck

namespace Output

/-- A step of the output side alone. -/
inductive Move where
  /-- It takes a request. -/
  | request (tracks : Playlist) (r : Request)
  /-- It takes an idle signal. -/
  | idle (id : Nat)
  /-- It finds the control side gone. -/
  | lost
  /-- It goes on with a start. -/
  | proceed
  /-- Its report is acknowledged, or there is nobody left to report to. -/
  | acknowledged
  /-- The card asks for samples. -/
  | render (volume : Float32) (card : Array Nat)
  /-- The producer of a reel works on its buffer. -/
  | produce (reel : Nat) (op : Buffer.Op)

/-- The output side after a step, if the step is possible. -/
def step (w : World) (o : Output) : Move → Option Output
  | .request tracks r =>
    match o.phase with
    | .ready => some ({ o with taken := o.taken + 1 }.handle w tracks r)
    | _ => none
  | .idle id =>
    match o.phase with
    | .ready => some ({ o with idle := o.idle.erase id }.onIdle id)
    | _ => none
  | .lost =>
    match o.phase with
    | .ready => some { o.teardown with phase := .closed }
    | _ => none
  | .proceed => o.proceed w
  | .acknowledged =>
    match o.phase with
    | .reporting _ => some o.acknowledged
    | _ => none
  | .render volume card => (o.render w volume card).map (·.1)
  | .produce reel op =>
    if reel < o.reels.length then some (o.onBuffer reel fun b => b.apply op) else none

/-- The output side after steps in this order, if each of them is possible. -/
def run (w : World) (o : Output) : List Move → Option Output
  | [] => some o
  | m :: ms => (o.step w m).bind fun o => run w o ms

/-- The buffer that a step obtains, told by its session and track. -/
def obtains (w : World) (o : Output) : Move → List (Nat × Nat)
  | .request tracks (.start id index _) =>
    match o.phase with
    | .ready =>
      if ((tracks.track? index).bind (w.load id index)).isSome then [(id, index)] else []
    | _ => []
  | _ => []

/-- All buffers that are obtained in a run, oldest first. -/
def obtained (w : World) (o : Output) : List Move → List (Nat × Nat)
  | [] => []
  | m :: ms => o.obtains w m ++ ((o.step w m).map fun o => obtained w o ms).getD []

/-- Does the producer of a reel still work? -/
def employs (o : Output) (i : Nat) : Bool := (o.reels[i]?).any fun r => !r.chain.buffer.aborted

/-- Whose buffers there are. -/
def owners (o : Output) : List (Nat × Nat) := o.reels.map fun r => (r.session, r.track)

variable {w : World} {o o' : Output} {m : Move}

/-! ### Reels -/

theorem employs_congr (h : o'.reels = o.reels) (i : Nat) : o'.employs i = o.employs i := by
  rw [employs, employs, h]

/-- What does not take an abort back lets no other producer work. -/
theorem employs_onReel {i j : Nat} {g : Chain → Chain}
    (hg : ∀ r, o.reels[i]? = some r → r.chain.buffer.aborted → (g r.chain).buffer.aborted)
    (hj : (o.onReel i g).employs j) : o.employs j := by
  by_cases hij : i = j
  · subst hij
    cases hr : o.reels[i]? with
    | none => simp [employs, onReel, hr] at hj
    | some r =>
      cases ha : r.chain.buffer.aborted with
      | false => simp [employs, hr, ha]
      | true => simp [employs, onReel, hr, hg r hr ha] at hj
  · simpa [employs, onReel, hij] using hj

/-- A producer whose buffer is aborted works no more. -/
theorem employs_abort {i j : Nat} (hj : (o.onBuffer i Buffer.abort).employs j) :
    o.employs j ∧ i ≠ j := by
  refine ⟨employs_onReel (fun _ _ _ => rfl) hj, ?_⟩
  rintro rfl
  cases hr : o.reels[i]? <;> simp [employs, onBuffer, onReel, Buffer.abort, hr] at hj

/-- No operation takes an abort back. -/
theorem aborted_apply {b : Buffer} (h : b.aborted) (op : Buffer.Op) : (b.apply op).aborted := by
  cases hop : op.isAbort with
  | false => rw [Buffer.aborted_apply hop, h]
  | true => cases op <;> first | rfl | cases hop

/-! ### What is always true -/

/-- Only the reel of the running session has a producer that works. While the session waits for the
first data, it is that of this reel; from then on it plays the reel on an open stream. -/
structure Tidy (o : Output) : Prop where
  kept : ∀ i, o.employs i → ∃ z, o.session = some z ∧ z.reel = some i
  waits : ∀ z i j seek, o.session = some z → z.reel = some i → o.phase = .waiting j seek → i = j
  plays : ∀ z i, o.session = some z → z.reel = some i → (∀ j seek, o.phase ≠ .waiting j seek) →
    z.playing = some i ∧ z.stream.isSome
  closed : o.phase = .closed → o.session = none

namespace Tidy

/-- The producer that works is that of the running session. -/
theorem reel_eq (h : o.Tidy) {z : Session} (hs : o.session = some z) (i : Nat) (hi : o.employs i) :
    z.reel = some i := by
  obtain ⟨y, hy, hi⟩ := h.kept i hi
  cases hs.symm.trans hy
  exact hi

/-- A session that goes on with the same reel and the same stream. -/
theorem goOn (h : o.Tidy) (he : ∀ i, o'.employs i → o.employs i) {z z' : Session}
    (hs : o.session = some z) (hs' : o'.session = some z')
    (hz : z'.reel = z.reel ∧ z'.playing = z.playing ∧ z'.stream.isSome = z.stream.isSome)
    (hp : ∀ i seek, o'.phase = .waiting i seek ↔ o.phase = .waiting i seek)
    (hc : o'.phase = .closed → o.phase = .closed) : o'.Tidy := by
  obtain ⟨hreel, hplaying, hstream⟩ := hz
  refine ⟨fun i hi => ?_, fun y i j seek hy hi hw => ?_, fun y i hy hi hw => ?_, fun hcl => ?_⟩
  · exact ⟨z', hs', hreel.trans (h.reel_eq hs i (he i hi))⟩
  · cases hs'.symm.trans hy
    exact h.waits z i j seek hs (hreel ▸ hi) ((hp j seek).1 hw)
  · cases hs'.symm.trans hy
    rw [hplaying, hstream]
    exact h.plays z i hs (hreel ▸ hi) fun j seek hw' => hw j seek ((hp j seek).2 hw')
  · cases hs.symm.trans (h.closed (hc hcl))

/-- Nothing but the reels has changed, and no other producer works. -/
theorem reels (h : o.Tidy) (he : ∀ i, o'.employs i → o.employs i) (hs : o'.session = o.session)
    (hp : o'.phase = o.phase) : o'.Tidy := by
  refine ⟨fun i hi => ?_, ?_, ?_, ?_⟩
  · rw [hs]
    exact h.kept i (he i hi)
  · rw [hs, hp]
    exact h.waits
  · rw [hs, hp]
    exact h.plays
  · rw [hs, hp]
    exact h.closed

/-- A session without a reel, or none at all, while no producer works. -/
theorem bare (he : ∀ i, o.employs i = false) (hs : ∀ z, o.session = some z → z.reel = none)
    (hc : o.phase = .closed → o.session = none) : o.Tidy := by
  refine ⟨fun i hi => ?_, fun z i j seek hz hi => ?_, fun z i hz hi => ?_, hc⟩
  · simp [he i] at hi
  · simp [hs z hz] at hi
  · simp [hs z hz] at hi

/-! ### Parts of operations -/

/-- Letting go of the session leaves no producer at work. -/
theorem teardown (h : o.Tidy) (i : Nat) : o.teardown.employs i = false := by
  rw [← Bool.not_eq_true]
  intro hi
  unfold Output.teardown at hi
  cases hs : o.session with
  | none =>
    rw [hs] at hi
    obtain ⟨z, hz, -⟩ := h.kept i hi
    cases hs.symm.trans hz
  | some z =>
    rw [hs] at hi
    dsimp only at hi
    generalize ho : (if z.stream.isSome then _ else _ : Output) = o₁ at hi
    have hsame : o₁.reels = o.reels := by
      subst ho
      split <;> rfl
    cases hr : z.reel with
    | none =>
      rw [hr] at hi
      cases hr.symm.trans (h.reel_eq hs i (employs_congr hsame i ▸ hi))
    | some j =>
      rw [hr] at hi
      obtain ⟨hi, hne⟩ := employs_abort hi
      cases hr.symm.trans (h.reel_eq hs i (employs_congr hsame i ▸ hi))
      exact hne rfl

/-- A start that came to nothing leaves no producer at work. -/
theorem startFailed {z : Session} (h : ∀ i, o.employs i → z.reel = some i) :
    (o.startFailed z).Tidy := by
  have hs : (o.startFailed z).session = some { z with reel := none } :=
    congrArg Sketch.session (sketch_startFailed z)
  refine bare (fun i => ?_) (fun y hy => ?_) (by simp [Output.startFailed, notify])
  · rw [← Bool.not_eq_true]
    intro hi
    unfold Output.startFailed at hi
    cases hr : z.reel with
    | none =>
      rw [hr] at hi
      cases hr.symm.trans (h i hi)
    | some j =>
      rw [hr] at hi
      obtain ⟨hi, hne⟩ := employs_abort hi
      cases hr.symm.trans (h i hi)
      exact hne rfl
  · cases hs.symm.trans hy
    rfl

theorem session_teardown : o.teardown.session = none := congrArg Sketch.session sketch_teardown

/-- A session whose idle signal is posted is otherwise what it was. -/
theorem fire (h : o.Tidy) : o.fire.Tidy := by
  unfold Output.fire
  cases hs : o.session with
  | none => exact h
  | some z =>
    exact h.goOn (fun _ hi => hi) hs rfl ⟨rfl, rfl, rfl⟩ (fun _ _ => Iff.rfl) fun hc => hc

/-! ### Requests -/

theorem start (h : o.Tidy) (id index : Nat) (track : Option Track) (seek : Option Span) :
    (o.start w id index track seek).Tidy := by
  have hnone : ∀ i, ({ o.teardown with counters := {}, session := some { id } } : Output).employs i =
      false := h.teardown
  unfold Output.start
  split
  · exact startFailed fun i hi => by simp [hnone i] at hi
  · next t buffer _ =>
    refine ⟨fun i hi => ?_, ?_, ?_, by simp⟩
    · refine ⟨_, rfl, ?_⟩
      dsimp only
      rcases Nat.lt_trichotomy i o.teardown.reels.length with hlt | rfl | hgt
      · have hold : o.teardown.employs i := by
          simpa [employs, List.getElem?_append_left hlt] using hi
        rw [h.teardown i] at hold
        cases hold
      · rfl
      · have hlen : o.teardown.reels.length + 1 ≤ i := hgt
        rw [employs, List.getElem?_eq_none (by rwa [List.length_append])] at hi
        cases hi
    · rintro _ i j s ⟨rfl⟩ ⟨rfl⟩ ⟨rfl⟩
      rfl
    · intro z i _ _ hw
      exact absurd rfl (hw _ _)

/-- A note about the hardware is no change. -/
theorem log (h : o.Tidy) (e : Happening) : (o.log e).Tidy :=
  h.reels (fun _ hi => hi) rfl rfl

/-- The stream of the running session is paused or played on. -/
theorem setRunning (h : o.Tidy) {z : Session} (hs : o.session = some z) (ho : z.stream.isSome)
    (running : Bool) : (o.onSession fun s => { s with stream := some running }).Tidy := by
  have hs' : (o.onSession fun s => { s with stream := some running }).session =
      some { z with stream := some running } := by simp [onSession, hs]
  exact h.goOn (fun _ hi => hi) hs hs' ⟨rfl, rfl, by simp [ho]⟩ (fun _ _ => Iff.rfl) fun hc => hc

/-- A report between two requests. -/
theorem notify (h : o.Tidy) (hp : o.phase = .ready) (id : Nat) (e : DeviceEvent) :
    (o.notify id e).Tidy :=
  ⟨h.kept, by rintro _ _ _ _ - - ⟨⟩, fun z i hs hi _ => h.plays z i hs hi (by simp [hp]),
    by rintro ⟨⟩⟩

/-- The card has paused a stream or played it on, and that is reported. -/
theorem toggle (h : o.Tidy) (hp : o.phase = .ready) {id : Nat} {before : Bool}
    (hl : (o.live id).bind (·.stream) = some before) (e : Happening) (running : Bool)
    (event : DeviceEvent) : (((o.log e).onSession fun s =>
      { s with stream := some running }).notify id event).Tidy := by
  obtain ⟨z, hz, ho⟩ := Option.bind_eq_some_iff.1 hl
  obtain ⟨hs, -⟩ := live_eq_some.1 hz
  exact ((h.log e).setRunning hs (by simp [ho]) running).notify hp id event

theorem suspend (h : o.Tidy) (hp : o.phase = .ready) (id : Nat) : (o.suspend w id).Tidy := by
  unfold Output.suspend
  cases hl : (o.live id).bind (·.stream) with
  | none => exact h
  | some running =>
    obtain ⟨e, hc⟩ | ⟨e, n, -, hc⟩ := call_cases (w := w) (o := o) .pause
    · simp only [hc]
      exact h.toggle hp hl e false .suspended
    · simp only [hc]
      exact h.log e

theorem resume (h : o.Tidy) (hp : o.phase = .ready) (id : Nat) : (o.resume w id).Tidy := by
  unfold Output.resume
  cases hl : (o.live id).bind (·.stream) with
  | none => exact h
  | some running =>
    obtain ⟨e, hc⟩ | ⟨e, n, -, hc⟩ := call_cases (w := w) (o := o) .play
    · simp only [hc]
      exact h.toggle hp hl e true .active
    · simp only [hc]
      exact h.log e

theorem stop (h : o.Tidy) (id : Nat) : (o.stop w id).Tidy := by
  unfold Output.stop
  cases hl : o.live id with
  | none => exact h
  | some z =>
    obtain ⟨hs, -⟩ := live_eq_some.1 hl
    dsimp only
    cases ho : z.stream with
    | none => exact h.fire
    | some running =>
      dsimp only
      obtain ⟨e, hc⟩ | ⟨e, n, -, hc⟩ := call_cases (w := w) (o := o) .pause
      · simp only [hc]
        exact ((h.log e).setRunning hs (by simp [ho]) false).fire
      · simp only [hc]
        exact (h.log e).fire

/-- A change of a chain that takes no abort back. -/
theorem onReel (h : o.Tidy) {i : Nat} {g : Chain → Chain}
    (hg : ∀ r, o.reels[i]? = some r → r.chain.buffer.aborted → (g r.chain).buffer.aborted) :
    (o.onReel i g).Tidy :=
  h.reels (fun _ => employs_onReel hg) rfl rfl

theorem fadeOut (h : o.Tidy) (id : Nat) (window : Span) : (o.fadeOut id window).Tidy := by
  unfold Output.fadeOut
  split
  · exact h
  · split
    · refine h.onReel fun r _ ha => ?_
      rw [Chain.fadeOut]
      split <;> exact ha
    · exact h.fire

theorem seek (h : o.Tidy) (id : Nat) (position : Span) : (o.seek id position).Tidy := by
  unfold Output.seek
  split
  · exact h.onReel fun r _ ha => aborted_apply ha (.seek position)
  · exact h

theorem setTempo (h : o.Tidy) (tempo : Float32) : (o.setTempo tempo).Tidy := by
  have h' : ({ o with tempo } : Output).Tidy := h.reels (fun _ hi => hi) rfl rfl
  unfold Output.setTempo
  dsimp only
  split
  · exact h'.onReel fun _ _ ha => ha
  · exact h'

/-- Nothing is left when the output side ends. -/
theorem finish (h : o.Tidy) : ({ o.teardown with phase := .closed } : Output).Tidy :=
  bare h.teardown (fun z hz => by cases session_teardown.symm.trans hz) fun _ => session_teardown

theorem handle (h : o.Tidy) (hp : o.phase = .ready) (tracks : Playlist) (r : Request) :
    (o.handle w tracks r).Tidy := by
  cases r with
  | start id track seek => exact h.start id track _ seek
  | suspend id => exact h.suspend hp id
  | resume id => exact h.resume hp id
  | stop id => exact h.stop id
  | fadeOut id window => exact h.fadeOut id window
  | seek id position => exact h.seek id position
  | tempo tempo => exact h.setTempo tempo
  | shutdown => exact h.finish

/-! ### The other steps -/

/-- An open stream plays the reel that was waited for. -/
theorem openStream (h : o.Tidy) {z : Session} (hs : o.session = some z) {i : Nat}
    {seek : Option Span} (hp : o.phase = .waiting i seek) : (o.openStream w z i).Tidy := by
  unfold Output.openStream
  split
  · exact startFailed (h.reel_eq hs)
  · obtain ⟨e, hc⟩ | ⟨e, n, -, hc⟩ := call_cases (w := w) (o := o) .open
    · simp only [hc]
      obtain ⟨e', hc'⟩ | ⟨e', n', -, hc'⟩ := call_cases (w := w) (o := o.log e) .play
      · simp only [hc']
        refine ⟨fun j hj => ⟨_, rfl, h.reel_eq hs j hj⟩, ?_, ?_, by simp [Output.notify]⟩
        · rintro _ _ _ _ - - ⟨⟩
        · rintro _ j ⟨rfl⟩ hj -
          rw [h.waits z j i seek hs hj hp]
          exact ⟨rfl, rfl⟩
      · simp only [hc']
        exact startFailed (h.reel_eq hs)
    · simp only [hc]
      exact startFailed (h.reel_eq hs)

theorem proceed (h : o.Tidy) (ho : o.proceed w = some o') : o'.Tidy := by
  unfold Output.proceed at ho
  split at ho
  · next i seek z hp hs =>
    split at ho
    · cases ho
    · cases ho
      exact startFailed (h.reel_eq hs)
    · cases ho
      cases seek with
      | none => exact h.openStream hs hp
      | some position =>
        have h' := h.onReel (i := i) (g := (·.seek position)) fun r _ ha =>
          aborted_apply ha (.seek position)
        exact h'.openStream hs hp
  · cases ho

theorem onIdle (h : o.Tidy) (hp : o.phase = .ready) (id : Nat) : (o.onIdle id).Tidy := by
  unfold Output.onIdle
  cases hl : o.live id with
  | none => exact h
  | some z =>
    obtain ⟨hs, -⟩ := live_eq_some.1 hl
    dsimp only
    split
    · exact h
    · have h' : ({ o with session := some { z with reported := true } } : Output).Tidy :=
        h.goOn (fun _ hi => hi) hs rfl ⟨rfl, rfl, rfl⟩ (fun _ _ => Iff.rfl) fun hc => hc
      exact h'.notify hp id .idle

theorem acknowledged (h : o.Tidy) {n : Notice} (hp : o.phase = .reporting n) :
    o.acknowledged.Tidy := by
  have h' : ({ o with phase := .ready } : Output).Tidy :=
    ⟨h.kept, by rintro _ _ _ _ - - ⟨⟩, fun z i hs hi _ => h.plays z i hs hi (by simp [hp]), by simp⟩
  unfold Output.acknowledged
  simp only [hp]
  split
  · refine bare h'.teardown (fun z hz => ?_) fun _ => session_teardown
    cases session_teardown.symm.trans hz
  · exact h'

theorem render (h : o.Tidy) {volume : Float32} {card card' : Array Nat}
    (ho : o.render w volume card = some (o', card')) : o'.Tidy := by
  unfold Output.render at ho
  split at ho
  · next z i hs _ =>
    obtain ⟨reel, hr, he⟩ := Option.map_eq_some_iff.1 ho
    have ha := congrArg (·.buffer.aborted)
      (chain_render w.renderer volume ⟨reel.chain, o.counters, ⟨z.id, z.fired⟩⟩ card)
    dsimp only at he ha
    generalize w.renderer.render volume ⟨reel.chain, o.counters, ⟨z.id, z.fired⟩⟩ card = rendered
      at he ha
    rw [pull_keeps (·.buffer.aborted) fun _ _ => rfl] at ha
    cases he
    refine h.goOn (fun j => ?_) hs rfl ⟨rfl, rfl, rfl⟩ (fun _ _ => Iff.rfl) fun hc => hc
    refine employs_onReel (g := fun _ => rendered.playback.chain) fun r hr' hab => ?_
    cases hr.symm.trans hr'
    exact ha.trans hab
  · cases ho

/-- Every step leaves at most the producer of the running session at work. -/
theorem step (h : o.Tidy) (hm : o.step w m = some o') : o'.Tidy := by
  cases m with
  | request tracks r =>
    have h' : ({ o with taken := o.taken + 1 } : Output).Tidy := h.reels (fun _ hi => hi) rfl rfl
    simp only [Output.step] at hm
    split at hm
    · next hp =>
      cases hm
      exact h'.handle hp tracks r
    · cases hm
  | idle id =>
    have h' : ({ o with idle := o.idle.erase id } : Output).Tidy :=
      h.reels (fun _ hi => hi) rfl rfl
    simp only [Output.step] at hm
    split at hm
    · next hp =>
      cases hm
      exact h'.onIdle hp id
    · cases hm
  | lost =>
    simp only [Output.step] at hm
    split at hm <;> cases hm
    exact h.finish
  | proceed => exact h.proceed hm
  | acknowledged =>
    simp only [Output.step] at hm
    split at hm
    · next hp =>
      cases hm
      exact h.acknowledged hp
    · cases hm
  | render volume card =>
    obtain ⟨⟨o₁, card'⟩, ho, rfl⟩ := Option.map_eq_some_iff.1 hm
    exact h.render ho
  | produce reel op =>
    simp only [Output.step] at hm
    split at hm <;> cases hm
    exact h.onReel fun r _ ha => aborted_apply ha op

/-- So does every run. -/
theorem run {moves : List Move} (h : o.Tidy) (hr : o.run w moves = some o') : o'.Tidy := by
  induction moves generalizing o with
  | nil =>
    cases hr
    exact h
  | cons m ms ih =>
    obtain ⟨o₁, hm, hr⟩ := Option.bind_eq_some_iff.1 hr
    exact ih (h.step hm) hr

end Tidy

/-! ### Buffers that have been obtained -/

theorem owners_eq_sleeves : o.owners = o.sketch.sleeves.map fun s => (s.session, s.track) := by
  simp [owners, sketch, Reel.sleeve]

/-- Only a start obtains a buffer. -/
theorem owners_of_turn {c : Cause} (ht : Sketch.Turn w c o.sketch o'.sketch)
    (hc : ∀ tracks id track seek, c ≠ .request tracks (.start id track seek)) :
    o'.owners = o.owners := by
  rw [owners_eq_sleeves, owners_eq_sleeves]
  generalize o.sketch = f at ht
  generalize o'.sketch = f' at ht
  cases ht with
  | empty | load => exact absurd rfl (hc _ _ _ _)
  | @fade _ _ _ i =>
    apply List.ext_getElem?
    intro j
    by_cases hj : i = j
    · subst hj
      cases hs : f.sleeves[i]? <;> simp [hs, Sleeve.fade]
    · simp [hj]
  | _ => rfl

theorem owners_start (id index : Nat) (track : Option Track) (seek : Option Span) :
    (o.start w id index track seek).owners =
      o.owners ++ if (track.bind (w.load id index)).isSome then [(id, index)] else [] := by
  have hclear : o.teardown.owners = o.owners := by
    rw [owners_eq_sleeves, owners_eq_sleeves, sketch_teardown]
    rfl
  unfold start
  cases ht : track with
  | none =>
    dsimp only [Option.bind_none]
    rw [owners_eq_sleeves, sketch_startFailed, ← hclear, owners_eq_sleeves]
    simp [sketch]
  | some t =>
    cases hb : w.load id index t with
    | none =>
      simp only [Option.bind_some, hb, Option.map_none]
      rw [owners_eq_sleeves, sketch_startFailed, ← hclear, owners_eq_sleeves]
      simp [sketch]
    | some buffer =>
      simp only [Option.bind_some, hb, Option.map_some]
      rw [← hclear]
      simp [owners]

/-- The reels are those whose buffers have been obtained. -/
theorem owners_step (hm : o.step w m = some o') : o'.owners = o.owners ++ o.obtains w m := by
  cases m with
  | request tracks r =>
    simp only [step] at hm
    split at hm
    · next hp =>
      cases hm
      have ht := handle_turn (w := w) (o := { o with taken := o.taken + 1 }) tracks r
      cases r with
      | start id index seek =>
        have hobtains : o.obtains w (.request tracks (.start id index seek)) =
            if ((tracks.track? index).bind (w.load id index)).isSome then [(id, index)] else [] := by
          simp only [obtains, hp]
        rw [hobtains]
        exact owners_start (o := { o with taken := o.taken + 1 }) id index (tracks.track? index) seek
      | _ => exact (owners_of_turn ht (by simp)).trans (List.append_nil _).symm
    · cases hm
  | idle id =>
    simp only [step] at hm
    split at hm <;> cases hm
    have ht := onIdle_turn (w := w) (o := { o with idle := o.idle.erase id }) id
    exact (owners_of_turn ht (by simp)).trans (List.append_nil _).symm
  | lost =>
    simp only [step] at hm
    split at hm <;> cases hm
    have ht := handle_turn (w := w) (o := o) { tracks := [] } .shutdown
    exact (owners_of_turn ht (by simp)).trans (List.append_nil _).symm
  | proceed =>
    exact (owners_of_turn (proceed_turn hm) (by simp)).trans (List.append_nil _).symm
  | acknowledged =>
    simp only [step] at hm
    split at hm
    · next hp =>
      cases hm
      exact (owners_of_turn (w := w) (acknowledged_turn hp) (by simp)).trans (List.append_nil _).symm
    · cases hm
  | render volume card =>
    obtain ⟨⟨o₁, card'⟩, ho, rfl⟩ := Option.map_eq_some_iff.1 hm
    exact (owners_of_turn (render_turn ho) (by simp)).trans (List.append_nil _).symm
  | produce reel op =>
    simp only [step] at hm
    split at hm <;> cases hm
    exact (owners_of_turn (w := w) (produce_turn reel op) (by simp)).trans (List.append_nil _).symm

theorem owners_run {moves : List Move} (hr : o.run w moves = some o') :
    o'.owners = o.owners ++ obtained w o moves := by
  induction moves generalizing o with
  | nil =>
    cases hr
    exact (List.append_nil _).symm
  | cons m ms ih =>
    obtain ⟨o₁, hm, hr⟩ := Option.bind_eq_some_iff.1 hr
    rw [ih hr, owners_step hm, obtained, hm, List.append_assoc]
    rfl

theorem tidy_empty : ({} : Output).Tidy :=
  .bare (fun _ => rfl) (by rintro _ ⟨⟩) fun _ => rfl

/-- No producer is left behind: of all buffers that were ever obtained at most one is not aborted,
between two messages it is the one that the running session plays on an open stream, and once the
output side has ended there is none. -/
theorem at_most_one_producer_works {moves : List Move} (h : ({} : Output).run w moves = some o) :
    o.owners = obtained w {} moves ∧
      (∀ i j, o.employs i → o.employs j → i = j) ∧
      (o.phase = .ready → ∀ i, o.employs i → ∃ z, o.session = some z ∧ z.reel = some i ∧
        z.playing = some i ∧ z.stream.isSome) ∧
      (o.phase = .closed → ∀ i, o.employs i = false) := by
  have ht := tidy_empty.run h
  refine ⟨owners_run h, fun i j hi hj => ?_, fun hp i hi => ?_, fun hp i => ?_⟩
  · obtain ⟨z, hs, hi⟩ := ht.kept i hi
    exact Option.some.inj (hi.symm.trans (ht.reel_eq hs j hj))
  · obtain ⟨z, hs, hi⟩ := ht.kept i hi
    exact ⟨z, hs, hi, ht.plays z i hs hi (by simp [hp])⟩
  · rw [← Bool.not_eq_true]
    intro hi
    obtain ⟨z, hs, -⟩ := ht.kept i hi
    cases hs.symm.trans (ht.closed hp)

/-- A track that plays is replaced by another one, and the output side then finds itself alone. -/
theorem no_producer_works_after_end : ∃ o,
    ({} : Output).run .obedient [.request pair (.start 1 0 none), .produce 0 (.write #[1, 2]),
      .proceed, .acknowledged, .request pair (.start 2 1 none), .produce 1 (.write #[3, 4]),
      .proceed, .acknowledged, .lost] = some o ∧
    o.owners = [(1, 0), (2, 1)] ∧ o.phase = .closed ∧ ∀ i, o.employs i = false := by
  obtain ⟨o, hrun, hp⟩ : ∃ o,
      ({} : Output).run .obedient [.request pair (.start 1 0 none), .produce 0 (.write #[1, 2]),
        .proceed, .acknowledged, .request pair (.start 2 1 none), .produce 1 (.write #[3, 4]),
        .proceed, .acknowledged, .lost] = some o ∧ o.phase = .closed := ⟨_, rfl, rfl⟩
  obtain ⟨howners, -, -, hnone⟩ := at_most_one_producer_works hrun
  exact ⟨o, hrun, howners, hp, hnone hp⟩

end Output

/-! ### The output side of a deck -/

variable {w : World} {fades : Fades} {playlist : Playlist} {d d' : Deck}

/-- What a step of a deck does to its output side is a step of the output side alone. -/
theorem output_step {m : Move} (hm : d.step w m = some d') :
    d'.output = d.output ∨ ∃ m', d.output.step w m' = some d'.output := by
  cases stepped_of_step hm with
  | give | takeCommand => exact .inl rfl
  | takeNotice hp | giveUp hp => exact .inr ⟨.acknowledged, by simp [Output.step, hp]⟩
  | @takeRequest r hp => exact .inr ⟨.request d.control.playlist r, by simp [Output.step, hp]⟩
  | @takeIdle id idle hp hi => exact .inr ⟨.idle id, by simp [Output.step, hp, hi]⟩
  | proceed ho => exact .inr ⟨.proceed, ho⟩
  | @render card _ _ ho => exact .inr ⟨.render d.volume card, by simp [Output.step, ho]⟩
  | @produce reel op =>
    refine .inr ⟨.produce reel op, ?_⟩
    simp only [step] at hm
    split at hm
    · next hlt => exact if_pos hlt
    · cases hm

/-- So no deck leaves a producer behind. -/
theorem Reachable.tidy (h : Reachable w fades playlist d) : d.output.Tidy := by
  obtain ⟨moves, hrun⟩ := h
  refine run_induction (P := fun _ d => d.output.Tidy) Output.tidy_empty
    (fun _ m d d' _ hm htidy => ?_) hrun
  rcases output_step hm with he | ⟨m', hm'⟩
  · rw [he]
    exact htidy
  · exact htidy.step hm'

end Jukebox.Deck
