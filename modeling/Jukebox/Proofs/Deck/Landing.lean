import Jukebox.Proofs.Deck.Fade
import Jukebox.Proofs.Deck.Reels

/-!
Where seeks land. A seek waits in line behind starts, fades and stops, and is carried out on whatever
reel then plays, if it does: by the request itself, or at the end of the start that it was given to.
The order of the requests and the number on each of them rule out a reel of another session, and one
that already fades. Nothing else moves a cursor, but for reading and sizing.
-/

namespace Jukebox

/-- Where a chain is read next, or is to begin once its size is known. -/
def Chain.cursor (c : Chain) : Nat × Nat := (c.buffer.readPos, c.buffer.pendingSeek)

namespace Deck

open Output.Sketch (Turn)
open Transport (State)

/-! ### Landings -/

/-- A seek that is carried out: the place of the request behind it among all that were ever sent, the
reel as it is before, and where to go. -/
structure Landing where
  place : Nat
  reel : Reel
  position : Span

/-- The seek that a step carries out: a request of its own, or the end of a start. -/
def landing? (d : Deck) : Move → Option Landing
  | .takeRequest =>
    match d.output.phase, d.nextRequest? with
    | .ready, some (.seek id position) =>
      ((d.output.live id).bind (·.playing)).bind fun i =>
        (d.output.reels[i]?).map fun reel => ⟨d.output.taken, reel, position⟩
    | _, _ => none
  | .proceed =>
    match d.output.phase with
    | .waiting i (some position) =>
      ((d.output.reels[i]?).filter fun reel => reel.chain.buffer.wait? = some true).map fun reel =>
        ⟨d.output.taken - 1, reel, position⟩
    | _ => none
  | _ => none

/-- The seeks that are carried out in a run, oldest first. -/
def landings (w : World) : Deck → List Move → List Landing :=
  yields (fun d m _ => (d.landing? m).toList) w

/-- Steps of the card and of producers, who move the cursors of chains by reading and sizing. -/
def Move.isAudio : Move → Bool
  | .render _ | .produce .. => true
  | _ => false

/-- No cursor of a reel has been moved but by this seek. -/
def Lands (l? : Option Landing) (o o' : Output) : Prop :=
  match l? with
  | none => o.Alters (fun c c' => c'.cursor = c.cursor) o'
  | some l => ∃ i, o.reels[i]? = some l.reel ∧
      (o.onReel i (·.seek l.position)).Alters (fun c c' => c'.cursor = c.cursor) o'

variable {w : World} {m : Move} {c : Cause} {d d' d₀ d₁ d₂ : Deck} {l : Landing}
  {k k' : Control.Sketch} {f f' : Output.Sketch} {rs : List Request}

/-! ### What moves a cursor -/

theorem admits_cursor : Admits fun c c' => c'.cursor = c.cursor where
  refl _ := rfl
  trans h h' := h'.trans h
  abort _ := rfl
  fadeOut c window := by
    unfold Chain.fadeOut
    split <;> rfl
  setTempo _ _ := rfl

/-- A seek is carried out in the reel that the session plays. -/
theorem seek_lands {o : Output} (hreels : o.reels = d.output.reels)
    (hsession : o.session = d.output.session) {id : Nat} {position : Span}
    (hp : d.output.phase = .ready) (hr : d.nextRequest? = some (.seek id position)) :
    Lands (d.landing? .takeRequest) d.output (o.seek id position) := by
  have hlive : o.live id = d.output.live id := by rw [Output.live, Output.live, hsession]
  simp only [landing?, hp, hr]
  rw [Output.seek, hlive]
  cases hi : (d.output.live id).bind (·.playing) with
  | none => exact .of_reels admits_cursor hreels
  | some i =>
    have hsame : (o.onReel i (·.seek position)).reels =
        (d.output.onReel i (·.seek position)).reels := by rw [Output.onReel, hreels]; rfl
    rw [Option.bind_some]
    cases hreel : d.output.reels[i]? with
    | none =>
      have hnone := Output.alters_onReel (o := d.output) (i := i) (g := (·.seek position))
        admits_cursor fun r hr => absurd (hreel.symm.trans hr) (by simp)
      exact hnone.trans admits_cursor (.of_reels admits_cursor hsame)
    | some reel => exact ⟨i, hreel, .of_reels admits_cursor hsame⟩

theorem landing?_of_ne {r : Request} (hp : d.output.phase = .ready) (hr : d.nextRequest? = some r)
    (hne : ∀ id position, r ≠ .seek id position) : d.landing? .takeRequest = none := by
  simp only [landing?, hp, hr]
  cases r with
  | seek id position => exact absurd rfl (hne id position)
  | _ => rfl

/-- So is the seek of a start, in the reel that was waited for. -/
theorem proceed_lands {o' : Output} (ho : d.output.proceed w = some o') :
    Lands (d.landing? .proceed) d.output o' := by
  rcases Output.alters_proceed admits_cursor ho with ⟨i, position, hp, hw, halters⟩ | ⟨hno, halters⟩
  · obtain ⟨reel, hreel, hwait⟩ := Option.bind_eq_some_iff.1 hw
    simp only [landing?, hp, hreel, Option.filter_some, hwait, decide_true, if_true, Option.map_some]
    exact ⟨i, hreel, halters⟩
  · suffices hnone : d.landing? .proceed = none by
      rw [hnone]
      exact halters
    simp only [landing?]
    split
    · next i position hp =>
      rw [Option.map_eq_none_iff, Option.filter_eq_none_iff]
      intro reel hreel hwait
      exact hno i position hp (by simpa [hreel] using hwait)
    · rfl

/-- Apart from the card and the producers, nobody moves a cursor but by a landing. -/
theorem step_lands (hm : d.step w m = some d') (ha : m.isAudio = false) :
    Lands (d.landing? m) d.output d'.output := by
  cases stepped_of_step hm with
  | give | takeCommand => exact .of_reels admits_cursor rfl
  | takeIdle => exact .of_reels admits_cursor (Output.reels_onIdle _)
  | takeNotice | giveUp => exact Output.alters_acknowledged admits_cursor
  | render | produce => cases ha
  | proceed ho => exact proceed_lands ho
  | @takeRequest r hp hr =>
    by_cases hseek : ∃ id position, r = .seek id position
    · obtain ⟨id, position, rfl⟩ := hseek
      exact seek_lands (o := { d.output with taken := d.output.taken + 1 }) rfl rfl hp hr
    · have hne : ∀ id position, r ≠ .seek id position :=
        fun id position he => hseek ⟨id, position, he⟩
      rw [landing?_of_ne hp hr hne]
      exact Output.alters_handle (o := { d.output with taken := d.output.taken + 1 })
        admits_cursor d.control.playlist hne

/-! ### The order of fades and seeks -/

namespace Control.Sketch

/-- A fade is asked for in the running session or an earlier one; from then on the player fades or
has stopped, and nobody asks for a seek in this session any more. -/
structure FadesLast (k : Sketch) : Prop where
  known : ∀ id window, .fadeOut id window ∈ k.sent → id ≤ k.session
  state : ∀ window, .fadeOut k.session window ∈ k.sent → k.state = .stopped ∨ k.state.isFading
  order : k.sent.Pairwise fun a b => ∀ id window position, a = .fadeOut id window →
    b ≠ .seek id position

/-- A change of state that does not bring a track back that has faded. -/
theorem FadesLast.restate (h : k.FadesLast) {s : State} {p : Playlist} {held : Option Nat}
    {seek : Option Span} {closed : Bool}
    (hs : k.state = .stopped ∨ k.state.isFading → s = .stopped ∨ s.isFading) :
    FadesLast { k with state := s, playlist := p, held, pendingSeek := seek, closed } :=
  ⟨h.known, fun window hm => hs (h.state window hm), h.order⟩

/-- A request that is no fade, and no seek either unless the track goes on. -/
theorem FadesLast.ask (h : k.FadesLast) {r : Request} (hfade : ∀ id window, r ≠ .fadeOut id window)
    (hseek : ∀ id position, r = .seek id position →
      id = k.session ∧ ¬ (k.state = .stopped ∨ k.state.isFading)) : (k.ask r).FadesLast := by
  have old : ∀ {id window}, .fadeOut id window ∈ (k.ask r).sent → .fadeOut id window ∈ k.sent := by
    intro id window hm
    rcases List.mem_append.1 hm with hm | hm
    · exact hm
    · exact absurd (List.mem_singleton.1 hm).symm (hfade id window)
  refine ⟨fun id window hm => h.known id window (old hm),
    fun window hm => h.state window (old hm), ?_⟩
  refine List.pairwise_append.2 ⟨h.order, List.pairwise_singleton .., ?_⟩
  rintro a ha b hb id window position rfl rfl
  obtain ⟨rfl, hgoes⟩ := hseek id position (List.mem_singleton.1 hb).symm
  exact hgoes (h.state window ha)

/-- A running track fades. -/
theorem FadesLast.fade (h : k.FadesLast) {s : State} (hs : s.isFading) (window : Span) :
    ({ k with state := s }.ask (.fadeOut k.session window)).FadesLast := by
  refine ⟨fun id window' hm => ?_, fun _ _ => .inr hs, ?_⟩
  · rcases List.mem_append.1 hm with hm | hm
    · exact h.known id window' hm
    · cases List.mem_singleton.1 hm
      exact Nat.le_refl _
  · refine List.pairwise_append.2 ⟨h.order, List.pairwise_singleton .., ?_⟩
    rintro a - b hb id window' position - rfl
    cases List.mem_singleton.1 hb

/-- Of a new session no fade has been asked for yet. -/
theorem FadesLast.begin (h : k.FadesLast) (p : Playlist) (t : Nat) : (k.begin p t).FadesLast := by
  have hfresh : ∀ window, .fadeOut (k.session + 1) window ∉ k.sent := fun window hm =>
    Nat.not_succ_le_self _ (h.known _ _ hm)
  have hnext : ({ k with state := .starting, session := k.session + 1 } : Sketch).FadesLast :=
    ⟨fun id window hm => Nat.le_succ_of_le (h.known id window hm),
      fun window hm => absurd hm (hfresh window), h.order⟩
  have hask := hnext.ask (r := .start (k.session + 1) t k.pendingSeek) nofun nofun
  refine ⟨hask.known, fun window hm => ?_, hask.order⟩
  have hstate : State.starting = .stopped ∨ State.starting.isFading = true := hask.state window hm
  exact absurd hstate (by decide)

theorem FadesLast.ordered {cmd : Command} (h : k.FadesLast) (hk : k.Ordered cmd k') :
    k'.FadesLast := by
  have awake : ∀ {s : State}, s.isRunning ∨ s = .paused → ¬ (s = .stopped ∨ s.isFading) := by
    intro s hs
    cases s <;> simp [State.isRunning, State.isFading] at hs ⊢
  cases hk with
  | begin => exact h.begin _ _
  | fade _ hc =>
    refine h.fade ?_ _
    rcases hc with ⟨-, rfl⟩ | ⟨-, rfl⟩ | ⟨-, rfl⟩ | ⟨-, rfl⟩ <;> rfl
  | turn => exact h.restate fun _ => .inr rfl
  | cut hc =>
    refine FadesLast.ask (h.restate fun _ => .inr ?_) (by simp) (by simp)
    rcases hc with ⟨-, -, rfl⟩ | ⟨-, ⟨-, rfl⟩ | ⟨-, rfl⟩⟩ <;> rfl
  | suspend | resume | halt | tempo => exact h.ask (by simp) (by simp)
  | seek hs =>
    refine h.ask (by simp) fun id position he => ?_
    cases he
    exact ⟨rfl, awake hs⟩
  | shutdown => exact FadesLast.ask (h.restate id) (by simp) (by simp)
  | step | remember => exact h.restate id
  | ignored => exact h

theorem FadesLast.heard {e : DeviceEvent} (h : k.FadesLast) (hk : k.Heard e k') :
    k'.FadesLast := by
  have awake : ∀ {s s' : State}, s.isRunning ∨ s = .paused → s = .stopped ∨ s.isFading →
      s' = .stopped ∨ s'.isFading := by
    intro s s' hs hs'
    cases s <;> simp [State.isRunning, State.isFading] at hs hs'
  cases hk with
  | play hs | pause hs => exact h.restate (awake hs)
  | next | arrive | skip => exact h.begin _ _
  | finish | giveUp => exact h.restate fun _ => .inl rfl
  | mark => exact h.restate id
  | ignored => exact h

theorem FadesLast.acts (h : k.FadesLast) (hk : k.Acts k') : k'.FadesLast := by
  cases hk with
  | nothing => exact h
  | ordered hk => exact h.ordered hk
  | heard hk => exact h.heard hk

end Control.Sketch

theorem fadesLast_shift (h : k.FadesLast) (hmail : Mail k f) (hm : Shift w m k f k' f') :
    k'.FadesLast := by
  cases (hm.post hmail.taken).1 with
  | sent ha => exact h.acts ha
  | taken hk => exact hk ▸ h

/-! ### The reels that seeks can land on -/

/-- After these requests only reels fade whose fade has been among them, and a start that waits for
its data has been the last of them. -/
structure Output.Sketch.Aimed (f : Output.Sketch) (rs : List Request) : Prop where
  fades : ∀ s ∈ f.sleeves, s.fades → ∃ window, .fadeOut s.session window ∈ rs
  plays : ∀ z, f.session = some z → z.playing.isSome → z.stream.isSome
  waiting : ∀ i seek, f.phase = .waiting i seek → ∃ z s, f.session = some z ∧
    f.sleeves[i]? = some s ∧ s.session = z.id ∧ s.fades = false ∧
      rs.getLast? = some (.start z.id s.track seek)

namespace Output.Sketch.Aimed

theorem mail (h : f.Aimed rs) (idle : List Nat) (taken : Nat) :
    Output.Sketch.Aimed { f with idle, taken } rs := ⟨h.fades, h.plays, h.waiting⟩

/-- A session that goes on with the same stream or a new one, while nothing is waited for. -/
theorem update (h : f.Aimed rs) (hl : f'.sleeves = f.sleeves)
    (hz : ∀ z', f'.session = some z' → z'.playing.isSome → z'.stream.isSome)
    (hp : ∀ i seek, f'.phase ≠ .waiting i seek) : f'.Aimed rs :=
  ⟨hl ▸ h.fades, hz, fun i seek hw => absurd hw (hp i seek)⟩

theorem turn (h : f.Aimed rs) (ht : Turn w c f f') (hc : c.isRequest = false) : f'.Aimed rs := by
  cases ht with
  | failed _ hs | idle hs =>
    have hplays := h.plays _ hs
    refine h.update rfl ?_ (by simp)
    rintro _ ⟨rfl⟩
    exact hplays
  | opened => exact h.update rfl (by rintro _ ⟨rfl⟩ -; rfl) (by simp)
  | acknowledged => exact h.update rfl h.plays (by simp)
  | ended => exact h.update rfl (by rintro _ ⟨⟩) (by simp)
  | dry hs =>
    have hplays := h.plays _ hs
    refine ⟨h.fades, ?_, fun i seek hw => ?_⟩
    · rintro _ ⟨rfl⟩
      exact hplays
    · obtain ⟨z, s, hz, hrest⟩ := h.waiting i seek hw
      cases hs.symm.trans hz
      exact ⟨_, s, rfl, hrest⟩
  | idleNone | rendered | produced => exact h
  | _ => cases hc

theorem more (h : f.Aimed rs) (hp : f.phase = .ready) (r : Request) : f.Aimed (rs ++ [r]) := by
  refine ⟨fun s hs hf => ?_, h.plays, by simp [hp]⟩
  obtain ⟨window, hm⟩ := h.fades s hs hf
  exact ⟨window, List.mem_append_left _ hm⟩

/-- A request that has been taken. -/
theorem request {tracks : Playlist} {r : Request} (h : f.Aimed rs) (hshows : f.Shows)
    (hp : f.phase = .ready) (ht : Turn w (.request tracks r) f f') : f'.Aimed (rs ++ [r]) := by
  have h' := h.more hp r
  cases ht with
  | empty => exact h'.update rfl (by rintro _ ⟨rfl⟩ ⟨⟩) (by simp)
  | @load _ _ id track seek title =>
    refine ⟨fun s hs hf => ?_, by rintro _ ⟨rfl⟩ ⟨⟩, fun i seek' hw => ?_⟩
    · rcases List.mem_append.1 hs with hs | hs
      · exact h'.fades s hs hf
      · rw [List.mem_singleton.1 hs] at hf
        cases hf
    · cases hw
      exact ⟨_, _, rfl, List.getElem?_concat_length .., rfl, rfl, List.getLast?_concat ..⟩
  | suspend | resume => exact h'.update rfl (by rintro _ ⟨rfl⟩ -; rfl) (by simp)
  | stop hs ho =>
    have hplays := h.plays _ hs
    refine h'.update rfl ?_ (by simp [fire, hp])
    rintro _ ⟨rfl⟩ hplaying
    exact ho.trans (hplays hplaying)
  | cut hs =>
    have hplays := h.plays _ hs
    refine h'.update rfl ?_ (by simp [fire, hp])
    rintro _ ⟨rfl⟩
    exact hplays
  | @fade _ _ z i window hs hplaying ho =>
    obtain ⟨j, s, hj, hi, hid, -⟩ := hshows.shown z hs ho
    cases hplaying.symm.trans hj
    refine ⟨fun s' hs' hf => ?_, h.plays, by simp [hp]⟩
    obtain ⟨n, hn⟩ := List.mem_iff_getElem?.1 hs'
    obtain ⟨s₀, hs₀, rfl⟩ := Option.map_eq_some_iff.1 ((List.getElem?_modify ..).symm.trans hn)
    by_cases hin : i = n
    · subst hin
      cases hi.symm.trans hs₀
      exact ⟨window, by simp [Sleeve.fade, hid]⟩
    · rw [if_neg hin] at hf ⊢
      exact h'.fades s₀ (List.mem_of_getElem? hs₀) hf
  | shutdown => exact h'.update rfl (by rintro _ ⟨⟩) (by simp)
  | _ => exact h'

end Output.Sketch.Aimed

theorem aimed_shift (h : f.Aimed (handled k f)) (hs : Sound k f) (hm : Shift w m k f k' f') :
    f'.Aimed (handled k' f') := by
  rcases handled_shift hs.mail hm with ⟨c, idle, hsame, hf, hn⟩ | ⟨r, hmore, hp, hf⟩
  · rw [hsame]
    exact (h.mail idle f.taken).turn hf hn
  · rw [hmore]
    have hshows : Output.Sketch.Shows { f with taken := f.taken + 1 } :=
      ⟨hs.orderly.shows.shown, hs.orderly.shows.hidden⟩
    exact (h.mail f.idle (f.taken + 1)).request hshows hp hf

/-- All that seeks rely on. -/
structure Guided (k : Control.Sketch) (f : Output.Sketch) : Prop where
  sound : Sound k f
  fadesLast : k.FadesLast
  aimed : f.Aimed (handled k f)

theorem Guided.shift (h : Guided k f) (hm : Shift w m k f k' f') : Guided k' f' :=
  ⟨h.sound.shift hm, fadesLast_shift h.fadesLast h.sound.mail hm, aimed_shift h.aimed h.sound hm⟩

theorem Reachable.guided {fades : Fades} {playlist : Playlist} (h : Reachable w fades playlist d) :
    Guided d.control.sketch d.output.sketch := by
  refine h.keeps ⟨sound_initial fades playlist, ⟨nofun, nofun, .nil⟩, ⟨nofun, ?_, ?_⟩⟩
    fun hg hm => hg.shift hm
  · rintro z ⟨⟩
  · rintro i seek ⟨⟩

/-! ### Where landings come from -/

/-- The least place that the next landing can have. -/
def Output.Sketch.horizon (f : Output.Sketch) : Nat :=
  match f.phase with
  | .waiting .. => f.taken - 1
  | _ => f.taken

theorem horizon_of_waiting {i : Nat} {seek : Option Span} (hp : f.phase = .waiting i seek) :
    f.horizon = f.taken - 1 := by rw [Output.Sketch.horizon, hp]

theorem horizon_eq (hp : ∀ i seek, f.phase ≠ .waiting i seek) : f.horizon = f.taken := by
  unfold Output.Sketch.horizon
  split
  · next hw => exact absurd hw (hp _ _)
  · rfl

theorem horizon_le : f.taken - 1 ≤ f.horizon ∧ f.horizon ≤ f.taken := by
  unfold Output.Sketch.horizon
  split <;> omega

/-- Only a start makes the output side wait for data. -/
theorem Output.Sketch.Turn.waits (ht : Turn w c f f') (hc : c.isRequest = false) {i : Nat}
    {seek : Option Span} (hw : f'.phase = .waiting i seek) : f.phase = .waiting i seek := by
  cases ht with
  | failed | opened | idle | acknowledged | ended => cases hw
  | dry | idleNone | rendered | produced => exact hw
  | _ => cases hc

theorem horizon_shift (hmail : Mail k f) (hm : Shift w m k f k' f') : f.horizon ≤ f'.horizon := by
  rcases handled_shift hmail hm with ⟨c, idle, -, hf, hn⟩ | ⟨r, -, hp, hf⟩
  · have htaken : f'.taken = f.taken := hf.taken_eq
    by_cases hw : ∃ i seek, f'.phase = .waiting i seek
    · obtain ⟨i, seek, hw⟩ := hw
      have hw₀ : f.phase = .waiting i seek := hf.waits hn hw
      exact Nat.le_of_eq (by rw [horizon_of_waiting hw, horizon_of_waiting hw₀, htaken])
    · rw [horizon_eq (f := f') fun i seek he => hw ⟨i, seek, he⟩, htaken]
      exact horizon_le.2
  · have htaken : f'.taken = f.taken + 1 := hf.taken_eq
    have hle := (horizon_le (f := f')).1
    rw [horizon_eq (f := f) (by simp [hp])]
    omega

/-- The request behind a landing is of the session that the reel belongs to, and no fade is on the
reel yet. -/
structure Landing.Meant (l : Landing) (sent : List Request) : Prop where
  unfaded : l.reel.chain.fade = none
  asked : sent[l.place]? = some (.seek l.reel.session l.position) ∨
    sent[l.place]? = some (.start l.reel.session l.reel.track (some l.position))

theorem Landing.Meant.append {sent : List Request} (h : l.Meant sent) (news : List Request) :
    l.Meant (sent ++ news) := by
  have old : ∀ {r}, sent[l.place]? = some r → (sent ++ news)[l.place]? = some r := fun hr => by
    rw [List.getElem?_append_left (List.getElem?_eq_some_iff.1 hr).1, hr]
  exact ⟨h.unfaded, h.asked.imp old old⟩

/-- No fade of a session has been taken when a seek in it is. -/
theorem Control.Sketch.FadesLast.not_handled (h : k.FadesLast) {id : Nat} {position window : Span}
    (hr : k.sent[f.taken]? = some (.seek id position)) : .fadeOut id window ∉ handled k f := by
  intro hm
  have hsplit : k.sent = handled k f ++ k.sent.drop f.taken := (List.take_append_drop ..).symm
  have hlater : .seek id position ∈ k.sent.drop f.taken := by
    rw [List.drop_eq_getElem?_toList_append, hr]
    exact List.mem_append_left _ (List.mem_singleton_self _)
  have horder := h.order
  rw [hsplit, List.pairwise_append] at horder
  exact horder.2.2 _ hm _ hlater id window position rfl rfl

/-- The request taken last, if any has been taken. -/
theorem handled_getLast? (hmail : Mail k f) {r : Request} (hr : (handled k f).getLast? = some r) :
    0 < f.taken ∧ k.sent[f.taken - 1]? = some r := by
  have hle := hmail.taken
  rw [handled, List.getLast?_eq_getElem?, List.length_take, Nat.min_eq_left hle,
    List.getElem?_take] at hr
  split at hr
  · exact ⟨by omega, hr⟩
  · cases hr

/-- A seek that is taken lands on the reel of its session. -/
theorem seek_meant {id : Nat} {position : Span} (hg : Guided d.control.sketch d.output.sketch)
    (hp : d.output.phase = .ready) (hr : d.nextRequest? = some (.seek id position))
    (hl : d.landing? .takeRequest = some l) :
    l.place = d.output.taken ∧ l.Meant d.control.sent := by
  simp only [landing?, hp, hr] at hl
  obtain ⟨i, hlive, hl⟩ := Option.bind_eq_some_iff.1 hl
  obtain ⟨z, hz, hplaying⟩ := Option.bind_eq_some_iff.1 hlive
  obtain ⟨reel, hreel, rfl⟩ := Option.map_eq_some_iff.1 hl
  obtain ⟨hs, rfl⟩ := Output.live_eq_some.1 hz
  obtain ⟨j, s, hj, hsleeve, hid, -⟩ :=
    hg.sound.orderly.shows.shown z hs (hg.aimed.plays z hs (by rw [hplaying]; rfl))
  cases hplaying.symm.trans hj
  have hsleeve' : d.output.sketch.sleeves[i]? = some reel.sleeve := by
    simp [Output.sketch, hreel]
  cases hsleeve.symm.trans hsleeve'
  have hid : reel.session = z.id := hid
  refine ⟨rfl, Option.not_isSome_iff_eq_none.1 fun hf => ?_, .inl ?_⟩
  · obtain ⟨window, hm⟩ := hg.aimed.fades _ (List.mem_of_getElem? hsleeve') hf
    have hm : .fadeOut z.id window ∈ handled d.control.sketch d.output.sketch := by
      rw [← hid]
      exact hm
    exact hg.fadesLast.not_handled (f := d.output.sketch) hr hm
  · rw [hid]
    exact hr

/-- The seek of a start lands on the reel that the start has made. -/
theorem proceed_meant (hg : Guided d.control.sketch d.output.sketch)
    (hl : d.landing? .proceed = some l) : l.place < d.output.taken ∧
      d.output.sketch.horizon = l.place ∧ l.Meant d.control.sent := by
  simp only [landing?] at hl
  split at hl
  · next i position hp =>
    obtain ⟨reel, hreel, rfl⟩ := Option.map_eq_some_iff.1 hl
    have hreel := (Option.filter_eq_some_iff.1 hreel).1
    obtain ⟨z, s, -, hsleeve, hid, hfades, hlast⟩ := hg.aimed.waiting i _ hp
    have hsleeve' : d.output.sketch.sleeves[i]? = some reel.sleeve := by
      simp [Output.sketch, hreel]
    cases hsleeve.symm.trans hsleeve'
    obtain ⟨hpos, hasked⟩ := handled_getLast? hg.sound.mail hlast
    refine ⟨Nat.sub_lt hpos Nat.one_pos, horizon_of_waiting (f := d.output.sketch) hp,
      Option.not_isSome_iff_eq_none.1 ?_, .inr ?_⟩
    · exact Bool.eq_false_iff.1 hfades
    · rw [show reel.session = z.id from hid]
      exact hasked
  · cases hl

/-- Every landing is meant, and comes after all that were before it. -/
theorem landing_meant (hg : Guided d.control.sketch d.output.sketch) (hm : d.step w m = some d')
    (hl : d.landing? m = some l) :
    l.Meant d.control.sent ∧ d.output.sketch.horizon ≤ l.place ∧
      l.place < d'.output.sketch.horizon := by
  cases stepped_of_step hm with
  | @takeRequest r hp hr =>
    by_cases hseek : ∃ id position, r = .seek id position
    · obtain ⟨id, position, rfl⟩ := hseek
      obtain ⟨hplace, hmeant⟩ := seek_meant hg hp hr hl
      have ht := Output.handle_turn (w := w) (o := { d.output with taken := d.output.taken + 1 })
        d.control.playlist (.seek id position)
      generalize (Output.handle w { d.output with taken := d.output.taken + 1 } d.control.playlist
        (.seek id position)).sketch = f' at ht ⊢
      have htaken : f'.taken = d.output.taken + 1 := ht.taken_eq
      have hphase : f'.phase = .ready := by
        cases ht
        exact hp
      refine ⟨hmeant, hplace ▸ horizon_le.2, ?_⟩
      rw [horizon_eq (f := f') (by simp [hphase]), htaken, hplace]
      exact Nat.lt_succ_self _
    · have hne : ∀ id position, r ≠ .seek id position :=
        fun id position he => hseek ⟨id, position, he⟩
      cases (landing?_of_ne hp hr hne).symm.trans hl
  | @proceed o' ho =>
    obtain ⟨hlt, hplace, hmeant⟩ := proceed_meant hg hl
    have ht := Output.proceed_turn ho
    generalize o'.sketch = f' at ht ⊢
    have htaken : f'.taken = d.output.taken := ht.taken_eq
    have hphase : ∀ i seek, f'.phase ≠ .waiting i seek := by
      cases ht <;> simp
    refine ⟨hmeant, Nat.le_of_eq hplace, ?_⟩
    rw [horizon_eq hphase, htaken]
    exact hlt
  | _ => cases hl

/-- The landings of a run: each is meant, no two have one request behind them, and those to come have
later ones. -/
structure Landed (ls : List Landing) (k : Control.Sketch) (f : Output.Sketch) : Prop where
  ordered : ls.Pairwise (·.place < ·.place)
  before : ∀ l ∈ ls, l.place < f.horizon
  meant : ∀ l ∈ ls, l.Meant k.sent

/-- What has been sent stays sent. -/
theorem sent_shift (hm : Shift w m k f k' f') : k.sent <+: k'.sent := by
  cases hm with
  | command _ hk =>
    obtain ⟨news, hnews⟩ := hk.sends
    exact ⟨news, hnews.sent.symm⟩
  | @notice n _ _ _ _ _ _ hk hk' =>
    by_cases hid : n.session = k.session
    · obtain ⟨news, hnews⟩ := (hk hid).sends
      exact ⟨news, hnews.sent.symm⟩
    · exact (hk' hid) ▸ List.prefix_rfl
  | _ => exact List.prefix_rfl

theorem Landed.nil : Landed [] k f := ⟨.nil, by simp, by simp⟩

theorem Landed.step {ls : List Landing} (h : Landed ls d.control.sketch d.output.sketch)
    (hg : Guided d.control.sketch d.output.sketch) (hm : d.step w m = some d') :
    Landed (ls ++ (d.landing? m).toList) d'.control.sketch d'.output.sketch := by
  obtain ⟨news, hnews⟩ := sent_shift (step_shift hm)
  have hhorizon := horizon_shift hg.sound.mail (step_shift hm)
  have hold : Landed ls d'.control.sketch d'.output.sketch :=
    ⟨h.ordered, fun l hl => Nat.lt_of_lt_of_le (h.before l hl) hhorizon,
      fun l hl => hnews ▸ (h.meant l hl).append news⟩
  cases hl : d.landing? m with
  | none =>
    rw [Option.toList_none, List.append_nil]
    exact hold
  | some l =>
    obtain ⟨hmeant, hge, hlt⟩ := landing_meant hg hm hl
    refine ⟨List.pairwise_append.2 ⟨h.ordered, List.pairwise_singleton .., ?_⟩,
      fun l' hl' => ?_, fun l' hl' => ?_⟩
    · intro l₁ hl₁ l₂ hl₂
      rw [List.mem_singleton.1 hl₂]
      exact Nat.lt_of_lt_of_le (h.before l₁ hl₁) hge
    · rcases List.mem_append.1 hl' with hl' | hl'
      · exact hold.before l' hl'
      · rw [List.mem_singleton.1 hl']
        exact hlt
    · rcases List.mem_append.1 hl' with hl' | hl'
      · exact hold.meant l' hl'
      · rw [List.mem_singleton.1 hl', ← hnews]
        exact hmeant.append news

theorem landed_of_run {fades : Fades} {playlist : Playlist} {moves : List Move}
    (h : (initial fades playlist).run w moves = some d) :
    Landed (landings w (initial fades playlist) moves) d.control.sketch d.output.sketch := by
  refine run_induction (P := fun before d =>
    Landed (landings w (initial fades playlist) before) d.control.sketch d.output.sketch)
    .nil (fun before m d d' hrun hm hlanded => ?_) h
  rw [landings, yields_concat _ hrun hm]
  exact hlanded.step (Reachable.guided ⟨before, hrun⟩) hm

end Deck

end Jukebox
