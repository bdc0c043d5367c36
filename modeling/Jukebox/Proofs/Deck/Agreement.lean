import Jukebox.Proofs.Deck.Orderly
import Jukebox.Proofs.Deck.Title

/-!
What the state of the control side says about the output side. While something is on its way the
two can differ, but never by more than what is on its way: a start is pending or being handled, a
fade or stop is pending or has been handled, a change of the stream is being reported. `Agrees` says
so state by state, and every step keeps it as long as the control side has not ended. When nothing
is on its way, the state and the stream are left to agree.
-/

namespace Jukebox.Deck

open Output.Sketch (Turn)
open Transport (State)

namespace Output.Sketch

/-- No stream is open and none is going to be opened. -/
structure Silent (f : Sketch) : Prop where
  still : ∀ i seek, f.phase ≠ .waiting i seek
  unheard : ∀ z, f.session = some z → z.stream = none

/-- A start is being handled. -/
def Starts (f : Sketch) : Prop :=
  ∃ z, f.session = some z ∧ ((∃ i seek, f.phase = .waiting i seek) ∨
    f.phase = .reporting ⟨z.id, .active⟩ ∨ f.phase = .reporting ⟨z.id, .failed⟩)

/-- The stream is open, and runs or not, unless the end or a change is being reported. -/
def Runs (f : Sketch) (running : Bool) : Prop :=
  ∃ z r, f.session = some z ∧ z.stream = some r ∧
    (z.fired = true ∨ f.phase = .reporting ⟨z.id, .active⟩ ∨
      f.phase = .reporting ⟨z.id, .suspended⟩ ∨ r = running)

/-- The reel of the open stream fades, unless the end is being reported. -/
def Fades (f : Sketch) : Prop :=
  ∃ z, f.session = some z ∧ (z.fired = true ∨ z.stream.isSome ∧
    ∃ i s, z.playing = some i ∧ f.sleeves[i]? = some s ∧ s.fades = true)

end Output.Sketch

/-- A request to bring a session to its end. -/
def Request.Ends (s : Nat) : Request → Prop
  | .fadeOut id _ => id = s
  | .stop id => id = s
  | _ => False

/-- A request to end this session is on its way, and no start after it. -/
def AwaitsEnd (s : Nat) (rs : List Request) : Prop :=
  ∃ a r b, rs = a ++ r :: b ∧ r.Ends s ∧ numbers b = []

/-- What the state of the control side says about the output side. -/
def Agrees (k : Control.Sketch) (f : Output.Sketch) : Prop :=
  match k.state with
  | .stopped => numbers (pending k f) = [] ∧ f.Silent
  | .starting => numbers (pending k f) ≠ [] ∨ f.Starts
  | .playing => numbers (pending k f) = [] ∧ f.Runs true
  | .paused => numbers (pending k f) = [] ∧ f.Runs false
  | .fadingToStop | .fadingTo _ =>
    AwaitsEnd k.session (pending k f) ∧ (numbers (pending k f) = [] → f.session.isSome) ∨
      numbers (pending k f) = [] ∧ f.Fades

variable {w : World} {m : Move} {c : Cause} {k k' : Control.Sketch} {f f' : Output.Sketch}

/-! ### What keeps the output side as it is -/

namespace Output.Sketch

theorem Silent.turn (h : f.Silent) (ht : Turn w c f f') (hc : c.number? = none) : f'.Silent := by
  have no_stream : ∀ z, f.session = some z → z.stream.isSome → False := by
    intro z hs ho
    simp [h.unheard z hs] at ho
  cases ht with
  | empty | load => simp [Cause.number?, Request.number?] at hc
  | suspend hs ho | resume hs ho | fade hs _ ho => exact (no_stream _ hs ho).elim
  | dry hs ho => exact (no_stream _ hs (by simp [ho])).elim
  | failed hp | opened hp => exact absurd hp (h.still _ _)
  | stop hs ho =>
    refine ⟨h.still, ?_⟩
    rintro _ ⟨rfl⟩
    simpa [h.unheard _ hs] using ho
  | cut hs =>
    have hn := h.unheard _ hs
    refine ⟨h.still, ?_⟩
    rintro _ ⟨rfl⟩
    exact hn
  | idle hs =>
    have hn := h.unheard _ hs
    refine ⟨by simp, ?_⟩
    rintro _ ⟨rfl⟩
    exact hn
  | shutdown | ended => exact ⟨by simp, by simp⟩
  | acknowledged => exact ⟨by simp, h.unheard⟩
  | _ => exact h

/-- A start is handled until it is reported. -/
theorem Starts.turn (h : f.Starts) (ht : Turn w c f f') (ha : c ≠ .acknowledgement)
    (hr : c.isRequest ∨ c.isIdle → f.phase = .ready) : f'.Starts := by
  obtain ⟨z, hs, hp⟩ := h
  have busy : f.phase ≠ .ready := by
    rintro he
    simp [he] at hp
  cases ht with
  | failed => exact ⟨_, rfl, .inr (.inr rfl)⟩
  | opened => exact ⟨_, rfl, .inr (.inl rfl)⟩
  | rendered | produced => exact ⟨z, hs, hp⟩
  | dry hs' =>
    rw [hs] at hs'
    cases hs'
    exact ⟨_, rfl, hp⟩
  | acknowledged | ended => exact absurd rfl ha
  | idle | idleNone => exact absurd (hr (.inr rfl)) busy
  | _ => exact absurd (hr (.inl rfl)) busy

/-- An open stream stays open until its session ends; a change of it is reported. -/
theorem Runs.turn {running : Bool} (h : f.Runs running) (hb : f.Busy) (ht : Turn w c f f')
    (hc : c.number? = none) (ha : c ≠ .acknowledgement)
    (hr : c.isRequest ∨ c.isIdle → f.phase = .ready) (hsome : f'.session.isSome) :
    f'.Runs running := by
  obtain ⟨z, r, hs, ho, hrest⟩ := h
  cases ht with
  | empty | load => simp [Cause.number?, Request.number?] at hc
  | shutdown => simp at hsome
  | acknowledged | ended => exact absurd rfl ha
  | suspend => exact ⟨_, false, rfl, rfl, .inr (.inr (.inl rfl))⟩
  | resume => exact ⟨_, true, rfl, rfl, .inr (.inl rfl)⟩
  | failed hp | opened hp => simp [(hb.waits hp hs).1] at ho
  | @stop _ _ _ stream hs' ho' =>
    rw [hs] at hs'
    cases hs'
    obtain ⟨r', hr'⟩ := Option.isSome_iff_exists.1 (ho'.trans (by simp [ho]))
    exact ⟨_, r', rfl, hr', .inl rfl⟩
  | cut hs' | dry hs' =>
    rw [hs] at hs'
    cases hs'
    exact ⟨_, r, rfl, ho, .inl rfl⟩
  | idle hs' =>
    rw [hs] at hs'
    cases hs'
    simp only [hr (.inr rfl), reduceCtorEq, false_or] at hrest
    exact ⟨_, r, rfl, ho, hrest.imp id fun he => .inr (.inr he)⟩
  | _ => exact ⟨z, r, hs, ho, hrest⟩

/-- A fade lasts until its session ends. -/
theorem Fades.turn (h : f.Fades) (hb : f.Busy) (ht : Turn w c f f') (hc : c.number? = none)
    (hsome : f'.session.isSome) : f'.Fades := by
  obtain ⟨z, hs, hrest⟩ := h
  cases ht with
  | empty | load => simp [Cause.number?, Request.number?] at hc
  | shutdown | ended => simp at hsome
  | suspend hs' ho | resume hs' ho =>
    rw [hs] at hs'
    cases hs'
    refine ⟨_, rfl, hrest.imp id ?_⟩
    rintro ⟨-, hf⟩
    exact ⟨rfl, hf⟩
  | failed hp hs' | opened hp hs' =>
    have hn := (hb.waits hp hs).1
    rw [hs] at hs'
    cases hs'
    refine ⟨_, rfl, .inl (hrest.resolve_right ?_)⟩
    rintro ⟨ho, -⟩
    simp [hn] at ho
  | stop | cut | dry => exact ⟨_, rfl, .inl rfl⟩
  | idle hs' =>
    rw [hs] at hs'
    cases hs'
    exact ⟨_, rfl, hrest⟩
  | @fade _ _ _ i =>
    refine ⟨z, hs, hrest.imp id ?_⟩
    rintro ⟨ho, j, s, hj, hm, hf⟩
    by_cases hij : i = j
    · exact ⟨ho, j, s.fade, hj, by simp [hij, hm], rfl⟩
    · exact ⟨ho, j, s, hj, by simp [hij, hm], hf⟩
  | _ => exact ⟨z, hs, hrest⟩

theorem Turn.starts {id : Nat} (ht : Turn w c f f') (hc : c.number? = some id) : f'.Starts := by
  cases ht <;> simp [Cause.number?, Request.number?] at hc
  · exact ⟨_, rfl, .inr (.inr rfl)⟩
  · exact ⟨_, rfl, .inl ⟨_, _, rfl⟩⟩

/-- A request to end a session lets it fade or ends it. -/
theorem Turn.fades {tracks : Playlist} {r : Request} {z : Session}
    (ht : Turn w (.request tracks r) f f') (hr : r.Ends z.id) (hs : f.session = some z)
    (hshows : f.Shows) : f'.Fades := by
  cases ht with
  | stopNone hn | fadeNone hn =>
    rw [show _ = z.id from hr, live_self hs] at hn
    cases hn
  | stop | cut => exact ⟨_, rfl, .inl rfl⟩
  | fade hs' hp ho =>
    obtain ⟨j, s, hj, hm, -⟩ := hshows.shown _ hs' ho
    rw [hp] at hj
    cases hj
    exact ⟨_, hs', .inr ⟨ho, _, s.fade, hp, by simp [hm], rfl⟩⟩
  | _ => exact hr.elim

/-- An acknowledgement ends the session that was reported idle, and changes nothing else. -/
theorem Turn.acknowledgement_eq {n : Notice} (ht : Turn w .acknowledgement f f') (hb : f.Busy)
    (hp : f.phase = .reporting n) :
    f' = { (if n.event = .idle then f.clear else f) with phase := .ready } := by
  obtain ⟨z, hs, hid, -⟩ := hb.reporting n hp
  cases ht with
  | acknowledged hp' hn =>
    rw [hp] at hp'
    cases hp'
    split
    · next he =>
      have hl := hn he
      rw [← hid, live_self hs] at hl
      cases hl
    · rfl
  | ended hp' hs' =>
    rw [hp] at hp'
    cases hp'
    rfl

end Output.Sketch

/-! ### The table, read -/

theorem pending_ask (ht : f.taken ≤ k.sent.length) (r : Request) :
    pending (k.ask r) f = pending k f ++ [r] := List.drop_append_of_le_length ht

theorem AwaitsEnd.append {s : Nat} {rs news : List Request} (h : AwaitsEnd s rs)
    (hn : numbers news = []) : AwaitsEnd s (rs ++ news) := by
  obtain ⟨a, r, b, rfl, hr, hb⟩ := h
  exact ⟨a, r, b ++ news, by simp, hr, by simp [hb, hn]⟩

theorem AwaitsEnd.last {s : Nat} {rs : List Request} {r : Request} (hr : r.Ends s) :
    AwaitsEnd s (rs ++ [r]) := ⟨rs, r, [], rfl, hr, rfl⟩

theorem AwaitsEnd.of_cons {s : Nat} {r : Request} {rs : List Request} (h : AwaitsEnd s (r :: rs)) :
    r.Ends s ∧ numbers rs = [] ∨ AwaitsEnd s rs := by
  obtain ⟨a, r', b, he, hr, hb⟩ := h
  cases a with
  | nil =>
    cases he
    exact .inl ⟨hr, hb⟩
  | cons _ a =>
    cases he
    exact .inr ⟨a, r', b, rfl, hr, hb⟩

theorem Request.Ends.number?_eq {s : Nat} {r : Request} (h : r.Ends s) : r.number? = none := by
  cases r <;> first | rfl | exact h.elim

/-- What there is while a track fades. -/
def Ending (k : Control.Sketch) (f : Output.Sketch) : Prop :=
  AwaitsEnd k.session (pending k f) ∧ (numbers (pending k f) = [] → f.session.isSome) ∨
    numbers (pending k f) = [] ∧ f.Fades

theorem agrees_fading (hs : k.state.isFading) : Agrees k f ↔ Ending k f := by
  cases hst : k.state <;> simp [hst, State.isFading] at hs <;> simp [Agrees, Ending, hst]

theorem agrees_stopped (hs : k.state = .stopped) :
    Agrees k f ↔ numbers (pending k f) = [] ∧ f.Silent := by
  simp [Agrees, hs]

theorem agrees_starting (hs : k.state = .starting) :
    Agrees k f ↔ numbers (pending k f) ≠ [] ∨ f.Starts := by
  simp [Agrees, hs]

theorem agrees_playing (hs : k.state = .playing) :
    Agrees k f ↔ numbers (pending k f) = [] ∧ f.Runs true := by
  simp [Agrees, hs]

theorem agrees_paused (hs : k.state = .paused) :
    Agrees k f ↔ numbers (pending k f) = [] ∧ f.Runs false := by
  simp [Agrees, hs]

/-- A player that has not stopped has a session as soon as no start is on its way. -/
theorem Agrees.session_isSome (h : Agrees k f) (hs : k.state ≠ .stopped)
    (hn : numbers (pending k f) = []) : f.session.isSome := by
  have of_some : ∀ {z}, f.session = some z → f.session.isSome := fun hz => by simp [hz]
  cases hst : k.state with
  | stopped => exact absurd hst hs
  | starting =>
    obtain ⟨z, hz, -⟩ := ((agrees_starting hst).1 h).resolve_left fun hne => hne hn
    exact of_some hz
  | playing =>
    obtain ⟨-, z, r, hz, -⟩ := (agrees_playing hst).1 h
    exact of_some hz
  | paused =>
    obtain ⟨-, z, r, hz, -⟩ := (agrees_paused hst).1 h
    exact of_some hz
  | fadingToStop | fadingTo =>
    rcases (agrees_fading (by simp [hst, State.isFading])).1 h with ⟨-, hz⟩ | ⟨-, z, hz, -⟩
    · exact hz hn
    · exact of_some hz

/-- A request that starts nothing changes nothing. -/
theorem Agrees.more {news : List Request} (h : Agrees k f) (hs : k'.state = k.state)
    (hid : k'.session = k.session) (hp : pending k' f = pending k f ++ news)
    (hn : numbers news = []) : Agrees k' f := by
  unfold Agrees at h ⊢
  rw [hs, hid, hp, numbers_append, hn, List.append_nil]
  split <;> simp only [*] at h ⊢
  all_goals first | exact h | exact h.imp (And.imp_left fun ha => ha.append hn) id

/-- A session that has just been asked for is being started. -/
theorem agrees_begin (ht : f.taken ≤ k.sent.length) (p : Playlist) (t : Nat) :
    Agrees (k.begin p t) f := by
  refine (agrees_starting rfl).2 (.inl ?_)
  have : pending (k.begin p t) f = pending k f ++ [.start (k.session + 1) t k.pendingSeek] :=
    List.drop_append_of_le_length ht
  simp [this, numbers_cons_of_some (r := .start (k.session + 1) t k.pendingSeek) rfl]

/-! ### What keeps it -/

theorem Agrees.ordered {cmd : Command} (h : Agrees k f) (ht : f.taken ≤ k.sent.length)
    (hk : k.Ordered cmd k') (ho : k'.closed = false) : Agrees k' f := by
  have ends : ∀ {s : State} {r : Request}, s.isFading → r.Ends k.session →
      k.state ≠ .stopped → Agrees ({ k with state := s }.ask r) f := by
    intro s r hs hr hst
    refine (agrees_fading hs).2 (.inl ?_)
    rw [pending_ask (k := { k with state := s }) ht]
    refine ⟨.last hr, fun hn => h.session_isSome hst ?_⟩
    rw [numbers_append, List.append_eq_nil_iff] at hn
    exact hn.1
  cases hk with
  | begin => exact agrees_begin ht _ _
  | fade hs hc =>
    refine ends ?_ rfl fun he => by simp [he, State.isRunning] at hs
    rcases hc with ⟨-, rfl⟩ | ⟨-, rfl⟩ | ⟨-, rfl⟩ | ⟨-, rfl⟩ <;> rfl
  | cut hc =>
    refine ends ?_ rfl fun he => ?_
    · rcases hc with ⟨-, -, rfl⟩ | ⟨-, ⟨-, rfl⟩ | ⟨-, rfl⟩⟩ <;> rfl
    · rcases hc with ⟨hs, -⟩ | ⟨hs, -⟩ <;> simp [he, State.isFading] at hs
  | turn hs =>
    refine (agrees_fading rfl).2 ?_
    exact (agrees_fading hs).1 h
  | suspend | resume | halt | seek | tempo => exact h.more rfl rfl (pending_ask ht _) rfl
  | shutdown => simp [Control.Sketch.ask] at ho
  | step | remember | ignored => exact h

/-- The control side hears of its session. -/
theorem Agrees.heard {n : Notice} (h : Agrees k f) (hb : f.Busy) (hmail : Mail k f)
    (hp : f.phase = .reporting n) (hn : n.session = k.session) (hk : k.Heard n.event k')
    (hf : Turn w .acknowledgement f f') : Agrees k' f' := by
  obtain ⟨z, hs, hid, hfits⟩ := hb.reporting n hp
  have hnum : numbers (pending k f) = [] := (hmail.current_iff hs).1 (hid.trans hn)
  have htaken : f'.taken = f.taken := hf.taken_eq
  have ht : f'.taken ≤ k.sent.length := by rw [htaken]; exact hmail.taken
  have hnum' : numbers (pending k f') = [] := by rw [pending, htaken]; exact hnum
  have heq := hf.acknowledgement_eq hb hp
  -- what is left when the report was not of the end
  have stays : ∀ {k₁ : Control.Sketch} {r}, n.event ≠ .idle → k₁.sent = k.sent →
      z.stream = some r → k₁.state = (if r then .playing else .paused) → Agrees k₁ f' := by
    intro k₁ r he hsent hr hst
    rw [if_neg he] at heq
    have hruns : f'.Runs r := by subst heq; exact ⟨z, r, hs, hr, .inr (.inr (.inr rfl))⟩
    have hnum₁ : numbers (pending k₁ f') = [] := by rw [pending, hsent]; exact hnum'
    cases r with
    | true => exact (agrees_playing hst).2 ⟨hnum₁, hruns⟩
    | false => exact (agrees_paused hst).2 ⟨hnum₁, hruns⟩
  have silent : (z.stream = none ∨ n.event = .idle) → f'.Silent := by
    intro hor
    subst heq
    refine ⟨by simp, fun z' hz' => ?_⟩
    by_cases he : n.event = .idle
    · simp [he] at hz'
    · rw [if_neg he] at hz'
      have hz' : f.session = some z' := hz'
      rw [hs] at hz'
      cases hz'
      exact hor.resolve_right he
  generalize he : n.event = e at hk hfits
  cases hk with
  | next | arrive | skip => exact agrees_begin ht _ _
  | play | pause => exact stays (by simp [he]) rfl hfits rfl
  | finish => exact (agrees_stopped rfl).2 ⟨hnum', silent (.inr he)⟩
  | giveUp => exact (agrees_stopped rfl).2 ⟨hnum', silent (.inl hfits)⟩
  | mark hst =>
    have hend := (agrees_fading hst).1 h
    rw [if_neg (by simp [he])] at heq
    subst heq
    exact (agrees_fading hst).2 hend
  | ignored hst =>
    rcases hst with hst | ⟨hst, hev⟩ | ⟨rfl, hst⟩
    · have hsil := ((agrees_stopped hst).1 h).2
      exact (agrees_stopped hst).2 ⟨hnum', silent (.inl (hsil.unheard z hs))⟩
    · have hend := (agrees_fading hst).1 h
      rw [if_neg (by rcases hev with rfl | rfl <;> simp [he])] at heq
      subst heq
      exact (agrees_fading hst).2 hend
    · have no_stream : ∀ running, f.Runs running → False := by
        rintro running ⟨z', r, hs', hr, -⟩
        rw [hs] at hs'
        cases hs'
        cases hfits.symm.trans hr
      rcases hst with hst | hst
      · exact (no_stream _ ((agrees_playing hst).1 h).2).elim
      · exact (no_stream _ ((agrees_paused hst).1 h).2).elim

/-- The control side means a session that is still on its way. -/
theorem Agrees.overheard {n : Notice} (h : Agrees k f) (hb : f.Busy) (hmail : Mail k f)
    (hp : f.phase = .reporting n) (hn : n.session ≠ k.session)
    (hf : Turn w .acknowledgement f f') : Agrees k f' := by
  obtain ⟨z, hs, hid, -⟩ := hb.reporting n hp
  have hnum : numbers (pending k f) ≠ [] := fun he => hn (hid ▸ (hmail.current_iff hs).2 he)
  have hpend : pending k f' = pending k f := by rw [pending, hf.taken_eq]; rfl
  cases hst : k.state with
  | stopped => exact absurd ((agrees_stopped hst).1 h).1 hnum
  | playing => exact absurd ((agrees_playing hst).1 h).1 hnum
  | paused => exact absurd ((agrees_paused hst).1 h).1 hnum
  | starting => exact (agrees_starting hst).2 (.inl (hpend ▸ hnum))
  | fadingToStop | fadingTo =>
    have hs : k.state.isFading := by simp [hst, State.isFading]
    have hend := ((agrees_fading hs).1 h).resolve_right fun he => hnum he.1
    exact (agrees_fading hs).2 (.inl (hpend ▸ ⟨hend.1, fun he => absurd he hnum⟩))

/-- What starts no session and ends none keeps it, if a fade that was on its way still is or has
become one. -/
theorem Agrees.turn {idle : List Nat} {taken : Nat} (h : Agrees k f) (hb : f.Busy)
    (hf : Turn w c { f with idle, taken } f') (hn : c.number? = none) (ha : c ≠ .acknowledgement)
    (hshut : ∀ tracks, c ≠ .request tracks .shutdown)
    (hr : c.isRequest ∨ c.isIdle → f.phase = .ready)
    (hnum : numbers (pending k f') = numbers (pending k f))
    (hend : AwaitsEnd k.session (pending k f) → AwaitsEnd k.session (pending k f') ∨
      numbers (pending k f') = [] ∧ (f.session.isSome → f'.Fades)) : Agrees k f' := by
  have hb' : Output.Sketch.Busy { f with idle, taken } := ⟨hb.waiting, hb.reporting, hb.closed⟩
  have keeps : f.session.isSome → f'.session.isSome := by
    intro hs
    cases hf with
    | ended => exact absurd rfl ha
    | shutdown => exact absurd rfl (hshut _)
    | _ => first | rfl | exact hs
  have runs : ∀ {running}, numbers (pending k f) = [] ∧ f.Runs running →
      numbers (pending k f') = [] ∧ f'.Runs running := by
    rintro running ⟨hnil, hruns⟩
    have hruns' : Output.Sketch.Runs { f with idle, taken } running := hruns
    obtain ⟨z, r, hs, -⟩ := hruns
    exact ⟨hnum.trans hnil, hruns'.turn hb' hf hn ha hr (keeps (by simp [hs]))⟩
  cases hst : k.state with
  | stopped =>
    obtain ⟨hnil, hsil⟩ := (agrees_stopped hst).1 h
    have hsil' : Output.Sketch.Silent { f with idle, taken } := ⟨hsil.still, hsil.unheard⟩
    exact (agrees_stopped hst).2 ⟨hnum.trans hnil, hsil'.turn hf hn⟩
  | playing => exact (agrees_playing hst).2 (runs ((agrees_playing hst).1 h))
  | paused => exact (agrees_paused hst).2 (runs ((agrees_paused hst).1 h))
  | starting =>
    refine (agrees_starting hst).2 (((agrees_starting hst).1 h).imp (fun hne => hnum ▸ hne) ?_)
    intro hstarts
    have hstarts' : Output.Sketch.Starts { f with idle, taken } := hstarts
    exact hstarts'.turn hf ha hr
  | fadingToStop | fadingTo =>
    have hs : k.state.isFading := by simp [hst, State.isFading]
    refine (agrees_fading hs).2 ?_
    rcases (agrees_fading hs).1 h with ⟨hawaits, hsome⟩ | ⟨hnil, hfades⟩
    · have hsome' : numbers (pending k f') = [] → f'.session.isSome := fun hnil =>
        keeps (hsome (hnum ▸ hnil))
      rcases hend hawaits with hawaits' | ⟨hnil, hfades⟩
      · exact .inl ⟨hawaits', hsome'⟩
      · exact .inr ⟨hnil, hfades (hsome (hnum ▸ hnil))⟩
    · have hfades' : Output.Sketch.Fades { f with idle, taken } := hfades
      obtain ⟨z, hs, -⟩ := hfades
      exact .inr ⟨hnum.trans hnil, hfades'.turn hb' hf hn (keeps (by simp [hs]))⟩

/-- The output side takes a request. -/
theorem Agrees.request {r : Request} (h : Agrees k f) (hshows : f.Shows) (hmail : Mail k f)
    (hready : f.phase = .ready) (ho : k.closed = false) (hp : pending k f = r :: pending k f')
    (hf : Turn w (.request k.playlist r) { f with taken := f.taken + 1 } f') : Agrees k f' := by
  cases hr : r.number? with
  | none =>
    have hnum : numbers (pending k f') = numbers (pending k f) := by
      rw [hp, numbers_cons_of_none hr]
    refine h.turn (.ready hready) hf hr (by simp) ?_ (fun _ => hready) hnum fun hend => ?_
    · rintro tracks he
      cases he
      exact absurd rfl (hmail.ne_shutdown ho hp)
    · rcases (hp ▸ hend).of_cons with ⟨hends, hnil⟩ | hend
      · refine .inr ⟨hnil, fun hsome => ?_⟩
        obtain ⟨z, hz⟩ := Option.isSome_iff_exists.1 hsome
        have hid := (hmail.current_iff hz).2 (hnum ▸ hnil)
        have hshows' : Output.Sketch.Shows { f with taken := f.taken + 1 } :=
          ⟨hshows.shown, hshows.hidden⟩
        exact hf.fades (hid ▸ hends) hz hshows'
      · exact .inl hend
  | some id =>
    have hnum : numbers (pending k f) ≠ [] := by simp [hp, numbers_cons_of_some hr]
    have hstarts := hf.starts hr
    cases hst : k.state with
    | stopped => exact absurd ((agrees_stopped hst).1 h).1 hnum
    | playing => exact absurd ((agrees_playing hst).1 h).1 hnum
    | paused => exact absurd ((agrees_paused hst).1 h).1 hnum
    | starting => exact (agrees_starting hst).2 (.inr hstarts)
    | fadingToStop | fadingTo =>
      have hs : k.state.isFading := by simp [hst, State.isFading]
      have hend := ((agrees_fading hs).1 h).resolve_right fun he => hnum he.1
      obtain ⟨z, hz, -⟩ := hstarts
      refine (agrees_fading hs).2 (.inl ⟨?_, fun _ => by simp [hz]⟩)
      refine (hp ▸ hend.1).of_cons.resolve_left fun he => ?_
      simp [he.1.number?_eq] at hr

/-- The control side and the output side agree as long as the control side has not ended. -/
theorem Agrees.shift (h : k.closed = false → Agrees k f) (horder : f.Orderly) (hmail : Mail k f)
    (hm : Shift w m k f k' f') (ho : k'.closed = false) : Agrees k' f' := by
  -- what is no request and no notice
  have inner : ∀ {c idle}, k.closed = false → Turn w c { f with idle } f' → c ≠ .acknowledgement →
      c.isRequest = false → (c.isIdle → f.phase = .ready) → Agrees k f' := by
    intro c idle hcl hf ha hq hi
    have hpend : pending k f' = pending k f := by rw [pending, hf.taken_eq]; rfl
    refine (h hcl).turn horder.busy hf (Cause.number?_eq_none hq) ha ?_ (by simpa [hq] using hi)
      (by rw [hpend]) fun hend => .inl (hpend ▸ hend)
    rintro tracks rfl
    cases hq
  cases hm with
  | give => exact h ho
  | command hcl hk => exact (h hcl).ordered hmail.taken hk ho
  | @notice n _ _ _ _ hcl hp hk hk' hf =>
    by_cases hn : n.session = k.session
    · exact (h hcl).heard horder.busy hmail hp hn (hk hn) hf
    · rw [hk' hn]
      exact (h hcl).overheard horder.busy hmail hp hn hf
  | giveUp hcl => simp [hcl] at ho
  | request hp hr hf =>
    have hpend := pending_cons hr hf.taken_eq
    exact (h ho).request horder.shows hmail hp ho hpend hf
  | idle hp _ hf => exact inner ho hf (by simp) rfl fun _ => hp
  | proceed hf | render hf | produce hf => exact inner ho hf (by simp) rfl (by rintro ⟨⟩)

end Jukebox.Deck
