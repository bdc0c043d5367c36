import Jukebox.Proofs.Deck.Rest

/-!
Who was asked last. A player that is paused or plays is so because of the last answer it has heard;
requests that it has sent since are against nothing it has heard, and so the requests on their way
that agree with its state come after those that do not. What has been asked and not answered is what
a stop has to fear.
-/

namespace Jukebox.Deck

open Output.Sketch (Turn)
open Transport (State)

variable {w : World} {m : Move} {c : Cause} {k k' : Control.Sketch} {f f' : Output.Sketch}
  {d d' : Deck}

/-- The answer that the running session plays is on its way, or will be. -/
def AwaitsActive (k : Control.Sketch) (f : Output.Sketch) : Prop :=
  f.phase = .reporting ⟨k.session, .active⟩ ∨
    .resume k.session ∈ pending k f ∧ f.phase ≠ .reporting ⟨k.session, .idle⟩

/-! ### Where reports come from -/

/-- Where an active report comes from. -/
theorem Output.Sketch.Turn.active {n : Nat} (ht : Turn w c f f')
    (hp : f'.phase = .reporting ⟨n, .active⟩) :
    f.phase = .reporting ⟨n, .active⟩ ∨ (∃ tracks, c = .request tracks (.resume n)) ∨
      ∃ i seek, f.phase = .waiting i seek := by
  cases ht with
  | resume => cases hp; exact .inr (.inl ⟨_, rfl⟩)
  | opened hp' => exact .inr (.inr ⟨_, _, hp'⟩)
  | _ => first | exact .inl hp | cases hp

/-- Where a suspended report comes from. -/
theorem Output.Sketch.Turn.suspended {n : Nat} (ht : Turn w c f f')
    (hp : f'.phase = .reporting ⟨n, .suspended⟩) :
    f.phase = .reporting ⟨n, .suspended⟩ ∨ ∃ tracks, c = .request tracks (.suspend n) := by
  cases ht with
  | suspend => cases hp; exact .inr ⟨_, rfl⟩
  | _ => first | exact .inl hp | cases hp

/-! ### The order of requests -/

/-- Among these requests no `b` comes after an `a`. -/
def NoneAfter (a b : Request) (rs : List Request) : Prop := rs.Pairwise fun x y => x = a → y ≠ b

theorem NoneAfter.append {a b r : Request} {rs : List Request} (h : NoneAfter a b rs) (hr : r ≠ b) :
    NoneAfter a b (rs ++ [r]) := by
  refine List.pairwise_append.2 ⟨h, List.pairwise_singleton .., fun x _ y hy _ => ?_⟩
  rwa [List.mem_singleton.1 hy]

theorem noneAfter_of_not_mem {a b : Request} {rs : List Request} (h : b ∉ rs) :
    NoneAfter a b rs := by
  have hall : rs.Pairwise fun _ _ => True := List.pairwise_of_forall fun _ _ => trivial
  exact hall.imp_of_mem fun _ hy _ _ he => h (he ▸ hy)

theorem noneAfter_of_not_mem_left {a b : Request} {rs : List Request} (h : a ∉ rs) :
    NoneAfter a b rs := by
  have hall : rs.Pairwise fun _ _ => True := List.pairwise_of_forall fun _ _ => trivial
  exact hall.imp_of_mem fun hx _ _ he => (h (he ▸ hx)).elim

/-! ### What was asked last -/

/-- The last requests to pause or to play on are against the state of the player: those that agree
with it were sent before. -/
structure Recent (k : Control.Sketch) (f : Output.Sketch) : Prop where
  known : ∀ id, .suspend id ∈ pending k f ∨ .resume id ∈ pending k f → id ≤ k.session
  starting : k.state = .starting → .resume k.session ∉ pending k f
  playing : k.state = .playing →
    NoneAfter (.suspend k.session) (.resume k.session) (pending k f) ∧
      (f.phase = .reporting ⟨k.session, .suspended⟩ → .resume k.session ∉ pending k f)
  paused : k.state = .paused →
    NoneAfter (.resume k.session) (.suspend k.session) (pending k f) ∧
      (f.phase = .reporting ⟨k.session, .active⟩ → .suspend k.session ∉ pending k f)

/-- In the other states only what is known counts. -/
theorem Recent.of_known
    (hk : ∀ id, .suspend id ∈ pending k f ∨ .resume id ∈ pending k f → id ≤ k.session)
    (hs : k.state = .stopped ∨ k.state.isFading) : Recent k f := by
  refine ⟨hk, fun hst => ?_, fun hst => ?_, fun hst => ?_⟩ <;>
    simp [hst, State.isFading] at hs

/-- One more request about this session that agrees with the state. -/
theorem Recent.ask {r : Request} (h : Recent k f) (ht : f.taken ≤ k.sent.length)
    (hid : ∀ id, r = .suspend id ∨ r = .resume id → id ≤ k.session)
    (hrun : k.state.isRunning → r ≠ .resume k.session)
    (hpaused : k.state = .paused → r ≠ .suspend k.session) : Recent (k.ask r) f := by
  have hp : pending (k.ask r) f = pending k f ++ [r] := pending_ask ht r
  have running : ∀ {s : State}, s.isRunning → k.state = s → r ≠ .resume k.session :=
    fun hs hst => hrun (hst ▸ hs)
  refine ⟨fun id hm => ?_, fun hst hm => ?_, fun hst => ⟨?_, fun hph hm => ?_⟩,
    fun hst => ⟨?_, fun hph hm => ?_⟩⟩
  · simp only [hp, List.mem_append, List.mem_singleton] at hm
    rcases hm with (hm | hm) | hm | hm
    · exact h.known id (.inl hm)
    · exact hid id (.inl hm.symm)
    · exact h.known id (.inr hm)
    · exact hid id (.inr hm.symm)
  · rw [hp, List.mem_append, List.mem_singleton] at hm
    exact hm.elim (h.starting hst) fun he => running rfl hst he.symm
  · rw [hp]
    exact (h.playing hst).1.append (running rfl hst)
  · rw [hp, List.mem_append, List.mem_singleton] at hm
    exact hm.elim ((h.playing hst).2 hph) fun he => running rfl hst he.symm
  · rw [hp]
    exact (h.paused hst).1.append (hpaused hst)
  · rw [hp, List.mem_append, List.mem_singleton] at hm
    exact hm.elim ((h.paused hst).2 hph) fun he => hpaused hst he.symm

/-- Of a new session nothing has been asked yet. -/
theorem Recent.begin (h : Recent k f) (ht : f.taken ≤ k.sent.length) (p : Playlist) (t : Nat) :
    Recent (k.begin p t) f := by
  have hp : pending (k.begin p t) f = pending k f ++ [.start (k.session + 1) t k.pendingSeek] :=
    List.drop_append_of_le_length ht
  have hk : ∀ id, .suspend id ∈ pending (k.begin p t) f ∨ .resume id ∈ pending (k.begin p t) f →
      id ≤ k.session := by
    intro id hm
    simp only [hp, List.mem_append, List.mem_singleton, reduceCtorEq, or_false] at hm
    exact h.known id hm
  refine ⟨fun id hm => Nat.le_succ_of_le (hk id hm), fun _ hm => ?_, ?_, ?_⟩ <;> try rintro ⟨⟩
  have : k.session + 1 ≤ k.session := hk _ (.inr hm)
  omega

theorem Recent.ordered {cmd : Command} (h : Recent k f) (ht : f.taken ≤ k.sent.length)
    (hk : k.Ordered cmd k') : Recent k' f := by
  have fades : ∀ {s : State} {r : Request}, s.isFading →
      (∀ id, r ≠ .suspend id ∧ r ≠ .resume id) → Recent ({ k with state := s }.ask r) f := by
    intro s r hs hr
    refine .of_known (fun id hm => h.known id ?_) (.inr hs)
    rw [pending_ask (k := { k with state := s }) ht] at hm
    simp only [List.mem_append, List.mem_singleton, (hr id).1.symm, (hr id).2.symm,
      or_false] at hm
    exact hm
  cases hk with
  | begin => exact h.begin ht _ _
  | fade hs hc =>
    refine fades ?_ fun _ => ⟨by simp, by simp⟩
    rcases hc with ⟨-, rfl⟩ | ⟨-, rfl⟩ | ⟨-, rfl⟩ | ⟨-, rfl⟩ <;> rfl
  | cut hc =>
    refine fades ?_ fun _ => ⟨by simp, by simp⟩
    rcases hc with ⟨-, -, rfl⟩ | ⟨-, ⟨-, rfl⟩ | ⟨-, rfl⟩⟩ <;> rfl
  | turn => exact .of_known h.known (.inr rfl)
  | suspend hs =>
    refine h.ask ht ?_ (by simp) fun hst => ?_
    · rintro id (he | he) <;> cases he
      exact Nat.le_refl _
    · simp [hst, State.isRunning] at hs
  | resume hs =>
    refine h.ask ht ?_ (fun hst => ?_) (by simp)
    · rintro id (he | he) <;> cases he
      exact Nat.le_refl _
    · simp [hs, State.isRunning] at hst
  | halt | seek | tempo => exact h.ask ht (by simp) (by simp) (by simp)
  | shutdown =>
    have h' : Recent { k with closed := true } f := ⟨h.known, h.starting, h.playing, h.paused⟩
    exact h'.ask ht (by simp) (by simp) (by simp)
  | step hs => exact .of_known h.known (.inl hs)
  | remember hs => exact .of_known h.known (.inl hs)
  | ignored => exact h

theorem Recent.heard {n : Notice} (h : Recent k f) (ht : f.taken ≤ k.sent.length)
    (hp : f.phase = .reporting n) (hn : n.session = k.session) (hk : k.Heard n.event k')
    (hf : f'.phase = .ready ∧ f'.taken = f.taken) : Recent k' f' := by
  obtain ⟨hready, htaken⟩ := hf
  have hpend : pending k f' = pending k f := by rw [pending, htaken]; rfl
  have hevent : f.phase = .reporting ⟨k.session, n.event⟩ := by rw [hp, ← hn]
  have hknown : ∀ id, .suspend id ∈ pending k f' ∨ .resume id ∈ pending k f' → id ≤ k.session :=
    hpend ▸ h.known
  have h' : Recent k f' := by
    refine ⟨hknown, hpend ▸ h.starting, fun hst => ⟨?_, by simp [hready]⟩,
      fun hst => ⟨?_, by simp [hready]⟩⟩
    · rw [hpend]
      exact (h.playing hst).1
    · rw [hpend]
      exact (h.paused hst).1
  generalize n.event = e at hk hevent
  cases hk with
  | next | arrive | skip => exact h'.begin (htaken ▸ ht) _ _
  | finish | giveUp => exact .of_known hknown (.inl rfl)
  | mark hs => exact .of_known hknown (.inr hs)
  | ignored => exact h'
  | play hs =>
    refine ⟨hknown, by simp, fun _ => ⟨?_, by simp [hready]⟩, by simp⟩
    show NoneAfter (.suspend k.session) (.resume k.session) (pending k f')
    rw [hpend]
    cases hst : k.state <;> simp [hst, State.isRunning] at hs
    case starting => exact noneAfter_of_not_mem (h.starting hst)
    case playing => exact (h.playing hst).1
    case paused => exact noneAfter_of_not_mem_left ((h.paused hst).2 hevent)
  | pause hs =>
    refine ⟨hknown, by simp, by simp, fun _ => ⟨?_, by simp [hready]⟩⟩
    show NoneAfter (.resume k.session) (.suspend k.session) (pending k f')
    rw [hpend]
    cases hst : k.state <;> simp [hst, State.isRunning] at hs
    case starting => exact noneAfter_of_not_mem_left (h.starting hst)
    case playing => exact noneAfter_of_not_mem_left ((h.playing hst).2 hevent)
    case paused => exact (h.paused hst).1

/-- The output side takes a request. -/
theorem Recent.request {r : Request} (h : Recent k f) (hready : f.phase = .ready)
    (hp : pending k f = r :: pending k f')
    (hf : Turn w (.request k.playlist r) { f with taken := f.taken + 1 } f') : Recent k f' := by
  have later : ∀ {x}, x ∈ pending k f' → x ∈ pending k f := fun hx => by simp [hp, hx]
  refine ⟨fun id hm => h.known id (hm.imp later later), fun hst hm => h.starting hst (later hm),
    fun hst => ?_, fun hst => ?_⟩
  · have hnone := hp ▸ (h.playing hst).1
    refine ⟨hnone.of_cons, fun hph hm => ?_⟩
    rcases hf.suspended hph with hph | ⟨tracks, he⟩
    · simp [hready] at hph
    · cases he
      exact List.rel_of_pairwise_cons hnone hm rfl rfl
  · have hnone := hp ▸ (h.paused hst).1
    refine ⟨hnone.of_cons, fun hph hm => ?_⟩
    rcases hf.active hph with hph | ⟨tracks, he⟩ | ⟨i, seek, hph⟩
    · simp [hready] at hph
    · cases he
      exact List.rel_of_pairwise_cons hnone hm rfl rfl
    · simp [hready] at hph

/-- The output side goes on by itself, or handles an idle signal. -/
theorem Recent.inner {idle : List Nat} (h : Recent k f) (hf : Turn w c { f with idle } f')
    (hc : c.isRequest = false)
    (hw : k.state = .paused → ∀ i seek, f.phase ≠ .waiting i seek) : Recent k f' := by
  have hpend : pending k f' = pending k f := by rw [pending, hf.taken_eq]; rfl
  refine ⟨hpend ▸ h.known, hpend ▸ h.starting, fun hst => ?_, fun hst => ?_⟩
  · rw [hpend]
    refine ⟨(h.playing hst).1, fun hph => ?_⟩
    rcases hf.suspended hph with hph | ⟨tracks, rfl⟩
    · exact (h.playing hst).2 hph
    · cases hc
  · rw [hpend]
    refine ⟨(h.paused hst).1, fun hph => ?_⟩
    rcases hf.active hph with hph | ⟨tracks, rfl⟩ | ⟨i, seek, hph⟩
    · exact (h.paused hst).2 hph
    · cases hc
    · exact absurd hph (hw hst i seek)

theorem Recent.shift (h : k.closed = false → Recent k f) (hs : Sound k f)
    (hm : Shift w m k f k' f') (ho : k'.closed = false) : Recent k' f' := by
  cases hm with
  | give => exact h ho
  | command hcl hk => exact (h hcl).ordered hs.mail.taken hk
  | @notice n _ _ _ _ hcl hp hk hk' hf =>
    by_cases hn : n.session = k.session
    · exact (h hcl).heard hs.mail.taken hp hn (hk hn) ⟨hf.ready, hf.taken_eq⟩
    · rw [hk' hn]
      exact (h hcl).inner hf rfl (hs.not_waiting hcl)
  | giveUp hcl => simp [hcl] at ho
  | request hp hr hf =>
    have hpend := pending_cons hr hf.taken_eq
    exact (h ho).request hp hpend hf
  | idle _ _ hf => exact (h ho).inner hf rfl (hs.not_waiting ho)
  | proceed hf | render hf | produce hf => exact (h ho).inner hf rfl (hs.not_waiting ho)

theorem Reachable.recent {playlist : Playlist} {fades : Deck.Fades}
    (h : Reachable w fades playlist d) (ho : d.control.closed = false) :
    Recent d.control.sketch d.output.sketch := by
  refine (h.keeps (P := fun k f => (k.closed = false → Recent k f) ∧ Sound k f) ?_ ?_).1 ho
  · have hnil : pending (initial fades playlist).control.sketch
        (initial fades playlist).output.sketch = [] := rfl
    exact ⟨fun _ => .of_known (by simp [hnil]) (.inl rfl), sound_initial fades playlist⟩
  · rintro m k f k' f' ⟨hrecent, hsound⟩ hm
    exact ⟨Recent.shift hrecent hsound hm, hsound.shift hm⟩

end Jukebox.Deck
