import Jukebox.Proofs.Deck.Recent

/-!
A stop that is overtaken. A paused player that is stopped sends the stop and stays paused until the
idle report comes. When the track was asked to play on before, the answer comes first: the idle
report then finds the player playing, and the next track is started.
-/

namespace Jukebox.Deck

open Output.Sketch (Turn)
open Transport (State)

variable {w : World} {m : Move} {c : Cause} {k k' : Control.Sketch} {f f' : Output.Sketch}
  {d d' : Deck}

/-- The player plays or is paused, as soon as what is being reported has been heard. -/
def Leads (k : Control.Sketch) (f : Output.Sketch) (running : Bool) : Prop :=
  f.phase = .ready ∧ k.state = (if running then .playing else .paused) ∨
    f.phase = .reporting ⟨k.session, if running then .active else .suspended⟩ ∧
      (k.state = .playing ∨ k.state = .paused)

/-- The idle report will find the player playing, with a track to follow. -/
structure Overtaken (k : Control.Sketch) (f : Output.Sketch) : Prop where
  closed : k.closed = false
  next : k.playlist.hasNext = true
  session : ∃ z, f.session = some z ∧ z.id = k.session ∧ z.stream.isSome ∧
    (z.fired = true ∨ .stop k.session ∈ pending k f)
  leads : Leads k f true ∧ .suspend k.session ∉ pending k f ∨
    Leads k f false ∧ .resume k.session ∈ pending k f ∧
      NoneAfter (.resume k.session) (.suspend k.session) (pending k f)

/-- A stop that comes after a request to play on is overtaken by the answer. -/
theorem overtaken_of_stop (hs : Sound k f) (hrecent : Recent k f) (ho : k.closed = false)
    (hst : k.state = .paused) (hnext : k.playlist.hasNext) (hor : AwaitsActive k f)
    (hk : k.Ordered .stop k') : Overtaken k' f := by
  obtain rfl : k' = k.ask (.stop k.session) := by
    cases hk with
    | halt => rfl
    | fade hr => simp [hst, State.isRunning] at hr
    | cut hc => simp [hst, State.isFading] at hc
    | ignored hstop => simp [hst] at hstop
    | suspend _ hc | resume _ hc | step _ hc => simp at hc
  obtain ⟨hnum, z, r, hz, hr, -⟩ := (agrees_paused hst).1 (hs.agrees ho)
  have hid : z.id = k.session := (hs.mail.current_iff hz).2 hnum
  have hp : pending (k.ask (.stop k.session)) f = pending k f ++ [.stop k.session] :=
    pending_ask hs.mail.taken _
  obtain ⟨hnone, hactive⟩ := hrecent.paused hst
  refine ⟨ho, hnext, ⟨z, hz, hid, by simp [hr], .inr (by rw [hp]; simp [Control.Sketch.ask])⟩, ?_⟩
  show Leads (k.ask _) f true ∧ .suspend k.session ∉ pending (k.ask _) f ∨
    Leads (k.ask _) f false ∧ .resume k.session ∈ pending (k.ask _) f ∧
      NoneAfter (.resume k.session) (.suspend k.session) (pending (k.ask _) f)
  rw [hp]
  have answered : f.phase = .reporting ⟨k.session, .active⟩ →
      Leads (k.ask (.stop k.session)) f true ∧
        .suspend k.session ∉ pending k f ++ [.stop k.session] := by
    intro hph
    refine ⟨.inr ⟨hph, .inr hst⟩, ?_⟩
    simpa using hactive hph
  rcases hor with hph | ⟨hm, hph⟩
  · exact .inl (answered hph)
  · have asked : Leads (k.ask (.stop k.session)) f false →
        Leads (k.ask (.stop k.session)) f false ∧
          .resume k.session ∈ pending k f ++ [.stop k.session] ∧
            NoneAfter (.resume k.session) (.suspend k.session)
              (pending k f ++ [.stop k.session]) :=
      fun hl => ⟨hl, List.mem_append_left _ hm, hnone.append (by simp)⟩
    cases hphase : f.phase with
    | ready => exact .inr (asked (.inl ⟨hphase, hst⟩))
    | closed => simp [hs.orderly.busy.closed hphase] at hz
    | waiting i seek => simp [(hs.orderly.busy.waits hphase hz).1] at hr
    | reporting n =>
      obtain ⟨z', hz', hid', hfits⟩ := hs.orderly.busy.reporting n hphase
      rw [hz] at hz'
      cases hz'
      have hn : n = ⟨k.session, n.event⟩ := by rw [← hid, hid']
      rw [hn] at hphase
      cases he : n.event with
      | active => exact .inl (answered (he ▸ hphase))
      | suspended => exact .inr (asked (.inr ⟨he ▸ hphase, .inr hst⟩))
      | idle => exact absurd (he ▸ hphase) hph
      | failed =>
        rw [he] at hfits
        cases hr.symm.trans hfits

/-- A report of the stream leads where it says. -/
theorem Overtaken.heard {n : Notice} (h : Overtaken k f) (hb : f.Busy) (hp : f.phase = .reporting n)
    (hk : n.session = k.session → k.Heard n.event k') (hf : Turn w .acknowledgement f f') :
    Overtaken k' f' ∧ f'.phase = .ready ∧ pending k' f' = pending k f ∧ k'.sent = k.sent := by
  obtain ⟨hcl, hnext, hsession, hleads⟩ := h
  -- the report is of the stream of this session, and the player hears it
  have heard : ∀ running, Leads k f running →
      k' = { k with state := if running then .playing else .paused } ∧
        f' = { f with phase := .ready } := by
    rintro running (⟨hready, -⟩ | ⟨hp', hst⟩)
    · simp [hp] at hready
    · rw [hp] at hp'
      cases hp'
      have hk := hk rfl
      have heq := hf.acknowledgement_eq hb hp
      cases running with
      | true =>
        refine ⟨?_, heq⟩
        cases hk with
        | play => rfl
        | ignored hno => rcases hst with hst | hst <;> simp [hst, State.isFading] at hno
      | false =>
        refine ⟨?_, heq⟩
        cases hk with
        | pause => rfl
        | ignored hno => rcases hst with hst | hst <;> simp [hst, State.isFading] at hno
  rcases hleads with ⟨hl, hm⟩ | ⟨hl, hm⟩
  · obtain ⟨rfl, rfl⟩ := heard true hl
    exact ⟨⟨hcl, hnext, hsession, .inl ⟨.inl ⟨rfl, rfl⟩, hm⟩⟩, rfl, rfl, rfl⟩
  · obtain ⟨rfl, rfl⟩ := heard false hl
    exact ⟨⟨hcl, hnext, hsession, .inr ⟨.inl ⟨rfl, rfl⟩, hm⟩⟩, rfl, rfl, rfl⟩

theorem Overtaken.state (h : Overtaken k f) : k.state = .playing ∨ k.state = .paused := by
  rcases h.leads with ⟨⟨-, hst⟩ | ⟨-, hst⟩, -⟩ | ⟨⟨-, hst⟩ | ⟨-, hst⟩, -⟩
  · exact .inl hst
  · exact hst
  · exact .inr hst
  · exact hst

/-- A request that is no request to play on and leaves the stream open leaves the rest as it was. -/
theorem Overtaken.aside {r : Request} {z z' : Session} (h : Overtaken k f) (hz : f.session = some z)
    (hready : f.phase = .ready) (hp : pending k f = r :: pending k f') (hready' : f'.phase = .ready)
    (hr : r ≠ .resume k.session) (hz' : f'.session = some z')
    (hopen : z'.id = z.id ∧ z'.stream.isSome)
    (hend : z'.fired = true ∨ z'.fired = z.fired ∧ r ≠ .stop k.session) : Overtaken k f' := by
  obtain ⟨hcl, hnext, ⟨y, hy, hid, -, hstop⟩, hleads⟩ := h
  rw [hz] at hy
  cases hy
  rw [hp] at hleads hstop
  refine ⟨hcl, hnext, ⟨z', hz', hopen.1.trans hid, hopen.2, ?_⟩, ?_⟩
  · rcases hend with hfired | ⟨hfired, hne⟩
    · exact .inl hfired
    · rw [hfired]
      exact hstop.imp id fun hm => (List.mem_cons.1 hm).resolve_left hne.symm
  · have still : ∀ running, Leads k f running → Leads k f' running := by
      rintro running (⟨-, hst⟩ | ⟨hph, -⟩)
      · exact .inl ⟨hready', hst⟩
      · simp [hready] at hph
    rcases hleads with ⟨hl, hm⟩ | ⟨hl, hm, hnone⟩
    · exact .inl ⟨still _ hl, fun hm' => hm (List.mem_cons_of_mem _ hm')⟩
    · exact .inr ⟨still _ hl, (List.mem_cons.1 hm).resolve_left hr.symm, hnone.of_cons⟩

/-- The output side takes a request, and the stop is still overtaken. -/
theorem Overtaken.take {r : Request} (h : Overtaken k f) (hs : Sound k f)
    (hw : ∀ n, w.refuses .play n = false) (hready : f.phase = .ready)
    (hp : pending k f = r :: pending k f')
    (hf : Turn w (.request k.playlist r) { f with taken := f.taken + 1 } f') : Overtaken k f' := by
  have hst := h.state
  obtain ⟨z, hz, hid, ho, hend⟩ := h.session
  have aside : ∀ {z'}, f'.phase = .ready → r ≠ .resume k.session → f'.session = some z' →
      z'.id = z.id ∧ z'.stream.isSome →
      z'.fired = true ∨ z'.fired = z.fired ∧ r ≠ .stop k.session → Overtaken k f' :=
    h.aside hz hready hp
  obtain ⟨hcl, hnext, -, hleads⟩ := h
  have hl : Output.Sketch.live { f with taken := f.taken + 1 } k.session = some z := by
    rw [← hid]
    exact Output.Sketch.live_self (f := { f with taken := f.taken + 1 }) hz
  have hnum : r.number? = none := by
    have := (hs.mail.current_iff hz).1 hid
    rw [hp] at this
    cases hr : r.number? with
    | none => rfl
    | some id => simp [numbers_cons_of_some hr] at this
  have same : ∀ {y}, Output.Sketch.session { f with taken := f.taken + 1 } = some y → z = y :=
    fun hy => Option.some.inj (hz.symm.trans hy)
  have hend' : r ≠ .stop k.session → z.fired = true ∨ .stop k.session ∈ pending k f' := by
    intro hstop
    rw [hp] at hend
    exact hend.imp id fun hm => (List.mem_cons.1 hm).resolve_left hstop.symm
  rw [hp] at hleads
  cases hf with
  | empty | load => simp [Request.number?] at hnum
  | shutdown => exact absurd rfl (hs.mail.ne_shutdown hcl hp)
  | suspendNone | suspendRefused | fadeNone | fade | seek | tempo =>
    exact aside hready (by simp) hz ⟨rfl, ho⟩ (.inr ⟨rfl, by simp⟩)
  | resumeRefused hr => simp [hw] at hr
  | stopNone hn =>
    refine aside hready (by simp) hz ⟨rfl, ho⟩ (.inr ⟨rfl, ?_⟩)
    rintro he
    cases he
    rw [hl] at hn
    cases hn
  | resumeNone hn =>
    refine aside hready ?_ hz ⟨rfl, ho⟩ (.inr ⟨rfl, by simp⟩)
    rintro he
    cases he
    rw [hl] at hn
    simp [show z.stream = none from hn] at ho
  | stop hz' ho' =>
    obtain rfl := same hz'
    exact aside hready (by simp) rfl ⟨rfl, by simpa [ho'] using ho⟩ (.inl rfl)
  | cut hz' =>
    obtain rfl := same hz'
    exact aside hready (by simp) rfl ⟨rfl, ho⟩ (.inl rfl)
  | suspend hz' =>
    obtain rfl := same hz'
    rw [hid] at hleads
    refine ⟨hcl, hnext, ⟨_, rfl, hid, rfl, hend' (by simp)⟩, .inr ⟨.inr ⟨by simp [hid], hst⟩, ?_⟩⟩
    rcases hleads with ⟨-, hm⟩ | ⟨-, hm, hnone⟩
    · simp at hm
    · exact ⟨(List.mem_cons.1 hm).resolve_left (by simp), hnone.of_cons⟩
  | resume hz' =>
    obtain rfl := same hz'
    rw [hid] at hleads
    refine ⟨hcl, hnext, ⟨_, rfl, hid, rfl, hend' (by simp)⟩, .inl ⟨.inr ⟨by simp [hid], hst⟩, ?_⟩⟩
    rcases hleads with ⟨-, hm⟩ | ⟨-, -, hnone⟩
    · exact fun hm' => hm (List.mem_cons_of_mem _ hm')
    · exact fun hm' => List.rel_of_pairwise_cons hnone hm' rfl rfl

/-- What is being reported can be heard at once. -/
theorem Overtaken.hears (h : Overtaken d.control.sketch d.output.sketch)
    (hs : Sound d.control.sketch d.output.sketch) :
    ∃ d', Becomes w d d' ∧ Overtaken d'.control.sketch d'.output.sketch ∧
      Sound d'.control.sketch d'.output.sketch ∧ d'.output.phase = .ready ∧
      pending d'.control.sketch d'.output.sketch = pending d.control.sketch d.output.sketch ∧
      d'.control.sent = d.control.sent := by
  cases hp : d.output.phase with
  | reporting n =>
    obtain ⟨d', hd', hk, hf⟩ := takeNotice_possible (w := w) hp h.closed
    obtain ⟨hover, hready, hpend, hsent⟩ := h.heard hs.orderly.busy hp hk hf
    exact ⟨d', .step hd' (by simp) .refl, hover, hs.shift (step_shift hd'), hready, hpend, hsent⟩
  | ready => exact ⟨d, .refl, h, hs, hp, rfl, rfl⟩
  | waiting | closed =>
    rcases h.leads with ⟨⟨hp', -⟩ | ⟨hp', -⟩, -⟩ | ⟨⟨hp', -⟩ | ⟨hp', -⟩, -⟩ <;>
      simp [Output.sketch, hp] at hp'

/-- All requests on their way can be taken. -/
theorem Overtaken.drains (hw : ∀ n, w.refuses .play n = false) {rs : List Request} {d : Deck}
    (h : Overtaken d.control.sketch d.output.sketch) (hs : Sound d.control.sketch d.output.sketch)
    (hrs : pending d.control.sketch d.output.sketch = rs) :
    ∃ d', Becomes w d d' ∧ Overtaken d'.control.sketch d'.output.sketch ∧
      Sound d'.control.sketch d'.output.sketch ∧ d'.output.phase = .ready ∧
      pending d'.control.sketch d'.output.sketch = [] ∧ d'.control.sent = d.control.sent := by
  induction rs generalizing d with
  | nil =>
    obtain ⟨d', hd', hover, hs', hready, hpend, hsent⟩ := h.hears (w := w) hs
    exact ⟨d', hd', hover, hs', hready, hpend.trans hrs, hsent⟩
  | cons r rs ih =>
    obtain ⟨d₁, hd₁, hover₁, hs₁, hready₁, hpend₁, hsent₁⟩ := h.hears (w := w) hs
    rw [hrs] at hpend₁
    have hr : d₁.control.sent[d₁.output.taken]? = some r := by
      have := congrArg List.head? hpend₁
      rwa [pending, List.head?_drop] at this
    obtain ⟨d₂, hd₂, hk₂, hf₂⟩ := takeRequest_possible (w := w) hready₁ hr
    have hpend₂ := pending_cons (k := d₁.control.sketch) (f := d₁.output.sketch) hr hf₂.taken_eq
    have hover₂ := hover₁.take hs₁ hw hready₁ hpend₂ hf₂
    rw [hpend₁] at hpend₂
    rw [← hk₂] at hover₂ hpend₂
    obtain ⟨d', hd', hover, hs', hready, hpend, hsent⟩ :=
      ih hover₂ (hs₁.shift (step_shift hd₂)) (List.cons.inj hpend₂).2.symm
    refine ⟨d', hd₁.trans (.step hd₂ (by simp) hd'), hover, hs', hready, hpend, ?_⟩
    rw [hsent, hk₂, hsent₁]

/-- An idle signal of the running session that is in the queue is reported in the end. -/
theorem rings {z : Session} {idle : List Nat} {d : Deck} (hready : d.output.phase = .ready)
    (hz : d.output.session = some z) (hr : z.reported = false) (hidle : d.output.idle = idle)
    (hm : z.id ∈ idle) : ∃ d', Becomes w d d' ∧ d'.control = d.control ∧
      d'.output.phase = .reporting ⟨z.id, .idle⟩ := by
  induction idle generalizing d with
  | nil => cases hm
  | cons id idle ih =>
    obtain ⟨d₁, hd₁, hk₁, hf₁⟩ := takeIdle_possible (w := w) hready hidle
    generalize hsk : d₁.output.sketch = f₁ at hf₁
    cases hf₁ with
    | idleNone hn =>
      have hid : z.id ≠ id := by
        rintro rfl
        have := hn z (Output.Sketch.live_self (f := { d.output.sketch with idle }) hz)
        simp [hr] at this
      obtain ⟨d', hd', hk, hp⟩ := ih ((congrArg (·.phase) hsk).trans hready)
        ((congrArg (·.session) hsk).trans hz) (congrArg (·.idle) hsk)
        ((List.mem_cons.1 hm).resolve_left hid)
      exact ⟨d', .step hd₁ (by simp) hd', hk.trans hk₁, hp⟩
    | idle hz' =>
      rw [show d.output.sketch.session = _ from hz] at hz'
      cases hz'
      exact ⟨d₁, .step hd₁ (by simp) .refl, hk₁, congrArg (·.phase) hsk⟩

/-- The next track is started. -/
theorem Overtaken.starts (h : Overtaken d.control.sketch d.output.sketch)
    (hs : Sound d.control.sketch d.output.sketch) (hw : ∀ n, w.refuses .play n = false) :
    ∃ d' id, Becomes w d d' ∧ numbers d'.control.sent = numbers d.control.sent ++ [id] := by
  obtain ⟨d₁, hd₁, hover, hs₁, hready, hpend, hsent⟩ := h.drains hw hs rfl
  obtain ⟨z, hz, hid, -, hend⟩ := hover.session
  have hfired : z.fired = true := hend.resolve_right (by simp [hpend])
  have hst : d₁.control.sketch.state = .playing := by
    rcases hover.leads with ⟨⟨-, hst⟩ | ⟨hp, -⟩, -⟩ | ⟨-, hm, -⟩
    · exact hst
    · simp [Output.sketch, hready] at hp
    · simp [hpend] at hm
  have hr : z.reported = false := by
    refine hs₁.orderly.signals.not_reported hz ?_
    simp [Output.sketch, hready]
  have hm : z.id ∈ d₁.output.idle :=
    (hs₁.orderly.signals.posted z hz hfired).resolve_left (by simp [hr])
  obtain ⟨d₂, hd₂, hk₂, hp₂⟩ := rings (w := w) hready hz hr rfl hm
  obtain ⟨d₃, hd₃, hk₃, -⟩ := takeNotice_possible (w := w) hp₂ (by rw [hk₂]; exact hover.closed)
  refine ⟨d₃, d₁.control.session + 1, hd₁.trans (hd₂.trans (.step hd₃ (by simp) .refl)), ?_⟩
  rw [hk₂] at hk₃
  have hk₃ := hk₃ hid
  generalize hsk : d₃.control.sketch = k₃ at hk₃
  cases hk₃ with
  | next =>
    have hsent₃ : d₃.control.sent = d₁.control.sent ++ _ := congrArg (·.sent) hsk
    rw [hsent₃, hsent, numbers_append]
    rfl
  | arrive hs => simp [hst] at hs
  | finish _ hn => simp [hover.next, hst, State.isRunning] at hn
  | ignored hs => simp [hst, State.isFading] at hs

end Jukebox.Deck
