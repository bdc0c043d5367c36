import Jukebox.Proofs.Deck.Rest

/-!
What the output side reports. The notices of a run are told from its decks alone: a step reports
what was not being reported before. They come in the order of the sessions, and each session keeps to
one order of events: it fails, or it becomes active and then is active or suspended any number of
times; either way it may be idle once, and nothing follows. A failure finds the control side on the
session that has failed, and still waiting for it.
-/

namespace Jukebox.Deck

open Output.Sketch (Turn)
open Transport (State)

/-- The notice that is being reported. -/
def Phase.notice? : Phase → Option Notice
  | .reporting n => some n
  | _ => none

/-- The notice that is reported from now on. -/
def Phase.news (p p' : Phase) : Option Notice :=
  if p'.notice? = p.notice? then none else p'.notice?

/-- The notices that are reported in a run, oldest first. -/
def notices (w : World) : Deck → List Move → List Notice
  | _, [] => []
  | d, m :: ms => ((d.step w m).map fun d' =>
      (d.output.phase.news d'.output.phase).toList ++ notices w d' ms).getD []

/-- The events that are reported of a session. -/
def eventsOf (id : Nat) (ns : List Notice) : List DeviceEvent :=
  (ns.filter (·.session = id)).map (·.event)

/-- How the events of a session begin: if it has got a stream, it is active and then active or
suspended any number of times; if not, it has failed. -/
def Opening (sounds : Bool) (es : List DeviceEvent) : Prop :=
  if sounds then ∃ rest, es = .active :: rest ∧ ∀ e ∈ rest, e = .active ∨ e = .suspended
  else es = [.failed]

/-- The events of a session: none, or those it begins with, and at most one idle report. -/
def Story (es : List DeviceEvent) : Prop :=
  es = [] ∨ ∃ sounds front, Opening sounds front ∧ (es = front ∨ es = front ++ [.idle])

variable {w : World} {m : Move} {c : Cause} {k k' : Control.Sketch} {f f' : Output.Sketch}
  {ns : List Notice} {n : Notice} {es : List DeviceEvent} {id : Nat} {p p' : Phase}

theorem news_of_same (h : p' = p) : p.news p' = none := by
  rw [h]
  exact if_pos rfl

theorem news_of_none (h : p'.notice? = none) : p.news p' = none := by
  unfold Phase.news
  rw [h]
  split <;> rfl

theorem news_of_reporting (h : p.notice? = none) (h' : p' = .reporting n) : p.news p' = some n := by
  rw [h', Phase.news, h]
  rfl

@[simp] theorem eventsOf_append (id : Nat) (ns ns' : List Notice) :
    eventsOf id (ns ++ ns') = eventsOf id ns ++ eventsOf id ns' := by
  simp [eventsOf]

theorem eventsOf_self (id : Nat) (e : DeviceEvent) : eventsOf id [⟨id, e⟩] = [e] := by
  simp [eventsOf]

theorem eventsOf_other (h : n.session ≠ id) : eventsOf id [n] = [] := by
  simp [eventsOf, h]

theorem eventsOf_eq_nil (h : ∀ n ∈ ns, n.session ≠ id) : eventsOf id ns = [] := by
  simpa [eventsOf] using h

theorem mem_eventsOf {e : DeviceEvent} : e ∈ eventsOf id ns ↔ ⟨id, e⟩ ∈ ns := by
  unfold eventsOf
  rw [List.mem_map]
  constructor
  · rintro ⟨⟨id', e'⟩, hn, rfl⟩
    obtain ⟨hn, hid⟩ := List.mem_filter.1 hn
    rw [← of_decide_eq_true hid]
    exact hn
  · intro hn
    exact ⟨⟨id, e⟩, List.mem_filter.2 ⟨hn, decide_eq_true rfl⟩, rfl⟩

/-! ### The events of one session -/

theorem Opening.story {sounds : Bool} (h : Opening sounds es) : Story es :=
  .inr ⟨sounds, es, h, .inl rfl⟩

theorem Opening.idle {sounds : Bool} (h : Opening sounds es) : Story (es ++ [.idle]) :=
  .inr ⟨sounds, es, h, .inr rfl⟩

/-- A stream goes on. -/
theorem Opening.more {e : DeviceEvent} (h : Opening true es) (he : e = .active ∨ e = .suspended) :
    Opening true (es ++ [e]) := by
  obtain ⟨rest, rfl, hrest⟩ := h
  refine ⟨rest ++ [e], rfl, ?_⟩
  intro e' he'
  rcases List.mem_append.1 he' with he' | he'
  · exact hrest e' he'
  · rw [List.mem_singleton.1 he']
    exact he

/-- What the notices so far say about the running session, and that they are in order. -/
structure Told (ns : List Notice) (f : Output.Sketch) : Prop where
  sorted : ns.Pairwise fun a b => a.session ≤ b.session
  story : ∀ id, Story (eventsOf id ns)
  waiting : ∀ z i seek, f.session = some z → f.phase = .waiting i seek → eventsOf z.id ns = []
  opening : ∀ z, f.session = some z → (∀ i seek, f.phase ≠ .waiting i seek) → z.reported = false →
    Opening z.stream.isSome (eventsOf z.id ns)

namespace Told

/-- The notices do not depend on the mailbox. -/
theorem mail (h : Told ns f) (idle : List Nat) (taken : Nat) :
    Told ns { f with idle, taken } := ⟨h.sorted, h.story, h.waiting, h.opening⟩

theorem lost (h : Told ns f) (hs : f'.session = none) : Told ns f' := by
  refine ⟨h.sorted, h.story, fun z i seek hz => ?_, fun z hz => ?_⟩ <;> simp [hs] at hz

/-- A phase that lasts reports nothing. -/
theorem same (h : Told ns f) (hp : f.phase = p) : Told (ns ++ (p.news f.phase).toList) f := by
  rw [news_of_same hp, Option.toList_none, List.append_nil]
  exact h

theorem quiet (h : Told ns f) (hp : f.phase.notice? = none) :
    Told (ns ++ (p.news f.phase).toList) f := by
  rw [news_of_none hp, Option.toList_none, List.append_nil]
  exact h

theorem told (h : Told (ns ++ [n]) f) (hp : p.notice? = none) (hf : f.phase = .reporting n) :
    Told (ns ++ (p.news f.phase).toList) f := by
  rw [news_of_reporting hp hf]
  exact h

/-- A change of the session that is not reported. -/
theorem update (h : Told ns f) {z z' : Session} (hs : f.session = some z)
    (hs' : f'.session = some z') (hp : f'.phase = f.phase)
    (hz : z'.id = z.id ∧ z'.stream.isSome = z.stream.isSome ∧ z'.reported = z.reported) :
    Told ns f' := by
  obtain ⟨hid, ho, hr⟩ := hz
  refine ⟨h.sorted, h.story, fun y i seek hy hw => ?_, fun y hy hw hy' => ?_⟩
  · cases hs'.symm.trans hy
    rw [hid]
    exact h.waiting z i seek hs (hp ▸ hw)
  · cases hs'.symm.trans hy
    rw [hid, ho]
    exact h.opening z hs (hp ▸ hw) (hr ▸ hy')

/-- A report on the running session. -/
theorem report (h : Told ns f) {z' : Session} {e : DeviceEvent}
    (hle : ∀ n ∈ ns, n.session ≤ id) (hs' : f'.session = some z') (hid' : z'.id = id)
    (hp' : f'.phase = .reporting ⟨id, e⟩) (hstory : Story (eventsOf id ns ++ [e]))
    (hopening : z'.reported = false → Opening z'.stream.isSome (eventsOf id ns ++ [e])) :
    Told (ns ++ [⟨id, e⟩]) f' := by
  refine ⟨?_, fun id' => ?_, fun y i seek hy hw => ?_, fun y hy _ hr => ?_⟩
  · rw [List.pairwise_append]
    refine ⟨h.sorted, List.pairwise_singleton .., ?_⟩
    intro a ha b hb
    rw [List.mem_singleton.1 hb]
    exact hle a ha
  · rw [eventsOf_append]
    by_cases hid : id = id'
    · subst hid
      rw [eventsOf_self]
      exact hstory
    · rw [eventsOf_other hid, List.append_nil]
      exact h.story id'
  · cases hp'.symm.trans hw
  · cases hs'.symm.trans hy
    rw [hid', eventsOf_append, eventsOf_self]
    exact hopening hr

/-- While requests and idle signals are taken, the running session has begun and is not over. -/
theorem ready (h : Told ns f) (hp : f.phase = .ready) {z : Session} (hs : f.session = some z)
    (hr : z.reported = false) : Opening z.stream.isSome (eventsOf z.id ns) := by
  refine h.opening z hs (fun i seek hw => ?_) hr
  cases hp.symm.trans hw

theorem more (h : Told ns f) (hp : f.phase = .ready) {z : Session} (hs : f.session = some z)
    (hr : z.reported = false) (ho : z.stream.isSome = true) {e : DeviceEvent}
    (he : e = .active ∨ e = .suspended) : Opening true (eventsOf z.id ns ++ [e]) := by
  have hopening := h.ready hp hs hr
  rw [ho] at hopening
  exact hopening.more he

/-- A turn that starts no session. -/
theorem other (h : Told ns f) (hb : f.Busy) (ht : Turn w c f f') (hc : c.number? = none)
    (hr : c.isRequest ∨ c.isIdle → f.phase = .ready)
    (hlasts : f.phase = .ready → ∀ z, f.session = some z → z.reported = false)
    (hle : ∀ z, f.session = some z → ∀ n ∈ ns, n.session ≤ z.id) :
    Told (ns ++ (f.phase.news f'.phase).toList) f' := by
  cases ht with
  | empty | load => simp [Cause.number?, Request.number?] at hc
  | suspend hs ho =>
    have hp := hr (.inl rfl)
    have hmore := h.more hp hs (hlasts hp _ hs) ho (.inr rfl)
    exact told (h.report (hle _ hs) rfl rfl rfl hmore.story fun _ => hmore) (by rw [hp]; rfl) rfl
  | resume hs ho =>
    have hp := hr (.inl rfl)
    have hmore := h.more hp hs (hlasts hp _ hs) ho (.inl rfl)
    exact told (h.report (hle _ hs) rfl rfl rfl hmore.story fun _ => hmore) (by rw [hp]; rfl) rfl
  | stop hs ho => exact same (h.update hs rfl rfl ⟨rfl, ho, rfl⟩) rfl
  | cut hs | dry hs => exact same (h.update hs rfl rfl ⟨rfl, rfl, rfl⟩) rfl
  | fade => exact same ⟨h.sorted, h.story, h.waiting, h.opening⟩ rfl
  | shutdown | ended => exact quiet (h.lost rfl) rfl
  | @failed _ z _ _ hp hs =>
    have hfirst : Opening false (eventsOf z.id ns ++ [.failed]) := by
      rw [h.waiting _ _ _ hs hp]
      rfl
    refine told (h.report (hle _ hs) rfl rfl rfl hfirst.story fun _ => ?_) (by rw [hp]; rfl) rfl
    rw [(hb.waits hp hs).1]
    exact hfirst
  | @opened _ z _ _ hp hs =>
    have hfirst : Opening true (eventsOf z.id ns ++ [.active]) := by
      rw [h.waiting _ _ _ hs hp]
      exact ⟨[], rfl, by simp⟩
    exact told (h.report (hle _ hs) rfl rfl rfl hfirst.story fun _ => hfirst) (by rw [hp]; rfl) rfl
  | idle hs =>
    have hp := hr (.inr rfl)
    have hlast := (h.ready hp hs (hlasts hp _ hs)).idle
    refine told (h.report (hle _ hs) rfl rfl rfl hlast ?_) (by rw [hp]; rfl) rfl
    rintro ⟨⟩
  | acknowledged hp =>
    refine quiet ⟨h.sorted, h.story, fun z i seek _ hw => ?_, fun z hz _ => ?_⟩ rfl
    · cases hw
    · exact h.opening z hz (by simp [hp])
  | _ => exact h.same rfl

/-- A turn that starts a session, with a number that no notice has told yet. -/
theorem start (h : Told ns f) (ht : Turn w c f f') (hc : c.number? = some id)
    (hp : f.phase = .ready) (hnew : ∀ n ∈ ns, n.session < id) :
    Told (ns ++ (f.phase.news f'.phase).toList) f' := by
  have hnil : eventsOf id ns = [] := eventsOf_eq_nil fun n hn => Nat.ne_of_lt (hnew n hn)
  cases ht <;> simp [Cause.number?, Request.number?] at hc
  case empty =>
    cases hc
    have hfirst : Opening false (eventsOf id ns ++ [.failed]) := by
      rw [hnil]
      rfl
    have hle : ∀ n ∈ ns, n.session ≤ id := fun n hn => Nat.le_of_lt (hnew n hn)
    exact told (h.report hle rfl rfl rfl hfirst.story fun _ => hfirst) (by rw [hp]; rfl) rfl
  case load =>
    cases hc
    refine quiet ⟨h.sorted, h.story, ?_, ?_⟩ rfl
    · rintro z i seek ⟨rfl⟩ -
      exact hnil
    · rintro z ⟨rfl⟩ hw
      exact absurd rfl (hw _ _)

end Told

/-! ### The notices of a run -/

/-- What is always true of the notices that have been reported. -/
structure Reported (ns : List Notice) (k : Control.Sketch) (f : Output.Sketch) : Prop where
  past : ∀ n ∈ ns, Past k f n.session
  told : Told ns f

theorem news_mem {n : Notice} (h : n ∈ (p.news p').toList) : p' = .reporting n := by
  unfold Phase.news at h
  split at h
  · cases h
  · cases p' <;> simp [Phase.notice?] at h
    rw [h]

theorem Reported.shift (h : Reported ns k f) (hs : Sound k f) (hm : Shift w m k f k' f') :
    Reported (ns ++ (f.phase.news f'.phase).toList) k' f' := by
  have hs' := hs.shift hm
  have hle : ∀ z, f.session = some z → ∀ n ∈ ns, n.session ≤ z.id := by
    intro z hz n hn
    exact (hs.mail.past_iff hz).1 (h.past n hn)
  refine ⟨fun n hn => ?_, ?_⟩
  · rcases List.mem_append.1 hn with hn | hn
    · exact (h.past n hn).shift hs.mail hm
    · obtain ⟨z, hz, hid, -⟩ := hs'.orderly.busy.reporting n (news_mem hn)
      exact (hs'.mail.past_iff hz).2 (Nat.le_of_eq hid.symm)
  · have hbusy := hs.orderly.busy
    have hlasts : f.phase = .ready → ∀ z, f.session = some z → z.reported = false := by
      intro hp z hz
      exact hs.orderly.signals.not_reported hz (by simp [hp])
    cases hm with
    | give | command => exact h.told.same rfl
    | notice _ _ _ _ hf | giveUp _ hf | proceed hf | render hf | produce hf =>
      exact h.told.other hbusy hf rfl (by simp [Cause.isRequest, Cause.isIdle]) hlasts hle
    | @idle _ idle _ _ _ hp _ hf =>
      exact (h.told.mail idle f.taken).other ⟨hbusy.waiting, hbusy.reporting, hbusy.closed⟩ hf rfl
        (fun _ => hp) hlasts hle
    | @request r _ _ _ hp hr hf =>
      cases hnum : r.number? with
      | none =>
        exact (h.told.mail f.idle (f.taken + 1)).other
          ⟨hbusy.waiting, hbusy.reporting, hbusy.closed⟩ hf hnum (fun _ => hp) hlasts hle
      | some id =>
        refine (h.told.mail f.idle (f.taken + 1)).start hf hnum hp fun n hn => ?_
        refine (h.past n hn).before id ?_
        rw [pending_cons hr hf.taken_eq, numbers_cons_of_some hnum]
        exact List.mem_cons_self ..

/-- Over a run, the notices are added. -/
theorem Reported.run {d d' : Deck} {moves : List Move}
    (h : Reported ns d.control.sketch d.output.sketch)
    (hs : Sound d.control.sketch d.output.sketch) (hrun : d.run w moves = some d') :
    Reported (ns ++ notices w d moves) d'.control.sketch d'.output.sketch := by
  induction moves generalizing d ns with
  | nil =>
    cases hrun
    rw [notices, List.append_nil]
    exact h
  | cons m ms ih =>
    obtain ⟨d₁, hm, hrun⟩ := Option.bind_eq_some_iff.1 hrun
    have hnext := ih (h.shift hs (step_shift hm)) (hs.shift (step_shift hm)) hrun
    simp only [notices, hm, Option.map_some, Option.getD_some, ← List.append_assoc]
    exact hnext

/-- A notice of a run is being reported at some time of it. -/
theorem reporting_of_mem {d d' : Deck} {moves : List Move} (hrun : d.run w moves = some d')
    (hn : n ∈ notices w d moves) : ∃ before after d₁, moves = before ++ after ∧
      d.run w before = some d₁ ∧ d₁.output.phase = .reporting n := by
  induction moves generalizing d with
  | nil => cases hn
  | cons m ms ih =>
    obtain ⟨d₁, hm, hrun⟩ := Option.bind_eq_some_iff.1 hrun
    simp only [notices, hm, Option.map_some, Option.getD_some, List.mem_append] at hn
    rcases hn with hn | hn
    · exact ⟨[m], ms, d₁, rfl, by simp [run, hm], news_mem hn⟩
    · obtain ⟨before, after, d₂, rfl, hrun₂, hp⟩ := ih hrun hn
      exact ⟨m :: before, after, d₂, rfl, by simp [run, hm, hrun₂], hp⟩

/-! ### One notice at a time -/

/-- A notice stays until it is acknowledged, and then there is none. -/
theorem Shift.reporting (hm : Shift w m k f k' f') (hp : f.phase = .reporting n) :
    f'.phase = .reporting n ∧ m ≠ .takeNotice ∧ m ≠ .giveUp ∨
      f'.phase = .ready ∧ (m = .takeNotice ∨ m = .giveUp) := by
  cases hm with
  | give | command => exact .inl ⟨hp, nofun, nofun⟩
  | notice _ _ _ _ hf => exact .inr ⟨hf.ready, .inl rfl⟩
  | giveUp _ hf => exact .inr ⟨hf.ready, .inr rfl⟩
  | request hp' | idle hp' => cases hp.symm.trans hp'
  | proceed hf =>
    cases hf with
    | failed hp' | opened hp' => cases hp.symm.trans hp'
  | render hf =>
    refine .inl ⟨?_, nofun, nofun⟩
    cases hf <;> exact hp
  | produce hf =>
    refine .inl ⟨?_, nofun, nofun⟩
    cases hf
    exact hp

/-! ### Failures -/

/-- A start is being handled that has not succeeded. -/
def Output.Sketch.Tries (f : Output.Sketch) : Prop :=
  (∃ i seek, f.phase = .waiting i seek) ∨ ∃ id, f.phase = .reporting ⟨id, .failed⟩

/-- As long as a start is on its way, or being handled, the control side waits for it and asks for
no other one. -/
structure Awaited (k : Control.Sketch) (f : Output.Sketch) : Prop where
  state : numbers (pending k f) ≠ [] ∨ f.Tries → k.state = .starting ∨ k.state.isFading
  last : f.Tries → numbers (pending k f) = []
  single : (numbers (pending k f)).length ≤ 1

namespace Awaited

/-- Nothing is awaited. -/
theorem of_nothing (hn : numbers (pending k f) = []) (ht : ¬ f.Tries) : Awaited k f :=
  ⟨fun h => absurd hn (h.resolve_right ht), fun h => absurd h ht, by simp [hn]⟩

/-- A player that neither starts a track nor fades awaits nothing. -/
theorem nothing (h : Awaited k f) (hs : k.state ≠ .starting) (hf : k.state.isFading = false) :
    numbers (pending k f) = [] ∧ ¬ f.Tries := by
  have hno : ¬ (numbers (pending k f) ≠ [] ∨ f.Tries) := fun ha => by
    simpa [hs, hf] using h.state ha
  obtain ⟨hn, ht⟩ := not_or.1 hno
  exact ⟨Classical.not_not.1 hn, ht⟩

theorem begin (ht : f.taken ≤ k.sent.length) (hn : numbers (pending k f) = []) (hf : ¬ f.Tries)
    (p : Playlist) (t : Nat) : Awaited (k.begin p t) f := by
  have hpend : pending (k.begin p t) f =
      pending k f ++ [.start (k.session + 1) t k.pendingSeek] :=
    List.drop_append_of_le_length ht
  refine ⟨fun _ => .inl rfl, fun h => absurd h hf, ?_⟩
  rw [hpend, numbers_append, hn, numbers_cons_of_some rfl]
  simp

/-- A request that starts nothing. -/
theorem ask {s : State} {r : Request} (h : Awaited k f) (ht : f.taken ≤ k.sent.length)
    (hr : r.number? = none) (hs : s = k.state ∨ s.isFading) :
    Awaited ({ k with state := s }.ask r) f := by
  have hpend : numbers (pending ({ k with state := s }.ask r) f) = numbers (pending k f) := by
    rw [pending_ask (k := { k with state := s }) ht, numbers_append, numbers_cons_of_none hr]
    simp [pending]
  refine ⟨fun ha => ?_, ?_, ?_⟩
  · rcases hs with rfl | hs
    · exact h.state (hpend ▸ ha)
    · exact .inr hs
  · rw [hpend]
    exact h.last
  · rw [hpend]
    exact h.single

theorem ordered {cmd : Command} (h : Awaited k f) (ht : f.taken ≤ k.sent.length)
    (hk : k.Ordered cmd k') : Awaited k' f := by
  cases hk with
  | begin hs =>
    obtain ⟨hn, hf⟩ := h.nothing (by rcases hs with hs | hs <;> simp [hs])
      (by rcases hs with hs | hs <;> simp [hs, State.isFading])
    exact begin ht hn hf _ _
  | fade _ hc =>
    refine h.ask ht rfl (.inr ?_)
    rcases hc with ⟨-, rfl⟩ | ⟨-, rfl⟩ | ⟨-, rfl⟩ | ⟨-, rfl⟩ <;> rfl
  | cut hc =>
    refine h.ask ht rfl (.inr ?_)
    rcases hc with ⟨-, -, rfl⟩ | ⟨-, ⟨-, rfl⟩ | ⟨-, rfl⟩⟩ <;> rfl
  | turn => exact ⟨fun _ => .inr rfl, h.last, h.single⟩
  | suspend | resume | halt | seek | tempo => exact h.ask ht rfl (.inl rfl)
  | shutdown =>
    have hask := h.ask (r := .shutdown) ht rfl (.inl rfl)
    exact ⟨hask.state, hask.last, hask.single⟩
  | step | remember | ignored => exact ⟨h.state, h.last, h.single⟩

/-- An acknowledgement of the session that the control side means leaves nothing to wait for but
what is asked for then. -/
theorem heard {e : DeviceEvent} (ht : f'.taken ≤ k.sent.length)
    (hn : numbers (pending k f') = []) (hf : ¬ f'.Tries) (hk : k.Heard e k') : Awaited k' f' := by
  cases hk with
  | next | arrive | skip => exact begin ht hn hf _ _
  | play | pause | finish | giveUp | mark | ignored => exact of_nothing hn hf

end Awaited

/-- What handles no start does not try one. -/
theorem Output.Sketch.Turn.tries (ht : Turn w c f f') (hc : c.number? = none) (h : f'.Tries) :
    f.Tries := by
  cases ht with
  | empty | load => simp [Cause.number?, Request.number?] at hc
  | failed hp => exact .inl ⟨_, _, hp⟩
  | suspend | resume | shutdown | opened | idle | acknowledged | ended =>
    simp [Tries] at h
  | _ => exact h

theorem Awaited.shift (h : Awaited k f) (hs : Sound k f) (hm : Shift w m k f k' f') :
    Awaited k' f' := by
  -- what neither starts a session nor is about the control side
  have stays : ∀ {c idle taken}, Turn w c { f with idle, taken } f' → c.number? = none →
      numbers (pending k f') = numbers (pending k f) → Awaited k f' := by
    intro c idle taken hf hc hn
    have htries : f'.Tries → f.Tries := fun ht => hf.tries hc ht
    refine ⟨fun ha => h.state ?_, fun ht => ?_, ?_⟩
    · rw [← hn]
      exact ha.imp_right htries
    · exact hn.trans (h.last (htries ht))
    · rw [hn]
      exact h.single
  have same : ∀ {c idle}, Turn w c { f with idle } f' → pending k f' = pending k f := by
    intro c idle hf
    rw [pending, pending, hf.taken_eq]
  cases hm with
  | give => exact h
  | command _ hk => exact h.ordered hs.mail.taken hk
  | @notice n _ _ _ _ _ hp hk hk' hf =>
    by_cases hn : n.session = k.session
    · obtain ⟨z, hz, hid, -⟩ := hs.orderly.busy.reporting n hp
      refine heard ?_ ?_ ?_ (hk hn)
      · rw [hf.taken_eq]
        exact hs.mail.taken
      · rw [same hf]
        exact (hs.mail.current_iff hz).1 (hid.trans hn)
      · simp [Output.Sketch.Tries, hf.ready]
    · rw [hk' hn]
      exact stays hf rfl (by rw [same hf])
  | giveUp _ hf | proceed hf | render hf | produce hf | idle _ _ hf =>
    exact stays hf rfl (by rw [same hf])
  | @request r _ _ _ hp hr hf =>
    have hpend := pending_cons hr hf.taken_eq
    cases hnum : r.number? with
    | none => exact stays hf hnum (by rw [hpend, numbers_cons_of_none hnum])
    | some id =>
      -- the start that is taken was the only one
      have hall : numbers (pending k f) = id :: numbers (pending k f') := by
        rw [hpend, numbers_cons_of_some hnum]
      have hnil : numbers (pending k f') = [] := by
        have hsingle := h.single
        rw [hall, List.length_cons] at hsingle
        exact List.eq_nil_of_length_eq_zero (by omega)
      exact ⟨fun _ => h.state (.inl (by simp [hall])), fun _ => hnil, by simp [hnil]⟩

theorem Reachable.awaited {fades : Deck.Fades} {playlist : Playlist} {d : Deck}
    (h : Reachable w fades playlist d) : Awaited d.control.sketch d.output.sketch := by
  refine (h.keeps (P := fun k f => Awaited k f ∧ Sound k f) ?_ ?_).1
  · refine ⟨.of_nothing rfl ?_, sound_initial fades playlist⟩
    rintro (⟨i, seek, ⟨⟩⟩ | ⟨id, ⟨⟩⟩)
  · rintro m k f k' f' ⟨hawaited, hs⟩ hm
    exact ⟨hawaited.shift hs hm, hs.shift hm⟩

/-- A failure that the control side waits for marks the track. -/
theorem marks_of_failed {s : State} (hs : s = .starting ∨ s.isFading) (around : Transport.Around) :
    (Transport.transition s .trackFailed around).2.head? = some .markUnplayable := by
  cases s with
  | starting =>
    simp only [Transport.transition, Transport.boundary]
    split <;> rfl
  | fadingToStop | fadingTo => rfl
  | stopped | playing | paused => simp [State.isFading] at hs

/-- A failure is told to a control side that still waits for it. -/
theorem Reachable.hears_failure {fades : Fades} {playlist : Playlist} {d : Deck}
    (h : Reachable w fades playlist d) (hp : d.output.phase = .reporting n)
    (hfailed : n.event = .failed) : n.session = d.control.session ∧
      (d.control.state = .starting ∨ d.control.state.isFading) := by
  have hs := h.sound
  have htries : d.output.sketch.Tries := .inr ⟨n.session, by rw [← hfailed]; exact hp⟩
  obtain ⟨z, hz, hid, -⟩ := hs.orderly.busy.reporting n hp
  have hcurrent : z.id = d.control.session := (hs.mail.current_iff hz).2 (h.awaited.last htries)
  exact ⟨hid.symm.trans hcurrent, h.awaited.state (.inr htries)⟩

/-! ### The notices of every run -/

/-- What a run from the start reports. -/
theorem reported_of_run {fades : Fades} {playlist : Playlist} {moves : List Move} {d : Deck}
    (h : (initial fades playlist).run w moves = some d) :
    Reported (notices w (initial fades playlist) moves) d.control.sketch d.output.sketch := by
  have hstart : Reported [] (initial fades playlist).control.sketch
      (initial fades playlist).output.sketch := by
    refine ⟨nofun, .nil, fun id => .inl rfl, ?_, ?_⟩
    · rintro z i seek ⟨⟩
    · rintro z ⟨⟩
  exact hstart.run (sound_initial fades playlist) h

/-- What is reported as active or suspended is a session with a stream at that time. -/
theorem stream_of_sounding {fades : Fades} {playlist : Playlist} {moves : List Move} {d : Deck}
    (h : (initial fades playlist).run w moves = some d) {e : DeviceEvent}
    (he : e = .active ∨ e = .suspended)
    (hmem : e ∈ eventsOf id (notices w (initial fades playlist) moves)) :
    ∃ before after d₁ z, moves = before ++ after ∧
      (initial fades playlist).run w before = some d₁ ∧ d₁.output.session = some z ∧ z.id = id ∧
      z.stream ≠ none := by
  obtain ⟨before, after, d₁, hmoves, hrun, hp⟩ := reporting_of_mem h (mem_eventsOf.1 hmem)
  have hbusy := (Reachable.sound ⟨before, hrun⟩).orderly.busy
  obtain ⟨z, hz, hid, hfits⟩ := hbusy.reporting _ hp
  refine ⟨before, after, d₁, z, hmoves, hrun, hz, hid, fun hnone => ?_⟩
  rcases he with rfl | rfl <;> exact absurd (hnone.symm.trans hfits) nofun

/-- A machine whose card opens no stream. -/
def World.shut : World := { World.obedient with refuses := fun c _ => c = .open }

/-- A start that fails. -/
def failing : List Move :=
  [.give .play, .takeCommand, .takeRequest, .produce 0 (.write #[1, 2, 3, 4]), .proceed]

/-- The notices of every run come in the order of the sessions, and each session tells one story. A
session whose stream is never open is never reported active or suspended. A notice stays alone until
it is acknowledged; and one of a failure finds the control side on the session that failed, in a state
in which it marks the track. -/
theorem notices_tell_stories {fades : Deck.Fades} {playlist : Playlist} {moves : List Move}
    {d : Deck} (h : (initial fades playlist).run w moves = some d) :
    let ns := notices w (initial fades playlist) moves
    ns.Pairwise (fun a b => a.session ≤ b.session) ∧
      (∀ id, Story (eventsOf id ns)) ∧
      (∀ id, (∀ before after d₁ z, moves = before ++ after →
          (initial fades playlist).run w before = some d₁ → d₁.output.session = some z →
          z.id = id → z.stream = none) →
        .active ∉ eventsOf id ns ∧ .suspended ∉ eventsOf id ns) ∧
      ∀ n, d.notice? = some n →
        (∀ m d', d.step w m = some d' →
          d'.notice? = some n ∧ m ≠ .takeNotice ∧ m ≠ .giveUp ∨
            d'.notice? = none ∧ (m = .takeNotice ∨ m = .giveUp)) ∧
        (n.event = .failed → n.session = d.control.session ∧
          (d.control.state = .starting ∨ d.control.state.isFading) ∧
          (Transport.transition d.control.state .trackFailed d.control.around).2.head? =
            some .markUnplayable) := by
  intro ns
  have hreach : Reachable w fades playlist d := ⟨moves, h⟩
  have htold : Told ns d.output.sketch := (reported_of_run h).told
  refine ⟨htold.sorted, htold.story, fun id hmute => ?_, fun n hn => ?_⟩
  · have hnone : ∀ e : DeviceEvent, e = .active ∨ e = .suspended → e ∉ eventsOf id ns := by
      intro e he hmem
      obtain ⟨before, after, d₁, z, hmoves, hrun, hz, hid, hstream⟩ := stream_of_sounding h he hmem
      exact hstream (hmute before after d₁ z hmoves hrun hz hid)
    exact ⟨hnone _ (.inl rfl), hnone _ (.inr rfl)⟩
  · have hp : d.output.phase = .reporting n := notice?_eq_some.1 hn
    refine ⟨fun m d' hm => ?_, fun hfailed => ?_⟩
    · rcases (step_shift hm).reporting hp with ⟨hp', hne⟩ | ⟨hp', he⟩
      · exact .inl ⟨notice?_eq_some.2 hp', hne⟩
      · exact .inr ⟨notice?_of_ready hp', he⟩
    · obtain ⟨hsession, hstate⟩ := hreach.hears_failure hp hfailed
      exact ⟨hsession, hstate, marks_of_failed hstate _⟩

/-- The failure of the first start is told while the control side waits for it. -/
theorem notices_tell_failure : ∃ d,
    (initial {} pair).run .shut failing = some d ∧ d.notice? = some ⟨1, .failed⟩ ∧
      Story (eventsOf 1 (notices .shut (initial {} pair) failing)) ∧
      d.control.session = 1 ∧ (d.control.state = .starting ∨ d.control.state.isFading) := by
  obtain ⟨d, hrun, hn⟩ : ∃ d, (initial {} pair).run .shut failing = some d ∧
      d.notice? = some ⟨1, .failed⟩ := ⟨_, rfl, rfl⟩
  obtain ⟨-, hstory, -, hnotice⟩ := notices_tell_stories hrun
  obtain ⟨hid, hstate, -⟩ := (hnotice _ hn).2 rfl
  exact ⟨d, hrun, hn, hstory 1, hid.symm, hstate⟩

end Jukebox.Deck
