import Jukebox.Proofs.Deck.Title

/-!
The books of the control side. Every track that was started is either closed in the ledger, or
replaced and waiting to be closed, or held; each effect of the transport keeps this balance. A
dispatch leaves nothing waiting, and it closes at most one track: the one that was held before.
-/

namespace Jukebox.Deck

open Transport (State)

/-- The track that an entry closes, and its playing time. -/
def Entry.closing? : Entry → Option (Nat × Span)
  | .finished track played => some (track, played)
  | .started _ => none

/-- The tracks that requests start. -/
def startedTracks (rs : List Request) : List Nat := rs.filterMap Request.started?

@[simp] theorem startedTracks_append (rs rs' : List Request) :
    startedTracks (rs ++ rs') = startedTracks rs ++ startedTracks rs' :=
  List.filterMap_append

/-- A request that starts a track starts a session. -/
theorem length_startedTracks (rs : List Request) :
    (startedTracks rs).length = (numbers rs).length := by
  induction rs with
  | nil => rfl
  | cons r rs ih =>
    rw [startedTracks, numbers, List.filterMap_cons, List.filterMap_cons]
    cases r with
    | start id track seek => exact congrArg (· + 1) ih
    | _ => exact ih

namespace Control

/-- The tracks that the ledger closes, each with its playing time, oldest first. -/
def closings (c : Control) : List (Nat × Span) := c.ledger.filterMap Entry.closing?

variable {c c' : Control} {played : Span} {before : List (Nat × Span)}

/-! ### One effect -/

/-- The books while effects are performed: they balance, and what is closed or waiting since then
has this playing time. -/
structure Balanced (played : Span) (before : List (Nat × Span)) (c : Control) : Prop where
  tracks : startedTracks c.sent = c.closings.map (·.1) ++ c.retired.map (·.1) ++ c.held.toList
  closed : ∃ news, c.closings = before ++ news ∧ ∀ e ∈ news, e.2 = played
  waiting : ∀ e ∈ c.retired, e.2 = played

theorem Balanced.congr (h : Balanced played before c)
    (hsent : startedTracks c'.sent = startedTracks c.sent)
    (hbooks : c'.closings = c.closings ∧ c'.retired = c.retired ∧ c'.held = c.held) :
    Balanced played before c' := by
  obtain ⟨hc, hr, hh⟩ := hbooks
  refine ⟨?_, ?_, ?_⟩
  · rw [hsent, hc, hr, hh, h.tracks]
  · rw [hc]
    exact h.closed
  · rw [hr]
    exact h.waiting

/-- A request that starts nothing. -/
theorem Balanced.request (h : Balanced played before c) {r : Request} (hr : r.started? = none) :
    Balanced played before (c.request r) := by
  refine h.congr ?_ ⟨rfl, rfl, rfl⟩
  simp [Control.request, startedTracks, hr]

theorem Balanced.startTrack (h : Balanced played before c) :
    Balanced played before (c.startTrack played) := by
  unfold Control.startTrack
  split
  · exact h.congr rfl ⟨rfl, rfl, rfl⟩
  · next track _ =>
    refine ⟨?_, h.closed, ?_⟩
    · have hretired : (c.held.map fun old => (old, played)).toList.map (·.1) = c.held.toList := by
        cases c.held <;> rfl
      simp only [Control.request, startedTracks_append, h.tracks, List.map_append, hretired]
      simp [closings, startedTracks, Request.started?]
    · intro e he
      rcases List.mem_append.1 he with he | he
      · exact h.waiting e he
      · cases hh : c.held with
        | none => simp [hh] at he
        | some old =>
          simp only [hh, Option.map_some, Option.toList_some, List.mem_singleton] at he
          rw [he]

theorem closings_finished (c : Control) (track : Nat) (played : Span) :
    (c.record (.finished track played)).closings = c.closings ++ [(track, played)] := by
  simp [closings, record, Entry.closing?]

theorem closings_record_all (entries : List (Nat × Span)) (c : Control) :
    (entries.foldl (fun c (track, played) => c.record (.finished track played)) c).closings =
      c.closings ++ entries := by
  induction entries generalizing c with
  | nil => exact (List.append_nil _).symm
  | cons e es ih =>
    rw [List.foldl_cons, ih, closings_finished, List.append_assoc]
    rfl

theorem retired_record_all (entries : List (Nat × Span)) (c : Control) :
    (entries.foldl (fun c (track, played) => c.record (.finished track played)) c).retired =
      c.retired := by
  induction entries generalizing c with
  | nil => rfl
  | cons e es ih => rw [List.foldl_cons, ih]; rfl

theorem retired_releaseTrack (c : Control) (played : Span) :
    (c.releaseTrack played).retired = [] := by
  have hr := retired_record_all c.retired { c with retired := [] }
  unfold releaseTrack
  dsimp only
  split
  · split <;> exact hr
  · exact hr

/-- What was waiting is closed. -/
theorem Balanced.closeRetired (h : Balanced played before c) (hsent : c'.sent = c.sent)
    (hheld : c'.held = c.held) (hclosings : c'.closings = c.closings ++ c.retired)
    (hr : c'.retired = []) : Balanced played before c' := by
  obtain ⟨news, hnews, hplayed⟩ := h.closed
  refine ⟨?_, ⟨news ++ c.retired, ?_, ?_⟩, by simp [hr]⟩
  · simp [hsent, hclosings, hr, hheld, h.tracks]
  · rw [hclosings, hnews, List.append_assoc]
  · intro e he
    exact (List.mem_append.1 he).elim (hplayed e) (h.waiting e)

/-- What is held is closed, as the last one. -/
theorem Balanced.closeHeld (h : Balanced played before c) (hr : c.retired = []) {track : Nat}
    (ht : c.held = some track) :
    Balanced played before ({ c with held := none }.record (.finished track played)) := by
  obtain ⟨news, hnews, hplayed⟩ := h.closed
  have hlast : ({ c with held := none }.record (.finished track played)).closings =
      c.closings ++ [(track, played)] := closings_finished ..
  refine ⟨?_, ⟨news ++ [(track, played)], ?_, ?_⟩, h.waiting⟩
  · have htracks := h.tracks
    rw [hlast]
    simp only [ht, record, hr] at htracks ⊢
    simpa using htracks
  · rw [hlast, hnews, List.append_assoc]
  · intro e he
    rcases List.mem_append.1 he with he | he
    · exact hplayed e he
    · rw [List.mem_singleton.1 he]

theorem Balanced.releaseTrack (h : Balanced played before c) :
    Balanced played before (c.releaseTrack played) := by
  have hk := sketch_record_all c.retired { c with retired := [] }
  have hc := closings_record_all c.retired { c with retired := [] }
  have hr := retired_record_all c.retired { c with retired := [] }
  unfold Control.releaseTrack
  dsimp only
  generalize c.retired.foldl (fun c (track, played) => c.record (.finished track played))
    { c with retired := [] } = c' at hk hc hr ⊢
  have h' : Balanced played before c' :=
    h.closeRetired (congrArg Sketch.sent hk) (congrArg Sketch.held hk) hc hr
  split
  · split
    · exact h'
    · next ht => exact h'.closeHeld hr ht
  · exact h'

/-- Every effect keeps the balance. -/
theorem Balanced.perform (h : Balanced played before c) (e : Transport.Effect) :
    Balanced played before (Control.perform played c e) := by
  cases e with
  | startTrack => exact h.startTrack
  | releaseTrack => exact h.releaseTrack
  | suspendDevice | resumeDevice | stopDevice | fadeOut => exact h.request rfl
  | advance => exact h.congr rfl ⟨rfl, rfl, rfl⟩
  | markUnplayable =>
    rw [Control.perform, markUnplayable]
    split
    · exact h
    · exact h.congr rfl ⟨rfl, rfl, rfl⟩

/-! ### One event -/

/-- Effects that leave no replaced track behind: they start none, or release it in the end, or
there is none because the player was stopped. -/
def Releases (s : State) (es : List Transport.Effect) : Prop :=
  .startTrack ∉ es ∨ (∃ es', es = es' ++ [.releaseTrack]) ∨ s = .stopped ∧ es = [.startTrack]

theorem boundary_releases (s : State) (first : List Transport.Effect)
    (around : Transport.Around) : Releases s (Transport.boundary first around).2 := by
  unfold Transport.boundary
  split
  · exact .inr (.inl ⟨first ++ [.advance .next, .startTrack], by simp⟩)
  · exact .inr (.inl ⟨first, rfl⟩)

theorem arrival_releases (s : State) (target : Transport.Target) (around : Transport.Around) :
    Releases s (Transport.arrival target around).2 := by
  cases target <;> unfold Transport.arrival <;> dsimp only <;> split
  · exact .inr (.inl ⟨[.startTrack], rfl⟩)
  · exact .inr (.inl ⟨[], rfl⟩)
  · exact .inr (.inl ⟨[.advance .next, .startTrack], rfl⟩)
  · exact .inr (.inl ⟨[], rfl⟩)
  · exact .inr (.inl ⟨[.advance .prev, .startTrack], rfl⟩)
  · exact .inr (.inl ⟨[], rfl⟩)

theorem skip_releases (s : State) (d : Transport.Direction) :
    Releases s (Transport.skip s d).2 := by
  refine .inl ?_
  cases s <;> simp [Transport.skip]

/-- No row of the table leaves a replaced track behind. -/
theorem transition_releases (s : State) (e : Transport.Event) (around : Transport.Around) :
    Releases s (Transport.transition s e around).2 := by
  unfold Transport.transition
  split
  all_goals try exact .inl (by simp)
  · split
    · exact .inr (.inr ⟨rfl, rfl⟩)
    · exact .inl (by simp)
  · split
    · exact .inr (.inl ⟨[.startTrack], rfl⟩)
    · exact .inl (by simp)
  · exact skip_releases ..
  · exact skip_releases ..
  · exact boundary_releases ..
  · exact boundary_releases ..
  · exact arrival_releases ..
  · exact boundary_releases ..

theorem Balanced.dispatch (h : Balanced played before c) (e : Transport.Event) :
    Balanced played before (c.dispatch played e) := by
  have hall : ∀ (es : List Transport.Effect) {c : Control}, Balanced played before c →
      Balanced played before (es.foldl (Control.perform played) c) := by
    intro es
    induction es with
    | nil => exact id
    | cons e es ih => exact fun h => ih (h.perform e)
  have hnext : Balanced played before
      { c with state := (Transport.transition c.state e c.around).1 } :=
    h.congr rfl ⟨rfl, rfl, rfl⟩
  have hdone := hall (Transport.transition c.state e c.around).2 hnext
  unfold Control.dispatch publish
  dsimp only
  split
  · exact hdone
  · exact hdone.congr rfl ⟨rfl, rfl, rfl⟩

theorem retired_perform {e : Transport.Effect} (he : e ≠ .startTrack) (hr : c.retired = []) :
    (Control.perform played c e).retired = [] := by
  cases e with
  | startTrack => exact absurd rfl he
  | releaseTrack => exact retired_releaseTrack c played
  | markUnplayable =>
    rw [Control.perform, markUnplayable]
    split <;> exact hr
  | _ => exact hr

theorem retired_foldl {es : List Transport.Effect} (hes : .startTrack ∉ es) {c : Control}
    (hr : c.retired = []) : (es.foldl (Control.perform played) c).retired = [] := by
  induction es generalizing c with
  | nil => exact hr
  | cons e es ih =>
    rw [List.mem_cons, not_or] at hes
    exact ih hes.2 (retired_perform (Ne.symm hes.1) hr)

/-- After a dispatch no replaced track waits to be closed. -/
theorem retired_dispatch (played : Span) (e : Transport.Event) (hr : c.retired = [])
    (hs : c.state = .stopped → c.held = none) : (c.dispatch played e).retired = [] := by
  have hpublish : ∀ (c : Control) (s : State), (c.publish s).retired = c.retired := by
    intro c s
    unfold publish
    split <;> rfl
  unfold Control.dispatch
  dsimp only
  rw [hpublish]
  rcases transition_releases c.state e c.around with hes | ⟨es, hes⟩ | ⟨hst, hes⟩
  · exact retired_foldl hes hr
  · rw [hes, List.foldl_append]
    exact retired_releaseTrack ..
  · rw [hes, List.foldl_cons, List.foldl_nil, Control.perform, Control.startTrack]
    split
    · exact hr
    · simp [Control.request, hr, hs hst]

/-! ### One message -/

/-- The books between two messages: nothing waits to be closed, and nothing is held once the player
has stopped. -/
structure Settled (c : Control) : Prop where
  tracks : startedTracks c.sent = c.closings.map (·.1) ++ c.held.toList
  retired : c.retired = []
  stopped : c.state = .stopped → c.held = none

theorem Settled.balanced (h : Settled c) (played : Span) : Balanced played c.closings c := by
  refine ⟨?_, ⟨[], (List.append_nil _).symm, by simp⟩, by simp [h.retired]⟩
  rw [h.retired, List.map_nil, List.append_nil]
  exact h.tracks

theorem Settled.dispatch (h : Settled c) (played : Span) (e : Transport.Event) :
    Balanced played c.closings (c.dispatch played e) ∧ (c.dispatch played e).retired = [] :=
  ⟨(h.balanced played).dispatch e, retired_dispatch played e h.retired h.stopped⟩

theorem Settled.unchanged (h : Settled c) (played : Span) :
    Balanced played c.closings c ∧ c.retired = [] := ⟨h.balanced played, h.retired⟩

theorem Settled.onCommand (h : Settled c) (played : Span) (cmd : Command) :
    Balanced played c.closings (c.onCommand played cmd) ∧
      (c.onCommand played cmd).retired = [] := by
  cases cmd with
  | play | pause | resume | stop | next | prev => exact h.dispatch played _
  | togglePause =>
    rw [Control.onCommand]
    split
    · exact h.dispatch played _
    · split
      · exact h.dispatch played _
      · exact h.unchanged played
  | seek position =>
    rw [Control.onCommand, seek]
    cases c.state with
    | stopped => exact ⟨(h.balanced played).congr rfl ⟨rfl, rfl, rfl⟩, h.retired⟩
    | playing | paused | starting => exact ⟨(h.balanced played).request rfl, h.retired⟩
    | fadingToStop | fadingTo => exact h.unchanged played
  | setTempo tempo =>
    rw [Control.onCommand, setTempo]
    split
    · have hask := (h.balanced played).request (r := .tempo tempo) rfl
      exact ⟨hask.congr rfl ⟨rfl, rfl, rfl⟩, h.retired⟩
    · exact h.unchanged played
  | subscribe => exact ⟨(h.balanced played).congr rfl ⟨rfl, rfl, rfl⟩, h.retired⟩
  | shutdown =>
    have hask := (h.balanced played).request (r := .shutdown) rfl
    exact ⟨hask.congr rfl ⟨rfl, rfl, rfl⟩, h.retired⟩

theorem Settled.announce (h : Settled c) :
    c.announce.Settled ∧ c.announce.closings = c.closings := by
  have hsame : c.announce.closings = c.closings ∧ c.announce.retired = c.retired := by
    unfold Control.announce
    split
    · exact ⟨rfl, rfl⟩
    · dsimp only
      split
      · exact ⟨rfl, rfl⟩
      · exact ⟨by simp [closings, record, notify, Entry.closing?], rfl⟩
  have hk := sketch_announce (c := c)
  have hsent : c.announce.sent = c.sent := congrArg Sketch.sent hk
  have hheld : c.announce.held = c.held := congrArg Sketch.held hk
  have hstate : c.announce.state = c.state := congrArg Sketch.state hk
  refine ⟨⟨?_, hsame.2.trans h.retired, ?_⟩, hsame.1⟩
  · rw [hsent, hsame.1, hheld, h.tracks]
  · rw [hstate, hheld]
    exact h.stopped

theorem Settled.onNotice (h : Settled c) (played : Span) (n : Notice) :
    Balanced played c.closings (c.onNotice played n) ∧ (c.onNotice played n).retired = [] := by
  unfold Control.onNotice
  split
  · split
    · obtain ⟨hs, hc⟩ := h.announce
      rw [← hc]
      exact hs.dispatch played _
    · exact h.dispatch played _
    · exact h.dispatch played _
    · exact h.dispatch played _
  · exact h.unchanged played

end Control

/-! ### What is closed when -/

namespace Control.Sketch

variable {k k' : Sketch}

theorem startedTracks_ask {r : Request} (hr : r.started? = none) (k : Sketch) :
    startedTracks (k.ask r).sent = startedTracks k.sent := by
  simp [ask, startedTracks, hr]

theorem startedTracks_begin (p : Playlist) (t : Nat) :
    startedTracks (k.begin p t).sent = startedTracks k.sent ++ [t] := by
  simp [begin, startedTracks, Request.started?]

/-- What a command opens and closes: only a start from a stopped or paused player does. -/
theorem Ordered.books {c : Command} (h : k.Ordered c k') :
    (startedTracks k'.sent = startedTracks k.sent ∧ k'.held = k.held ∧
      (k'.state = .stopped → k.state = .stopped)) ∨
      (k.state = .stopped ∨ k.state = .paused) ∧ ∃ p t, k' = k.begin p t := by
  cases h with
  | begin hs => exact .inr ⟨hs, _, _, rfl⟩
  | fade _ hc =>
    refine .inl ⟨startedTracks_ask rfl _, rfl, fun hst => ?_⟩
    rcases hc with ⟨-, rfl⟩ | ⟨-, rfl⟩ | ⟨-, rfl⟩ | ⟨-, rfl⟩ <;> cases hst
  | cut hc =>
    refine .inl ⟨startedTracks_ask rfl _, rfl, fun hst => ?_⟩
    rcases hc with ⟨-, -, rfl⟩ | ⟨-, ⟨-, rfl⟩ | ⟨-, rfl⟩⟩ <;> cases hst
  | turn => exact .inl ⟨rfl, rfl, nofun⟩
  | suspend | resume | halt | seek | tempo => exact .inl ⟨startedTracks_ask rfl _, rfl, id⟩
  | shutdown => exact .inl ⟨startedTracks_ask rfl _, rfl, id⟩
  | step | remember | ignored => exact .inl ⟨rfl, rfl, id⟩

/-- What a report opens and closes. -/
theorem Heard.books {e : DeviceEvent} (h : k.Heard e k') :
    (startedTracks k'.sent = startedTracks k.sent ∧ k'.held = k.held ∧
      (k'.state = .stopped → k.state = .stopped)) ∨
      (∃ p t, k' = k.begin p t) ∨ ∃ p, k' = k.finish p := by
  cases h with
  | next | arrive | skip => exact .inr (.inl ⟨_, _, rfl⟩)
  | finish | giveUp => exact .inr (.inr ⟨_, rfl⟩)
  | play | pause => exact .inl ⟨rfl, rfl, nofun⟩
  | mark | ignored => exact .inl ⟨rfl, rfl, id⟩

end Control.Sketch

namespace Control

variable {c c' : Control} {played : Span}

/-- The held track has been closed, and no other. -/
def Closes (c : Control) (played : Span) (c' : Control) : Prop :=
  ∃ track, c.held = some track ∧ c'.closings = c.closings ++ [(track, played)]

/-- What is closed is known by its tracks. -/
theorem closes_of_map {news : List (Nat × Span)} (hnews : c'.closings = c.closings ++ news)
    (hplayed : ∀ e ∈ news, e.2 = played) (hmap : news.map (·.1) = c.held.toList) :
    c'.closings = c.closings ∨ c.Closes played c' := by
  cases hh : c.held with
  | none =>
    rw [hh, Option.toList_none, List.map_eq_nil_iff] at hmap
    exact .inl (by rw [hnews, hmap, List.append_nil])
  | some track =>
    rw [hh, Option.toList_some] at hmap
    obtain ⟨e, rfl, he⟩ := List.map_eq_singleton_iff.1 hmap
    have hp := hplayed e (List.mem_singleton_self e)
    exact .inr ⟨track, hh, by rw [hnews, ← he, ← hp]⟩

/-- A message that starts no track and keeps the held one closes nothing. -/
theorem Settled.keep (h : Settled c) (hb : Balanced played c.closings c' ∧ c'.retired = [])
    (hk : startedTracks c'.sent = startedTracks c.sent ∧ c'.held = c.held ∧
      (c'.state = .stopped → c.state = .stopped)) :
    c'.Settled ∧ c'.closings = c.closings := by
  obtain ⟨⟨htracks, ⟨news, hnews, -⟩, -⟩, hr⟩ := hb
  obtain ⟨hsame, hheld, hstate⟩ := hk
  rw [hsame, h.tracks, hnews, hr, hheld, List.map_append, List.map_nil, List.append_nil,
    List.append_assoc, List.append_cancel_left_eq, List.self_eq_append_left,
    List.map_eq_nil_iff] at htracks
  have hc : c'.closings = c.closings := by rw [hnews, htracks, List.append_nil]
  refine ⟨⟨?_, hr, fun hst => ?_⟩, hc⟩
  · rw [hsame, hc, hheld, h.tracks]
  · rw [hheld]
    exact h.stopped (hstate hst)

/-- A message that starts a track closes the one that was held. -/
theorem Settled.begin (h : Settled c) (hb : Balanced played c.closings c' ∧ c'.retired = [])
    {p : Playlist} {t : Nat} (hk : c'.sketch = c.sketch.begin p t) :
    c'.Settled ∧ (c'.closings = c.closings ∨ c.Closes played c') := by
  obtain ⟨⟨htracks, ⟨news, hnews, hplayed⟩, -⟩, hr⟩ := hb
  have hsent : startedTracks c'.sent = startedTracks c.sent ++ [t] := by
    rw [show c'.sent = _ from congrArg Sketch.sent hk]
    exact Sketch.startedTracks_begin p t
  have hheld : c'.held = some t := congrArg Sketch.held hk
  have hstate : c'.state = .starting := congrArg Sketch.state hk
  refine ⟨⟨?_, hr, fun hst => ?_⟩, ?_⟩
  · simpa [hr] using htracks
  · rw [hstate] at hst
    cases hst
  · rw [hsent, h.tracks, hnews, hr, hheld] at htracks
    exact closes_of_map hnews hplayed (by simpa using htracks.symm)

/-- A message that ends the play closes the track that was held. -/
theorem Settled.finish (h : Settled c) (hb : Balanced played c.closings c' ∧ c'.retired = [])
    {p : Playlist} (hk : c'.sketch = c.sketch.finish p) :
    c'.Settled ∧ (c'.closings = c.closings ∨ c.Closes played c') := by
  obtain ⟨⟨htracks, ⟨news, hnews, hplayed⟩, -⟩, hr⟩ := hb
  have hsent : c'.sent = c.sent := congrArg Sketch.sent hk
  have hheld : c'.held = none := congrArg Sketch.held hk
  refine ⟨⟨?_, hr, fun _ => hheld⟩, ?_⟩
  · simpa [hr] using htracks
  · rw [hsent, h.tracks, hnews, hr, hheld] at htracks
    exact closes_of_map hnews hplayed (by simpa using htracks.symm)

/-- A command closes at most the held track, and only while the player is paused. -/
theorem Settled.command (h : Settled c) (played : Span) (cmd : Command) :
    (c.onCommand played cmd).Settled ∧
      ((c.onCommand played cmd).closings = c.closings ∨
        c.state = .paused ∧ c.Closes played (c.onCommand played cmd)) := by
  have hb := h.onCommand played cmd
  rcases (onCommand_ordered (c := c) played cmd).books with hk | ⟨hs, p, t, hk⟩
  · exact (h.keep hb hk).imp_right .inl
  · refine (h.begin hb hk).imp_right fun hc => hc.imp_right fun hclose => ⟨?_, hclose⟩
    refine hs.resolve_left fun hst => ?_
    obtain ⟨track, ht, -⟩ := hclose
    rw [h.stopped hst] at ht
    cases ht

/-- A notice closes at most the held track, and only if it is of the running session. -/
theorem Settled.notice (h : Settled c) (played : Span) (n : Notice) :
    (c.onNotice played n).Settled ∧
      ((c.onNotice played n).closings = c.closings ∨
        n.session = c.session ∧ c.Closes played (c.onNotice played n)) := by
  have hb := h.onNotice played n
  by_cases hn : n.session = c.session
  · rcases ((onNotice_heard (c := c) played n).1 hn).books with hk | ⟨p, t, hk⟩ | ⟨p, hk⟩
    · exact (h.keep hb hk).imp_right .inl
    · exact (h.begin hb hk).imp_right fun hc => hc.imp_right fun hclose => ⟨hn, hclose⟩
    · exact (h.finish hb hk).imp_right fun hc => hc.imp_right fun hclose => ⟨hn, hclose⟩
  · rw [Control.onNotice, if_neg hn]
    exact ⟨h, .inl rfl⟩

end Control

end Jukebox.Deck
