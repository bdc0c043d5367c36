import Jukebox.Proofs.Deck.Cursor
import Mathlib.Data.List.Induction

/-!
A run of broken tracks ends. Where every track that is tried fails, the player goes down the list: from
the cursor it tries the tracks behind it that can be played, each once and in order, and stops when
there is none left. In a list of distinct tracks what is left does not change while the failed tracks
are marked, because a mark is never ahead of the cursor; so it is known from the beginning what will be
tried, and every failure takes the first of it.
-/

namespace Jukebox

namespace Playlist

variable {p p' : Playlist} {i j : Nat}

/-! ### Lists of distinct tracks -/

/-- No track stands in the list twice. -/
def Distinct (p : Playlist) : Prop := ∀ i j, p.isSame i j → i = j

theorem Distinct.isSame_eq (h : p.Distinct) (i j : Nat) : p.isSame i j = decide (i = j) := by
  rw [Bool.eq_iff_iff, decide_eq_true_eq]
  exact ⟨h i j, fun hij => by simp [isSame, hij]⟩

theorem Distinct.congr (h : p.Distinct) (hk : p'.keys = p.keys) : p'.Distinct := by
  intro i j hsame
  rw [isSame_congr hk] at hsame
  exact h i j hsame

/-- Entries without a key stand for themselves. -/
theorem distinct_of_keyless (h : ∀ t ∈ p.tracks, t.key = none) : p.Distinct := by
  intro i j hsame
  have hnone : p.key? i = none := by
    unfold key? track?
    cases ht : p.tracks[i]? with
    | none => rfl
    | some t => exact h t (List.mem_of_getElem? ht)
  simpa [isSame, hnone] using hsame

/-! ### What lies ahead -/

/-- The playable tracks behind the cursor, in order. -/
def upcoming (p : Playlist) : List Nat :=
  (List.range p.size).filter fun i => p.cursor < i && p.isPlayable i

theorem nextIndex?_eq_head? (p : Playlist) : p.nextIndex? = p.upcoming.head? :=
  List.head?_filter.symm

theorem lt_of_mem_upcoming (h : i ∈ p.upcoming) : p.cursor < i := by
  have hi := (List.mem_filter.1 h).2
  rw [Bool.and_eq_true, decide_eq_true_eq] at hi
  exact hi.1

theorem pairwise_upcoming (p : Playlist) : (p.cursor :: p.upcoming).Pairwise (· < ·) :=
  List.pairwise_cons.2 ⟨fun _ => lt_of_mem_upcoming, List.pairwise_lt_range.filter _⟩

/-- The cursor and what lies ahead of it fit into the rest of the list. -/
theorem length_upcoming_lt (h : p.cursor < p.size) : p.upcoming.length < p.size - p.cursor := by
  obtain ⟨rest, hrest⟩ : ∃ rest, p.size = p.cursor + 1 + rest :=
    ⟨p.size - (p.cursor + 1), by omega⟩
  have hbefore : (List.range (p.cursor + 1)).filter
      (fun i => p.cursor < i && p.isPlayable i) = [] := by
    rw [List.filter_eq_nil_iff]
    intro i hi
    rw [List.mem_range] at hi
    simp only [Bool.and_eq_true, decide_eq_true_eq]
    omega
  have hlength : p.upcoming.length ≤ rest := by
    rw [upcoming, hrest, List.range_add, List.filter_append, hbefore, List.nil_append]
    exact Nat.le_trans (List.length_filter_le ..) (Nat.le_of_eq (by simp))
  omega

/-- A step takes the first of what lies ahead. -/
theorem upcoming_next (h : p.nextIndex? = some i) :
    p.upcoming = i :: ({ p with cursor := i } : Playlist).upcoming := by
  rw [nextIndex?_eq_head?] at h
  obtain ⟨rest, hrest⟩ := List.head?_eq_some_iff.1 h
  have hsorted := (List.pairwise_cons.1 (pairwise_upcoming p)).2
  rw [hrest, List.pairwise_cons] at hsorted
  have hlt : p.cursor < i := lt_of_mem_upcoming (by rw [hrest]; exact List.mem_cons_self)
  have hbehind : ({ p with cursor := i } : Playlist).upcoming = p.upcoming.filter (i < ·) := by
    rw [upcoming, upcoming, List.filter_filter]
    refine List.filter_congr fun j _ => ?_
    show (decide (i < j) && p.isPlayable j) =
      (decide (i < j) && (decide (p.cursor < j) && p.isPlayable j))
    by_cases hj : i < j
    · simp [hj, Nat.lt_trans hlt hj]
    · simp [hj]
  rw [hbehind, hrest, List.filter_cons_of_neg (by simp), List.filter_eq_self.2]
  exact fun j hj => decide_eq_true (hsorted.1 j hj)

/-- Marks up to the cursor change nothing ahead of it. -/
theorem Distinct.upcoming_mark (hd : p.Distinct) (h : i ≤ p.cursor) :
    (p.mark i).upcoming = p.upcoming := by
  unfold upcoming
  rw [size_mark, cursor_mark]
  refine List.filter_congr fun j _ => ?_
  by_cases hj : p.cursor < j
  · have hne : i ≠ j := by omega
    have hplayable := isPlayable_mark (p := p) i j
    rw [hd.isSame_eq] at hplayable
    rw [Bool.eq_iff_iff]
    simp [hj, hplayable, hne]
  · simp [hj]

theorem Distinct.nextIndex?_mark (hd : p.Distinct) (h : i ≤ p.cursor) :
    (p.mark i).nextIndex? = p.nextIndex? := by
  rw [nextIndex?_eq_head?, nextIndex?_eq_head?, hd.upcoming_mark h]

theorem tracks_mark (h : p'.tracks = p.tracks) (i : Nat) : (p'.mark i).tracks = (p.mark i).tracks := by
  simp only [mark, update, h, isSame_congr (keys_congr h)]

theorem flag_isPlayable (p : Playlist) : p.flag p.isPlayable = p := by
  refine eq_of_tracks rfl fun i => ?_
  cases hp : p.tracks[i]? <;> simp [flag, isPlayable, track?, hp]

theorem titles_flag (playable : Nat → Bool) : (p.flag playable).titles = p.titles := by
  apply List.ext_getElem?
  intro i
  cases hp : p.tracks[i]? <;> simp [titles, flag, hp]

theorem Distinct.mark_flag (hd : p.Distinct) (playable : Nat → Bool) (i : Nat) :
    (p.flag playable).mark i = p.flag fun j => playable j && decide (j ≠ i) := by
  have hsame : ∀ j, (p.flag playable).isSame i j = decide (i = j) :=
    fun j => (hd.congr (keys_flag playable)).isSame_eq i j
  refine eq_of_tracks rfl fun j => ?_
  rw [mark, update, List.getElem?_mapIdx, hsame]
  by_cases h : i = j
  · cases hp : p.tracks[j]? <;> simp [flag, h, hp]
  · cases hp : p.tracks[j]? <;> simp [flag, h, Ne.symm h, hp]

end Playlist

namespace Deck

namespace Control

variable {c c' : Control} {played : Span} {n : Notice} {i : Nat}

/-- The control side after these notices, each at some playing time. -/
def heed (c : Control) (notices : List (Span × Notice)) : Control :=
  notices.foldl (fun c r => c.onNotice r.1 r.2) c

/-- A session has been told to have failed while it was the running one. -/
def Answers (c : Control) (notices : List (Span × Notice)) (session : Nat) : Prop :=
  ∃ before r after, notices = before ++ r :: after ∧ r.2 = ⟨session, .failed⟩ ∧
    (c.heed before).session = session

theorem heed_concat (c : Control) (notices : List (Span × Notice)) (r : Span × Notice) :
    c.heed (notices ++ [r]) = (c.heed notices).onNotice r.1 r.2 := List.foldl_append

theorem answers_concat {notices : List (Span × Notice)} {r : Span × Notice} {session : Nat} :
    c.Answers (notices ++ [r]) session ↔ c.Answers notices session ∨
      r.2 = ⟨session, .failed⟩ ∧ (c.heed notices).session = session := by
  constructor
  · rintro ⟨before, r', after, hsplit, hr, hs⟩
    rcases List.eq_nil_or_concat after with rfl | ⟨after, last, rfl⟩
    · obtain ⟨rfl, hlast⟩ := List.append_inj' hsplit rfl
      cases hlast
      exact .inr ⟨hr, hs⟩
    · rw [List.concat_eq_append, ← List.cons_append, ← List.append_assoc] at hsplit
      obtain ⟨rfl, -⟩ := List.append_inj' hsplit rfl
      exact .inl ⟨before, r', after, rfl, hr, hs⟩
  · rintro (⟨before, r', after, rfl, hr, hs⟩ | ⟨hr, hs⟩)
    · exact ⟨before, r', after ++ [r], by simp, hr, hs⟩
    · exact ⟨notices, r, [], rfl, hr, hs⟩

/-! ### One failure -/

/-- A start finds the track at the cursor. -/
theorem play_eq (hs : c.state = .stopped) (hh : c.held = none) (hr : c.retired = [])
    (hc : c.Startable) : c.onCommand played .play =
      { c with
          state := .starting
          shown := .starting
          held := some c.playlist.cursor
          session := c.session + 1
          announced := false
          pendingSeek := none
          sent := c.sent ++ [.start (c.session + 1) c.playlist.cursor c.pendingSeek]
          inboxes := c.inboxes.map (· ++ [.stateChanged .stopped .starting]) } := by
  have hcurrent := Playlist.current?_eq_some hc
  simp [onCommand, dispatch, Transport.transition, around, hs, hcurrent, perform, startTrack, hh,
    request, publish, notify, hr]

/-- The track fails, and the next one is tried. -/
theorem trackFailed_next (hd : c.playlist.Distinct) (hs : c.state = .starting)
    (hh : c.held = some c.playlist.cursor) (hr : c.retired = [])
    (hi : c.playlist.nextIndex? = some i) :
    c.dispatch played .trackFailed =
      { c with
          playlist := { c.playlist.mark c.playlist.cursor with cursor := i }
          held := some i
          session := c.session + 1
          announced := false
          pendingSeek := none
          sent := c.sent ++ [.start (c.session + 1) i c.pendingSeek]
          inboxes := c.inboxes.map (· ++ [.unplayable (c.title c.playlist.cursor)])
          ledger := c.ledger ++ [.finished c.playlist.cursor played] } := by
  have hnext : (c.playlist.mark c.playlist.cursor).nextIndex? = some i := by
    rw [hd.nextIndex?_mark (Nat.le_refl _), hi]
  have hcurrent : ({ c.playlist.mark c.playlist.cursor with cursor := i } : Playlist).current? =
      some i := Playlist.current?_eq_some (Playlist.lt_of_nextIndex? hnext).2
  simp [dispatch, Transport.transition, Transport.boundary, around, Playlist.hasNext, hi, hs, perform,
    markUnplayable, hh, notify, advance, Playlist.next, hnext, Playlist.moveTo, startTrack, hcurrent,
    hr, request, releaseTrack, record, publish, title]

/-- The last track fails. -/
theorem trackFailed_last (hs : c.state = .starting) (hh : c.held = some c.playlist.cursor)
    (hr : c.retired = []) (hi : c.playlist.nextIndex? = none) :
    c.dispatch played .trackFailed =
      { c with
          state := .stopped
          shown := .stopped
          playlist := c.playlist.mark c.playlist.cursor
          held := none
          inboxes := c.inboxes.map (· ++ [.unplayable (c.title c.playlist.cursor),
            .stateChanged .starting .stopped])
          ledger := c.ledger ++ [.finished c.playlist.cursor played] } := by
  simp [dispatch, Transport.transition, Transport.boundary, around, Playlist.hasNext, hi, hs, perform,
    markUnplayable, hh, notify, hr, releaseTrack, record, publish, title]

/-- Who has stopped hears of no failure. -/
theorem trackFailed_stopped (hs : c.state = .stopped) : c.dispatch played .trackFailed = c := by
  have hsame : ({ c with state := .stopped } : Control) = c := by rw [← hs]
  simp [dispatch, Transport.transition, hs, publish, hsame]

/-! ### What has failed -/

/-- Where titles are the same. -/
theorem title_congr (h : c'.playlist.titles = c.playlist.titles) (track : Nat) :
    c'.title track = c.title track := by
  have hsame := congrArg (fun titles => titles[track]?) h
  simp only [Playlist.titles, List.getElem?_map] at hsame
  rw [title, title, Playlist.track?, Playlist.track?, hsame]

/-- The tracks that have been tried: those that have failed, and the one that is held. -/
def tried (c : Control) (failed : List (Nat × Span)) : List Nat :=
  failed.map (·.1) ++ c.held.toList

/-- What a control side that had stopped has become when it has started and these tracks have failed
since, each at some playing time. -/
structure Fails (c : Control) (failed : List (Nat × Span)) (c' : Control) : Prop where
  state : c'.state = .starting ∧ c'.held = some c'.playlist.cursor ∨
    c'.state = .stopped ∧ c'.held = none ∧ c'.playlist.upcoming = []
  ahead : c.playlist.cursor :: c.playlist.upcoming = c'.tried failed ++ c'.playlist.upcoming
  session : c'.session = c.session + (c'.tried failed).length
  pendingSeek : c'.pendingSeek = none
  sent : c'.sent = c.sent ++ (c'.tried failed).mapIdx fun k track =>
    .start (c.session + 1 + k) track (if k = 0 then c.pendingSeek else none)
  tracks : c'.playlist.tracks = (c.playlist.flag fun i =>
    c.playlist.isPlayable i && decide (i ∉ failed.map (·.1))).tracks
  told : c'.inboxes = c.inboxes.map fun inbox => inbox ++
    .stateChanged .stopped .starting :: failed.map (fun e => .unplayable (c.title e.1)) ++
      if c'.state = .stopped then [.stateChanged .starting .stopped] else []
  ledger : c'.ledger = c.ledger ++ failed.map fun e => .finished e.1 e.2
  retired : c'.retired = []

variable {failed : List (Nat × Span)}

/-- At first, nothing has failed. -/
theorem fails_play (h : c.Settled) (hs : c.state = .stopped) (hc : c.Startable) :
    Fails c [] (c.onCommand played .play) := by
  rw [play_eq hs (h.stopped hs) h.retired hc]
  refine ⟨.inl ⟨rfl, rfl⟩, rfl, rfl, rfl, rfl, ?_, ?_, (List.append_nil _).symm, h.retired⟩
  · simpa using congrArg Playlist.tracks (Playlist.flag_isPlayable c.playlist).symm
  · simp

theorem Fails.title_eq (h : Fails c failed c') (track : Nat) : c'.title track = c.title track := by
  refine title_congr ?_ track
  rw [Playlist.titles, h.tracks]
  exact Playlist.titles_flag _

theorem Fails.distinct (h : Fails c failed c') (hd : c.playlist.Distinct) : c'.playlist.Distinct :=
  hd.congr ((Playlist.keys_congr h.tracks).trans (Playlist.keys_flag _))

/-- The marks, with one more. -/
theorem Fails.tracks_mark (h : Fails c failed c') (hd : c.playlist.Distinct) (track : Nat)
    (played : Span) :
    (c'.playlist.mark track).tracks = (c.playlist.flag fun i =>
      c.playlist.isPlayable i && decide (i ∉ (failed ++ [(track, played)]).map (·.1))).tracks := by
  have hmark : (c'.playlist.mark track).tracks =
      ((c.playlist.flag fun i =>
        c.playlist.isPlayable i && decide (i ∉ failed.map (·.1))).mark track).tracks :=
    Playlist.tracks_mark h.tracks track
  rw [hmark, hd.mark_flag]
  congr 2
  funext i
  rw [Bool.eq_iff_iff]
  simp [and_assoc]

/-- The held track fails, and the next one is tried. -/
theorem Fails.next (h : Fails c failed c') (hd : c.playlist.Distinct) (hs : c'.state = .starting)
    (hh : c'.held = some c'.playlist.cursor) (hi : c'.playlist.nextIndex? = some i) (played : Span) :
    Fails c (failed ++ [(c'.playlist.cursor, played)]) (c'.dispatch played .trackFailed) := by
  have hd' : c'.playlist.Distinct := h.distinct hd
  have hahead : c'.playlist.upcoming =
      i :: ({ c'.playlist.mark c'.playlist.cursor with cursor := i } : Playlist).upcoming := by
    rw [← hd'.upcoming_mark (Nat.le_refl _)]
    exact Playlist.upcoming_next (by rw [hd'.nextIndex?_mark (Nat.le_refl _), hi])
  rw [trackFailed_next hd' hs hh h.retired hi]
  refine ⟨.inl ⟨hs, rfl⟩, ?_, ?_, rfl, ?_, h.tracks_mark hd _ played, ?_, ?_, h.retired⟩
  · simp [h.ahead, hahead, tried, hh]
  · simp [h.session, tried, hh, Nat.add_assoc]
  · simp [h.sent, h.session, h.pendingSeek, tried, hh, List.mapIdx_append]
    omega
  · simp [h.told, hs, h.title_eq]
  · simp [h.ledger]

/-- The held track fails, and there is no other. -/
theorem Fails.last (h : Fails c failed c') (hd : c.playlist.Distinct) (hs : c'.state = .starting)
    (hh : c'.held = some c'.playlist.cursor) (hi : c'.playlist.nextIndex? = none) (played : Span) :
    Fails c (failed ++ [(c'.playlist.cursor, played)]) (c'.dispatch played .trackFailed) := by
  have hahead : c'.playlist.upcoming = [] := by
    rw [Playlist.nextIndex?_eq_head?, List.head?_eq_none_iff] at hi
    exact hi
  have hmarked : (c'.playlist.mark c'.playlist.cursor).upcoming = [] := by
    rw [(h.distinct hd).upcoming_mark (Nat.le_refl _), hahead]
  rw [trackFailed_last hs hh h.retired hi]
  refine ⟨.inr ⟨rfl, rfl, hmarked⟩, ?_, ?_, h.pendingSeek, ?_, h.tracks_mark hd _ played, ?_, ?_,
    h.retired⟩
  · simp [h.ahead, hahead, hmarked, tried, hh]
  · simp [h.session, tried, hh]
  · simp [h.sent, tried, hh]
  · simp [h.told, hs, h.title_eq]
  · simp [h.ledger]

/-- The session is the last one that has failed, or the one after it. -/
theorem Fails.session_eq (h : Fails c failed c') :
    c'.session = c.session + failed.length + if c'.state = .stopped then 0 else 1 := by
  rw [h.session, tried]
  obtain ⟨hs, hh⟩ | ⟨hs, hh, -⟩ := h.state <;> simp [hs, hh, Nat.add_assoc]

/-- A failure of the running session takes the first track that lies ahead; nothing else is heeded. -/
theorem Fails.onNotice (h : Fails c failed c') (hd : c.playlist.Distinct) (played : Span)
    (hn : n.session = c'.session → n.event = .failed) :
    (c'.onNotice played n = c' ∧ (n.session = c'.session → c'.state = .stopped)) ∨
      n = ⟨c'.session, .failed⟩ ∧ c'.state = .starting ∧
        Fails c (failed ++ [(c'.playlist.cursor, played)]) (c'.onNotice played n) := by
  by_cases hsession : n.session = c'.session
  · have hnotice : n = ⟨c'.session, .failed⟩ := by rw [← hsession, ← hn hsession]
    have hheard : c'.onNotice played n = c'.dispatch played .trackFailed := by
      rw [hnotice, Control.onNotice, if_pos rfl]
    rw [hheard]
    obtain ⟨hs, hh⟩ | ⟨hs, -, -⟩ := h.state
    · right
      cases hi : c'.playlist.nextIndex? with
      | none => exact ⟨hnotice, hs, h.last hd hs hh hi played⟩
      | some i => exact ⟨hnotice, hs, h.next hd hs hh hi played⟩
    · exact .inl ⟨trackFailed_stopped hs, fun _ => hs⟩
  · exact .inl ⟨if_neg hsession, fun h => absurd h hsession⟩

/-! ### Runs -/

variable {c₀ : Control}

/-- The books are settled between any two pieces of work. -/
theorem Settled.step (h : c.Settled) (hp : c.Pointed) (i : Input) :
    (c.step played i).Settled := by
  have hpointed : (c.step played i).Pointed := (step_pointed_leads hp i).1
  have settle : ∀ {c' : Control}, Balanced played c.closings c' ∧ c'.retired = [] → c'.Pointed →
      c'.Settled := by
    rintro c' ⟨hb, hr⟩ hp'
    refine ⟨?_, hr, hp'.stopped.1⟩
    rw [hb.tracks, hr, List.map_nil, List.append_nil]
  cases i with
  | command cmd => exact settle (h.onCommand played cmd) hpointed
  | notice n => exact settle (h.onNotice played n) hpointed
  | flags playable => exact ⟨h.tracks, h.retired, h.stopped⟩

theorem Settled.run (h : c.Settled) (hp : c.Pointed) (inputs : List (Span × Input)) :
    (c.run inputs).Settled := by
  induction inputs generalizing c with
  | nil => exact h
  | cons i is ih => exact ih (h.step hp i.2) (step_pointed_leads hp i.2).1

/-- Who has stopped has tried something. -/
theorem Fails.length_pos (h : Fails c failed c') (hs : c'.state = .stopped) : 0 < failed.length := by
  have hahead := congrArg List.length h.ahead
  obtain ⟨hs', -⟩ | ⟨-, hh, hnone⟩ := h.state
  · rw [hs] at hs'
    cases hs'
  · simp only [tried, hh, hnone, List.length_cons, List.length_append, List.length_map,
      Option.toList_none, List.length_nil] at hahead
    omega

/-- The first start. -/
theorem Fails.session_first (h : Fails c [] c₀) : c₀.session = c.session + 1 := by
  rw [h.session_eq, if_neg fun hs => Nat.lt_irrefl 0 (h.length_pos hs), List.length_nil]

theorem Fails.later (h : Fails c failed c') : c.session < c'.session := by
  have hsession := h.session_eq
  split at hsession
  · next hs =>
    have := h.length_pos hs
    omega
  · omega

/-- Whatever else is heard, the sessions that have been answered are those whose tracks have
failed. -/
theorem fails_heed (h : Fails c [] c₀) (hd : c.playlist.Distinct) {notices : List (Span × Notice)}
    (hn : ∀ r ∈ notices, c₀.session ≤ r.2.session → r.2.event = .failed) :
    ∃ failed, Fails c failed (c₀.heed notices) ∧
      ∀ s, c₀.Answers notices s ↔ c.session < s ∧ s ≤ c.session + failed.length := by
  induction notices using List.reverseRecOn with
  | nil =>
    refine ⟨[], h, fun s => ⟨?_, fun hs => ?_⟩⟩
    · rintro ⟨before, r, after, hsplit, -⟩
      simp at hsplit
    · simp only [List.length_nil] at hs
      omega
  | append_singleton notices r ih =>
    obtain ⟨failed, hf, hanswers⟩ := ih fun r' hr' => hn r' (List.mem_append_left _ hr')
    have hheard : r.2.session = (c₀.heed notices).session → r.2.event = .failed := by
      intro hr
      have hfirst := h.session_first
      have hlater := hf.later
      exact hn r (by simp) (by omega)
    rw [heed_concat]
    have hsession := hf.session_eq
    obtain ⟨hsame, hstopped⟩ | ⟨hr, hs, hf'⟩ := hf.onNotice hd r.1 hheard
    · rw [hsame]
      refine ⟨failed, hf, fun s => ?_⟩
      rw [answers_concat, hanswers]
      refine ⟨?_, .inl⟩
      rintro (hs | ⟨hr, rfl⟩)
      · exact hs
      · have hst := hstopped (by rw [hr])
        have hpos := hf.length_pos hst
        rw [if_pos hst] at hsession
        omega
    · refine ⟨_, hf', fun s => ?_⟩
      rw [if_neg (by simp [hs])] at hsession
      rw [answers_concat, hanswers, hr, List.length_append, List.length_singleton]
      constructor
      · rintro (hs | ⟨-, rfl⟩) <;> omega
      · intro hs
        by_cases hle : s ≤ c.session + failed.length
        · exact .inl ⟨hs.1, hle⟩
        · have hlast : (c₀.heed notices).session = s := by omega
          exact .inr ⟨by rw [hlast], hlast⟩

/-- As many answers as there are tracks ahead. -/
theorem fails_answered (h : Fails c [] c₀) (hd : c.playlist.Distinct) (spans : List Span) : ∃ failed,
    Fails c failed (spans.foldl (fun c d => c.onNotice d ⟨c.session, .failed⟩) c₀) ∧
      ((spans.foldl (fun c d => c.onNotice d ⟨c.session, .failed⟩) c₀).state = .stopped ∨
        failed.length = spans.length) := by
  induction spans using List.reverseRecOn with
  | nil => exact ⟨[], h, .inr rfl⟩
  | append_singleton spans d ih =>
    obtain ⟨failed, hf, hdone⟩ := ih
    rw [List.foldl_append]
    generalize spans.foldl (fun c d => c.onNotice d ⟨c.session, .failed⟩) c₀ = c' at hf hdone ⊢
    obtain ⟨hsame, hstopped⟩ | ⟨-, hs, hf'⟩ :=
      hf.onNotice (n := ⟨c'.session, .failed⟩) hd d fun _ => rfl
    · refine ⟨failed, ?_, .inl ?_⟩
      · rwa [List.foldl_cons, List.foldl_nil, hsame]
      · rw [List.foldl_cons, List.foldl_nil, hsame]
        exact hstopped rfl
    · refine ⟨_, hf', .inr ?_⟩
      rw [List.length_append, List.length_append, hdone.resolve_left (by simp [hs])]
      rfl

/-- What has been tried is the beginning of what lay ahead. -/
theorem Fails.tried_bounds (h : Fails c failed c') (hc : c.Startable) :
    (c'.tried failed).Pairwise (· < ·) ∧
      (c'.tried failed).length ≤ c.playlist.size - c.playlist.cursor := by
  have hsorted := c.playlist.pairwise_upcoming
  have hlength : (c'.tried failed).length ≤ (c.playlist.cursor :: c.playlist.upcoming).length := by
    rw [h.ahead, List.length_append]
    exact Nat.le_add_right ..
  rw [h.ahead] at hsorted
  have hfits := Playlist.length_upcoming_lt hc
  rw [List.length_cons] at hlength
  exact ⟨(List.pairwise_append.1 hsorted).1, by omega⟩

/-- A run of broken tracks ends. Let the player of distinct tracks start while it is stopped, and let
it hear nothing of its sessions from then on but that they have failed. Then it tries the track at the cursor and the
playable ones behind it, in order; each that fails is marked, told to be unplayable once, and
finished. It stops exactly if every session has been answered, after all of them have been tried; and
as many answers as there are tracks from the cursor on are enough. -/
theorem broken_tracks_run_out (fades : Fades) (playlist : Playlist) (inputs : List (Span × Input))
    (played : Span) :
    let c := Control.run { fades, playlist } inputs
    let c₀ := c.onCommand played .play
    let rest := c.playlist.size - c.playlist.cursor
    playlist.Distinct → c.state = .stopped → c.playlist.cursor < c.playlist.size →
    (∀ notices : List (Span × Notice),
      (∀ r ∈ notices, c₀.session ≤ r.2.session → r.2.event = .failed) →
      let c' := c₀.heed notices
      ∃ failed, Fails c failed c' ∧
        ((c'.tried failed).Pairwise (· < ·) ∧ (c'.tried failed).length ≤ rest) ∧
        ((∀ s, c₀.session ≤ s → s ≤ c'.session → c₀.Answers notices s) ↔ c'.state = .stopped) ∧
        (c'.state = .stopped → c'.held = none ∧ c'.retired = [] ∧
          failed.map (·.1) = c.playlist.cursor :: c.playlist.upcoming)) ∧
    ∀ spans : List Span, rest ≤ spans.length →
      (spans.foldl (fun c d => c.onNotice d ⟨c.session, .failed⟩) c₀).state = .stopped := by
  intro c c₀ rest hdistinct hs hc
  have hd : c.playlist.Distinct := hdistinct.congr (keys_run inputs)
  have hnew : ({ fades, playlist } : Control).Settled := ⟨rfl, rfl, fun _ => rfl⟩
  have hset : c.Settled := hnew.run (pointed_new fades playlist) inputs
  have hplay : Fails c [] c₀ := fails_play hset hs hc
  have hfirst : c₀.session = c.session + 1 := hplay.session_first
  refine ⟨fun notices hn => ?_, fun spans hspans => ?_⟩
  · obtain ⟨failed, hf, hanswers⟩ := fails_heed hplay hd hn
    intro c'
    have hsession : c'.session = c.session + failed.length + if c'.state = .stopped then 0 else 1 :=
      hf.session_eq
    have hlater : c.session < c'.session := hf.later
    refine ⟨failed, hf, hf.tried_bounds hc, ⟨fun hall => ?_, fun hst s hle hge => ?_⟩, fun hst => ?_⟩
    · have hlast := ((hanswers _).1 (hall c'.session (by omega) (Nat.le_refl _))).2
      rw [hsession] at hlast
      split at hlast
      · assumption
      · omega
    · rw [if_pos hst] at hsession
      exact (hanswers s).2 ⟨by omega, by omega⟩
    · obtain ⟨hs', -⟩ | ⟨-, hh, hnone⟩ := hf.state
      · cases hs'.symm.trans hst
      · refine ⟨hh, hf.retired, ?_⟩
        simpa [tried, hh, hnone] using hf.ahead.symm
  · obtain ⟨failed, hf, hst | hlength⟩ := fails_answered hplay hd spans
    · exact hst
    · obtain ⟨-, hh⟩ | ⟨hst, -⟩ := hf.state
      · -- one track more has been tried than have failed
        have hbound := (hf.tried_bounds hc).2
        simp only [tried, hh, List.length_append, List.length_map, Option.toList_some,
          List.length_singleton] at hbound
        omega
      · exact hst

/-- Three of four tracks can be played, and one of them is tried after the other; what comes twice or
of another session is not heeded. -/
theorem broken_tracks_run_out_ofFour :
    let playlist : Playlist :=
      { tracks := [.ofPath "a.wav", { Track.ofPath "b.wav" with playable := false }, .ofPath "c.wav",
          .ofPath "d.wav"] }
    let inputs : List (Span × Input) := [(.zero, .command .subscribe)]
    let c := Control.run { playlist } inputs
    let c₀ := c.onCommand .zero .play
    let notices : List (Span × Notice) :=
      [(⟨1⟩, ⟨1, .failed⟩), (⟨2⟩, ⟨0, .active⟩), (⟨3⟩, ⟨1, .failed⟩), (⟨4⟩, ⟨2, .failed⟩),
        (⟨5⟩, ⟨3, .failed⟩)]
    (playlist.Distinct ∧ c.state = .stopped ∧ c.playlist.cursor < c.playlist.size ∧
        ∀ r ∈ notices, c₀.session ≤ r.2.session → r.2.event = .failed) ∧
      ∃ failed, Fails c failed (c₀.heed notices) ∧ (c₀.heed notices).state = .stopped ∧
        (c₀.heed notices).held = none ∧ failed.map (·.1) = [0, 2, 3] := by
  intro playlist inputs c c₀ notices
  have hd : playlist.Distinct := Playlist.distinct_of_keyless (by decide)
  have hs : c.state = .stopped := rfl
  have hc : c.playlist.cursor < c.playlist.size := by decide
  have hn : ∀ r ∈ notices, c₀.session ≤ r.2.session → r.2.event = .failed := by decide
  obtain ⟨hruns, -⟩ := broken_tracks_run_out {} playlist inputs .zero hd hs hc
  obtain ⟨failed, hf, -, -, hstopped⟩ := hruns notices hn
  have hst : (c₀.heed notices).state = .stopped := by decide
  have hahead : c.playlist.cursor :: c.playlist.upcoming = [0, 2, 3] := by decide
  obtain ⟨hheld, -, hall⟩ := hstopped hst
  exact ⟨⟨hd, hs, hc, hn⟩, failed, hf, hst, hheld, hall.trans hahead⟩

end Control

end Deck

end Jukebox
