import Jukebox.Proofs.Deck.Feed
import Jukebox.Proofs.Deck.Ledger

/-!
Every track that is started is accounted for once. The tracks of all starts are those that the
playlist has been told to be finished, in this order, and then the one that is held; and each was
finished with the playing time of what the card had got of its own session by then. The books of the
control side and the count of the output side are kept by both sides on their own; they meet where a
track is closed, because the running session is then the one that the control side means.
-/

namespace Jukebox.Number

theorem nearest_zero (d : Nat) : nearest 0 d = 0 := by
  simp [nearest]

theorem Binary.ofRatio_zero (f : Binary) (den : Nat) : f.ofRatio 0 den = 0 := by
  have hpos : 0 < 2 ^ f.digits := Nat.pow_pos (by decide)
  simp [ofRatio, nearest_zero, hpos]

/-- Nothing divided by anything is nothing, unless the divisor is beyond all numbers. -/
theorem Binary.double_quotient_zero (den : Nat) :
    double.quotient 0 den = 0 ∨ double.quotient 0 den = double.notANumber := by
  have hzero : double.value (double.ofRatio 0 1) = .finite false 0 0 := by
    rw [ofRatio_zero]
    decide +kernel
  rw [quotient, hzero]
  cases double.value (double.ofRatio den 1) with
  | finite negative units scale =>
    refine .inl ?_
    dsimp only
    rw [Nat.zero_mul, ofRatio_zero]
  | _ => exact .inr rfl

end Jukebox.Number

namespace Jukebox.Deck

variable {w : World} {fades : Fades} {playlist : Playlist} {d d' : Deck} {m : Move}

/-- Nothing takes no time. -/
theorem playingTime_zero (w : World) : w.playingTime 0 = .zero := by
  unfold World.playingTime
  split
  · rcases Number.Binary.double_quotient_zero w.format.rate with h | h
    · rw [h]
      decide +kernel
    · rw [h]
      decide +kernel
  · rfl

/-! ### One step -/

/-- A step closes at most the held track: a command does while the player is paused, and a notice of
the session that the control side means. -/
theorem step_closes (hset : d.control.Settled) (h : d.step w m = some d') :
    d'.control.Settled ∧ (d'.control.closings = d.control.closings ∨
      d.control.Closes (d.output.played w) d'.control ∧
        (d.control.closed = false ∧ d.control.state = .paused ∨
          ∃ n, d.output.phase = .reporting n ∧ n.session = d.control.session)) := by
  cases stepped_of_step h with
  | @takeCommand command _ _ hopen =>
    obtain ⟨hnext, hsame | ⟨hst, hcloses⟩⟩ := hset.command (d.output.played w) command
    · exact ⟨hnext, .inl hsame⟩
    · exact ⟨hnext, .inr ⟨hcloses, .inl ⟨hopen, hst⟩⟩⟩
  | @takeNotice n hp =>
    obtain ⟨hnext, hsame | ⟨hn, hcloses⟩⟩ := hset.notice (d.output.played w) n
    · exact ⟨hnext, .inl hsame⟩
    · exact ⟨hnext, .inr ⟨hcloses, .inr ⟨n, hp, hn⟩⟩⟩
  | give | takeRequest | takeIdle | proceed | giveUp | render | produce => exact ⟨hset, .inl rfl⟩

/-- The running session is the one of the track that a step closes. -/
theorem session_of_closes (hs : Sound d.control.sketch d.output.sketch)
    (h : d.control.closed = false ∧ d.control.state = .paused ∨
      ∃ n, d.output.phase = .reporting n ∧ n.session = d.control.session) :
    ∃ z, d.output.session = some z ∧ z.id = d.control.session := by
  rcases h with ⟨hopen, hst⟩ | ⟨n, hp, hn⟩
  · obtain ⟨hnone, z, -, hz, -⟩ := (agrees_paused (k := d.control.sketch) hst).1 (hs.agrees hopen)
    exact ⟨z, hz, (hs.mail.current_iff hz).2 hnone⟩
  · obtain ⟨z, hz, hid, -⟩ := hs.orderly.busy.reporting n hp
    exact ⟨z, hz, hid.trans hn⟩

/-! ### Runs -/

/-- Sessions are numbered from one, in the order of their starts. -/
theorem Reachable.numbered (h : Reachable w fades playlist d) :
    numbers d.control.sent = List.range' 1 d.control.session := by
  have hkeeps := h.keeps (P := fun k f => Mail k f ∧ numbers k.sent = List.range' 1 k.session)
    ⟨(sound_initial fades playlist).mail, rfl⟩ fun {m k f k' f'} ⟨hmail, hnum⟩ hm => by
      refine ⟨hmail.shift hm, ?_⟩
      cases (hm.post hmail.taken).1 with
      | sent _ hk _ _ _ _ =>
        have hlater := hk.later
        have hnext : k.session + 1 = 1 + k.session := Nat.add_comm ..
        have hlen : k.session + (k'.session - k.session) = k'.session := by omega
        rw [hk.sent, numbers_append, hnum, hk.numbered, hnext, List.range'_append_1, hlen]
      | taken hk _ _ _ _ =>
        rw [hk]
        exact hnum
  exact hkeeps.2

/-- Every entry that closes a track was made by a step. -/
theorem run_closes {moves : List Move} (hset : d.control.Settled)
    (hrun : d.run w moves = some d') :
    d'.control.Settled ∧ ∀ k e, d'.control.closings[k]? = some e →
      d.control.closings[k]? = some e ∨
        ∃ before m after d₁ d₂, moves = before ++ m :: after ∧ d.run w before = some d₁ ∧
          d₁.control.Settled ∧ d₁.step w m = some d₂ ∧ d₁.control.closings.length = k ∧
          d₂.control.closings = d₁.control.closings ++ [e] := by
  induction moves generalizing d with
  | nil =>
    cases hrun
    exact ⟨hset, fun _ _ h => .inl h⟩
  | cons m ms ih =>
    obtain ⟨d₁, hm, hrun⟩ := Option.bind_eq_some_iff.1 hrun
    obtain ⟨hset₁, hcloses⟩ := step_closes hset hm
    obtain ⟨hset', hentries⟩ := ih hset₁ hrun
    refine ⟨hset', fun k e he => ?_⟩
    rcases hentries k e he with hold | ⟨before, m', after, d₂, d₃, rfl, hbefore, hrest⟩
    · rcases hcloses with hsame | ⟨⟨track, -, hnew⟩, -⟩
      · exact .inl (hsame ▸ hold)
      · rw [hnew, List.getElem?_append] at hold
        split at hold
        · exact .inl hold
        · next hk =>
          -- the entry is the one that the first step has made
          rw [List.getElem?_singleton] at hold
          split at hold
          · next hlast =>
            cases hold
            exact .inr ⟨[], m, ms, d, d₁, rfl, rfl, hset, hm, by omega, hnew⟩
          · cases hold
    · refine .inr ⟨m :: before, m', after, d₂, d₃, rfl, ?_, hrest⟩
      simp [run, hm, hbefore]

/-- A start is known by its place: the track and the number at a place belong together. -/
theorem start_of_getElem? {rs : List Request} {k id track : Nat}
    (hid : (numbers rs)[k]? = some id) (ht : (startedTracks rs)[k]? = some track) :
    ∃ seek, .start id track seek ∈ rs := by
  induction rs generalizing k with
  | nil => cases hid
  | cons r rs ih =>
    have hlater : ∀ {k}, (numbers rs)[k]? = some id → (startedTracks rs)[k]? = some track →
        ∃ seek, .start id track seek ∈ r :: rs := fun hid ht =>
      (ih hid ht).imp fun _ hmem => List.mem_cons_of_mem _ hmem
    rw [numbers, List.filterMap_cons] at hid
    rw [startedTracks, List.filterMap_cons] at ht
    cases r with
    | start _ _ seek =>
      cases k with
      | zero =>
        cases hid
        cases ht
        exact ⟨seek, List.mem_cons_self ..⟩
      | succ k => exact hlater hid ht
    | _ => exact hlater hid ht

theorem map_fst_closings (c : Control) :
    c.closings.map (·.1) = c.ledger.filterMap Entry.finished? := by
  rw [Control.closings, List.map_filterMap]
  congr 1
  funext e
  cases e <;> rfl

/-- The track that is closed at the `k`-th place was started as session `k + 1`. -/
theorem start_of_closing (hreach : Reachable w fades playlist d) (hset : d.control.Settled)
    {k track : Nat} {played : Span} (hk : d.control.closings[k]? = some (track, played)) :
    ∃ seek, .start (k + 1) track seek ∈ d.control.sent := by
  have hlt := (List.getElem?_eq_some_iff.1 hk).1
  have htrack : (startedTracks d.control.sent)[k]? = some track := by
    rw [hset.tracks, List.getElem?_append_left (by simpa using hlt), List.getElem?_map, hk]
    rfl
  have hlen := (List.getElem?_eq_some_iff.1 htrack).1
  rw [length_startedTracks, hreach.numbered, List.length_range'] at hlen
  refine start_of_getElem? ?_ htrack
  rw [hreach.numbered, List.getElem?_range' hlen, Nat.one_mul, Nat.add_comm]

/-- What closes the `k`-th track happens while session `k + 1` runs, and the counter tells the
playing time. -/
theorem closes_own_session {moves : List Move} {track : Nat} {played : Span}
    (hrun : (initial fades playlist).run w moves = some d) (hset : d.control.Settled)
    (hm : d.step w m = some d')
    (hnew : d'.control.closings = d.control.closings ++ [(track, played)]) :
    ∃ z, d.output.session = some z ∧ z.id = d.control.closings.length + 1 ∧
      played = w.playingTime d.output.counters.playedFrames := by
  obtain ⟨-, hsame | ⟨⟨held, hheld, hclosed⟩, hwhen⟩⟩ := step_closes hset hm
  · rw [hnew] at hsame
    exact absurd hsame (by simp)
  have hreach : Reachable w fades playlist d := ⟨moves, hrun⟩
  obtain ⟨z, hz, hid⟩ := session_of_closes hreach.sound hwhen
  have hlast : (held, d.output.played w) = (track, played) := by
    simpa using hclosed.symm.trans hnew
  refine ⟨z, hz, ?_, (congrArg Prod.snd hlast).symm⟩
  -- all sessions but the last one are closed
  have hstarts := congrArg List.length hset.tracks
  rw [length_startedTracks, hreach.numbered, List.length_range', hheld] at hstarts
  simpa [hid] using hstarts

/-- Every track that is started is accounted for once: it is finished, in the order of the starts,
or it is the one that is held. The `k`-th to be finished is the track of session `k + 1`, and its
playing time is that of the frames which the card had got of this session by then; it is zero if a
failure of the start had been reported. -/
theorem every_start_is_accounted_for {moves : List Move}
    (hrun : (initial fades playlist).run w moves = some d) :
    startedTracks d.control.sent =
        d.control.ledger.filterMap Entry.finished? ++ d.control.held.toList ∧
      d.control.retired = [] ∧
      ∀ k track played, d.control.closings[k]? = some (track, played) →
        (∃ seek, .start (k + 1) track seek ∈ d.control.sent) ∧
        ∃ before m after d₁ d₂, moves = before ++ m :: after ∧
          (initial fades playlist).run w before = some d₁ ∧ d₁.step w m = some d₂ ∧
          d₁.control.closings.length = k ∧
          d₂.control.closings = d₁.control.closings ++ [(track, played)] ∧
          played = w.playingTime (fed w (k + 1) (initial fades playlist) before) ∧
          ∀ early late d₀, before = early ++ late →
            (initial fades playlist).run w early = some d₀ →
            d₀.notice? = some ⟨k + 1, .failed⟩ → played = .zero := by
  have hset₀ : (initial fades playlist).control.Settled := ⟨rfl, rfl, fun _ => rfl⟩
  obtain ⟨hset, hclosings⟩ := run_closes hset₀ hrun
  have hreach : Reachable w fades playlist d := ⟨moves, hrun⟩
  refine ⟨map_fst_closings d.control ▸ hset.tracks, hset.retired, fun k track played hk => ?_⟩
  refine ⟨start_of_closing hreach hset hk, ?_⟩
  rcases hclosings k _ hk with
    hold | ⟨before, m, after, d₁, d₂, rfl, hbefore, hset₁, hm, hlen, hnew⟩
  · cases hold
  obtain ⟨z, hz, hid, hplayed⟩ := closes_own_session hbefore hset₁ hm hnew
  obtain ⟨hcount, hmute⟩ := counter_eq_fed hbefore hz
  rw [hid, hlen] at hcount hmute
  rw [hcount] at hplayed
  refine ⟨before, m, after, d₁, d₂, rfl, hbefore, hm, hlen, hnew, hplayed, ?_⟩
  intro early late d₀ hsplit hearly hfailed
  subst hsplit
  have hlate : d₀.run w late = some d₁ := by
    rwa [run_append, hearly, Option.bind_some] at hbefore
  have hs : Sound d₀.control.sketch d₀.output.sketch := Reachable.sound ⟨early, hearly⟩
  have hnone := stream_of_failed hs hfailed hlate hz (by rw [hid, hlen])
  rw [hplayed, hmute hnone, playingTime_zero]

/-- A track that has been played to its end, and the start of the next one. -/
def ended : List Move := started ++ [.render #[0, 0, 0], .takeIdle, .takeNotice]

theorem start_is_accounted_for_at_its_end : ∃ d, (initial {} pair).run .obedient ended = some d ∧
    startedTracks d.control.sent = 0 :: d.control.held.toList ∧ d.control.retired = [] ∧
    (∃ seek, .start 1 0 seek ∈ d.control.sent) ∧
    ∃ before m after d₁ d₂, ended = before ++ m :: after ∧
      (initial {} pair).run .obedient before = some d₁ ∧ d₁.step .obedient m = some d₂ ∧
      d₂.control.closings = d₁.control.closings ++ [(0, ⟨2000000⟩)] ∧
      ⟨2000000⟩ = World.obedient.playingTime (fed .obedient 1 (initial {} pair) before) := by
  have hclosings : ((initial {} pair).run .obedient ended).map (·.control.closings) =
      some [(0, ⟨2000000⟩)] := by decide +kernel
  obtain ⟨d, hrun, hclosings⟩ := Option.map_eq_some_iff.1 hclosings
  obtain ⟨htracks, hretired, hentries⟩ := every_start_is_accounted_for hrun
  obtain ⟨hstart, before, m, after, d₁, d₂, hsplit, hbefore, hm, -, hnew, hplayed, -⟩ :=
    hentries 0 0 ⟨2000000⟩ (by rw [hclosings]; rfl)
  refine ⟨d, hrun, ?_, hretired, hstart, before, m, after, d₁, d₂, hsplit, hbefore, hm, hnew,
    hplayed⟩
  rw [htracks, ← map_fst_closings, hclosings]
  rfl

end Jukebox.Deck
