import Jukebox.Proofs.Rate.Scratch

/-!
What a filter makes of a signal that comes in pieces. `Filter.feed` takes whole chunks off the front
of a list of samples as long as there are any; feeding two lists one after the other is the same as
feeding them as one. A stage at work does just this with all it has been given, wherever its pieces
end, as long as the filter yields whole frames and not more of them than it says.
-/

namespace Jukebox.Rate

variable {σ : Type}

/-- What has become of a list of samples: the state of the filter, what it has yielded, and the
samples that do not fill a chunk. -/
structure Fed (σ : Type) where
  state : σ
  output : List Float32
  rest : List Float32

/-- Runs a filter on all chunks of a list of samples. -/
def Filter.feed (f : Filter σ) (size : Nat) (s : σ) (xs : List Float32) : Fed σ :=
  if 0 < size ∧ size ≤ xs.length then
    let (s', ys) := f.run s (xs.take size).toArray
    let later := f.feed size s' (xs.drop size)
    { later with output := ys.toList ++ later.output }
  else ⟨s, [], xs⟩
  termination_by xs.length
  decreasing_by
    rw [List.length_drop]
    omega

/-- The state after some inputs. -/
def Filter.after (f : Filter σ) (s : σ) (inputs : List (Array Float32)) : σ :=
  inputs.foldl (fun s input => (f.run s input).1) s

/-- What is promised of a filter from a state on: after any whole chunks, a chunk or a shorter last
one gives whole frames, at most `bound` of them. -/
def Filter.Reliable (f : Filter σ) (channels chunk : Nat) (s : σ) : Prop :=
  ∀ inputs : List (Array Float32), (∀ x ∈ inputs, x.size = chunk * channels) →
    ∀ input : Array Float32, channels ∣ input.size → input.size ≤ chunk * channels →
      ∃ frames, frames ≤ f.bound ∧ (f.run (f.after s inputs) input).2.size = frames * channels

namespace Filter

variable {f : Filter σ} {size channels chunk : Nat} {s : σ} {xs : List Float32}

theorem feed_short (h : xs.length < size) : f.feed size s xs = ⟨s, [], xs⟩ := by
  rw [feed, if_neg (by omega)]

theorem feed_step (hpos : 0 < size) (h : size ≤ xs.length) :
    f.feed size s xs =
      let y := f.run s (xs.take size).toArray
      let later := f.feed size y.1 (xs.drop size)
      { later with output := y.2.toList ++ later.output } := by
  rw [feed, if_pos ⟨hpos, h⟩]

/-- What does not fill a chunk is left. -/
theorem rest_feed (hpos : 0 < size) (s : σ) (xs : List Float32) :
    (f.feed size s xs).rest = xs.drop (size * (xs.length / size)) := by
  by_cases h : size ≤ xs.length
  · rw [feed_step hpos h]
    have hlater := rest_feed hpos (f.run s (xs.take size).toArray).1 (xs.drop size)
    have hcount : size + size * ((xs.length - size) / size) = size * (xs.length / size) := by
      rw [Nat.div_eq_sub_div hpos h, Nat.mul_add, Nat.mul_one, Nat.add_comm]
    simp only [hlater, List.drop_drop, List.length_drop, hcount]
  · rw [feed_short (by omega), Nat.div_eq_of_lt (by omega)]
    rfl
  termination_by xs.length
  decreasing_by
    rw [List.length_drop]
    omega

theorem length_rest_feed (hpos : 0 < size) (s : σ) (xs : List Float32) :
    (f.feed size s xs).rest.length = xs.length % size := by
  rw [rest_feed hpos, List.length_drop, Nat.mod_eq_sub_mul_div]

/-- Samples that come in two pieces are fed as if they came in one. -/
theorem feed_append (hpos : 0 < size) (s : σ) (xs ys : List Float32) :
    f.feed size s (xs ++ ys) =
      let first := f.feed size s xs
      let later := f.feed size first.state (first.rest ++ ys)
      { later with output := first.output ++ later.output } := by
  by_cases h : size ≤ xs.length
  · have hlong : size ≤ (xs ++ ys).length := by
      rw [List.length_append]
      omega
    have hlater := feed_append hpos (f.run s (xs.take size).toArray).1 (xs.drop size) ys
    rw [feed_step hpos hlong, feed_step hpos h, List.take_append_of_le_length h,
      List.drop_append_of_le_length h]
    simp only [hlater, List.append_assoc]
  · have hshort : f.feed size s xs = ⟨s, [], xs⟩ := feed_short (by omega)
    rw [hshort]
    rfl
  termination_by xs.length
  decreasing_by
    rw [List.length_drop]
    omega

/-- Only the samples in whole chunks are fed. -/
theorem feed_take (hpos : 0 < size) (s : σ) (xs : List Float32) :
    f.feed size s xs =
      { f.feed size s (xs.take (xs.length / size * size)) with
        rest := xs.drop (xs.length / size * size) } := by
  have hle : xs.length / size * size ≤ xs.length := Nat.div_mul_le_self ..
  have hlast : xs.length - xs.length / size * size < size := by
    rw [Nat.mul_comm, ← Nat.mod_eq_sub_mul_div]
    exact Nat.mod_lt _ hpos
  have hrest : (f.feed size s (xs.take (xs.length / size * size))).rest = [] := by
    rw [rest_feed hpos, List.length_take, Nat.min_eq_left hle, Nat.mul_div_cancel _ hpos,
      Nat.mul_comm, List.drop_take, Nat.sub_self, List.take_zero]
  conv => lhs; rw [← List.take_append_drop (xs.length / size * size) xs]
  rw [feed_append hpos]
  dsimp only
  rw [hrest, List.nil_append, feed_short (by rw [List.length_drop]; exact hlast), List.append_nil]

/-! ### Reliable filters -/

theorem Reliable.now (h : f.Reliable channels chunk s) {input : Array Float32}
    (hdvd : channels ∣ input.size) (hle : input.size ≤ chunk * channels) :
    ∃ frames, frames ≤ f.bound ∧ (f.run s input).2.size = frames * channels :=
  h [] (by simp) input hdvd hle

theorem Reliable.run (h : f.Reliable channels chunk s) {input : Array Float32}
    (hsize : input.size = chunk * channels) : f.Reliable channels chunk (f.run s input).1 := by
  intro inputs hinputs
  refine h (input :: inputs) fun x hx => ?_
  rcases List.mem_cons.1 hx with rfl | hx
  · exact hsize
  · exact hinputs x hx

theorem size_take (h : chunk * channels ≤ xs.length) :
    (xs.take (chunk * channels)).toArray.size = chunk * channels := by
  rw [List.size_toArray, List.length_take]
  omega

theorem Reliable.feed (hpos : 0 < chunk * channels) {s : σ} (h : f.Reliable channels chunk s)
    (xs : List Float32) : f.Reliable channels chunk (f.feed (chunk * channels) s xs).state := by
  by_cases hlen : chunk * channels ≤ xs.length
  · rw [feed_step hpos hlen]
    exact (h.run (size_take hlen)).feed hpos (xs.drop (chunk * channels))
  · rw [feed_short (by omega)]
    exact h
  termination_by xs.length
  decreasing_by
    rw [List.length_drop]
    omega

/-- A reliable filter yields whole frames. -/
theorem Reliable.dvd_output (hpos : 0 < chunk * channels) {s : σ} (h : f.Reliable channels chunk s)
    (xs : List Float32) : channels ∣ (f.feed (chunk * channels) s xs).output.length := by
  by_cases hlen : chunk * channels ≤ xs.length
  · have hsize := size_take hlen
    obtain ⟨frames, -, hyield⟩ := h.now (by rw [hsize]; exact Nat.dvd_mul_left ..) (by omega)
    have hlater := (h.run hsize).dvd_output hpos (xs.drop (chunk * channels))
    rw [feed_step hpos hlen]
    simp only [List.length_append, Array.length_toList, hyield]
    exact Nat.dvd_add (Nat.dvd_mul_left ..) hlater
  · rw [feed_short (by omega)]
    exact Nat.dvd_zero _
  termination_by xs.length
  decreasing_by
    rw [List.length_drop]
    omega

end Filter

namespace Stage

/-- A stage between two calls: less than a chunk waits, and whole frames of it. -/
structure Ready (s : Stage σ) : Prop where
  audible : 0 < s.channels
  reliable : s.filter.Reliable s.channels s.chunk s.state
  waiting : s.pending.size < s.chunkSamples
  whole : s.channels ∣ s.pending.size

/-- Given some input, a stage comes to another state and has yielded some output: that of feeding
its filter with what waited and the input. -/
structure Takes (s : Stage σ) (input : Array Float32) (s' : Stage σ) (output : Array Float32) :
    Prop where
  filter : s'.filter = s.filter
  channels : s'.channels = s.channels
  chunk : s'.chunk = s.chunk
  fed : s.filter.feed s.chunkSamples s.state (s.pending ++ input).toList =
    ⟨s'.state, output.toList, s'.pending.toList⟩

variable {s s' s'' : Stage σ} {input input' output output' : Array Float32} {count : Nat}

theorem Ready.chunkSamples_pos (h : s.Ready) : 0 < s.chunkSamples :=
  Nat.lt_of_le_of_lt (Nat.zero_le _) h.waiting

/-- Samples of the pending chunk with this index. -/
theorem extract_chunk (a : Array Float32) (index size : Nat) (hcount : 0 < count) :
    a.extract (index * size) (index * size + size) =
      (((a.toList.drop (index * size)).take (count * size)).take size).toArray := by
  have hle : size ≤ count * size := Nat.le_mul_of_pos_left size hcount
  apply Array.ext'
  rw [List.take_take, Nat.min_eq_left hle]
  simp [List.extract_eq_take_drop]

/-- Behind the first of some chunks are the others. -/
theorem drop_chunk (xs : List Float32) (index count size : Nat) :
    ((xs.drop (index * size)).take ((count + 1) * size)).drop size =
      (xs.drop ((index + 1) * size)).take (count * size) := by
  rw [List.drop_take, List.drop_drop, ← Nat.succ_mul, Nat.succ_mul count, Nat.add_sub_cancel]

/-- The chunk at the front is run first. -/
theorem chunks_succ (s : Stage σ) (index produced count : Nat) :
    s.chunks index produced (count + 1) =
      let y := s.filter.run s.state
        (s.pending.extract (index * s.chunkSamples) (index * s.chunkSamples + s.chunkSamples))
      chunks (index + 1) (produced + y.2.size)
        { s with state := y.1, out := overwrite s.out produced y.2 } count := rfl

/-- Running whole chunks one after the other: the output buffer holds what they yield behind what
was there. -/
theorem chunks_eq (count index produced : Nat) (hpos : 0 < s.chunkSamples)
    (hr : s.filter.Reliable s.channels s.chunk s.state)
    (hin : (index + count) * s.chunkSamples ≤ s.pending.size)
    (hout : produced + count * (s.filter.bound * s.channels) ≤ s.out.size) :
    let fed := s.filter.feed s.chunkSamples s.state
      ((s.pending.toList.drop (index * s.chunkSamples)).take (count * s.chunkSamples))
    ∃ out : Array Float32,
      s.chunks index produced count =
        ({ s with state := fed.state, out }, produced + fed.output.length) ∧
      out.toList.take (produced + fed.output.length) =
        s.out.toList.take produced ++ fed.output := by
  induction count generalizing s index produced with
  | zero =>
    have hnone : ((s.pending.toList.drop (index * s.chunkSamples)).take
        (0 * s.chunkSamples)).length < s.chunkSamples := by
      rw [Nat.zero_mul, List.take_zero]
      exact hpos
    dsimp only
    rw [Filter.feed_short hnone]
    exact ⟨s.out, rfl, (List.append_nil _).symm⟩
  | succ count ih =>
    rw [Nat.succ_mul] at hout
    have hfirst : index * s.chunkSamples + s.chunkSamples ≤ s.pending.size := by
      have := Nat.mul_le_mul_right s.chunkSamples (show index + 1 ≤ index + (count + 1) by omega)
      rw [Nat.succ_mul] at this
      omega
    -- the chunk at the front
    have hlen : s.chunkSamples ≤ ((s.pending.toList.drop (index * s.chunkSamples)).take
        ((count + 1) * s.chunkSamples)).length := by
      rw [List.length_take, List.length_drop, Array.length_toList, Nat.succ_mul]
      omega
    dsimp only
    rw [Filter.feed_step hpos hlen, drop_chunk, chunks_succ,
      ← extract_chunk s.pending index s.chunkSamples (Nat.succ_pos count)]
    have hwhole : (s.pending.extract (index * s.chunkSamples)
        (index * s.chunkSamples + s.chunkSamples)).size = s.chunk * s.channels := by
      rw [Array.size_extract, Nat.min_eq_left hfirst, Nat.add_sub_cancel_left, chunkSamples]
    generalize s.pending.extract (index * s.chunkSamples)
      (index * s.chunkSamples + s.chunkSamples) = input at *
    obtain ⟨frames, hframes, hyield⟩ :=
      hr.now (hwhole ▸ Nat.dvd_mul_left ..) (Nat.le_of_eq hwhole)
    have hroom : produced + (s.filter.run s.state input).2.size +
        count * (s.filter.bound * s.channels) ≤ s.out.size := by
      have := Nat.mul_le_mul_right s.channels hframes
      omega
    -- and the ones behind it
    have hfit : produced + (s.filter.run s.state input).2.size ≤ s.out.size := by omega
    have hfront := take_overwrite hfit
    obtain ⟨out, hrun, htake⟩ := ih (s := { s with
        state := (s.filter.run s.state input).1
        out := overwrite s.out produced (s.filter.run s.state input).2 })
      (index + 1) (produced + (s.filter.run s.state input).2.size) hpos (hr.run hwhole)
      (by rw [show index + 1 + count = index + (count + 1) by omega]; exact hin)
      (by rw [size_overwrite hfit]; exact hroom)
    rw [hfront] at htake
    simp only [List.length_append, Array.length_toList, ← Nat.add_assoc]
    refine ⟨out, hrun, ?_⟩
    rw [← List.append_assoc]
    exact htake

/-- Running the whole chunks at the front, with an output buffer that has room for them. -/
theorem front_chunks (count : Nat) (hpos : 0 < s.chunkSamples)
    (hr : s.filter.Reliable s.channels s.chunk s.state)
    (hin : count * s.chunkSamples ≤ s.pending.size)
    (hout : count * s.filter.bound * s.channels ≤ s.out.size) :
    let fed := s.filter.feed s.chunkSamples s.state (s.pending.toList.take (count * s.chunkSamples))
    ∃ out, s.chunks 0 0 count = ({ s with state := fed.state, out }, fed.output.length) ∧
      out.extract 0 fed.output.length = fed.output.toArray := by
  obtain ⟨out, hrun, htake⟩ := chunks_eq count 0 0 hpos hr
    (by rw [Nat.zero_add]; exact hin) (by rw [Nat.zero_add, ← Nat.mul_assoc]; exact hout)
  simp only [Nat.zero_mul, List.drop_zero, Nat.zero_add, List.take_zero, List.nil_append]
    at hrun htake
  refine ⟨out, hrun, Array.ext' ?_⟩
  rw [Array.toList_extract, List.extract_eq_take_drop, List.drop_zero]
  exact htake

/-- Input that comes in is fed with what waits; what does not fill a chunk waits on. -/
theorem process_eq (h : s.Ready) (input : Array Float32) :
    let fed := s.filter.feed s.chunkSamples s.state (s.pending ++ input).toList
    ∃ out, s.process input =
      ({ s with state := fed.state, pending := fed.rest.toArray, out }, fed.output.toArray) := by
  have hcount : (s.pending ++ input).size / s.channels / s.chunk =
      (s.pending ++ input).size / s.chunkSamples := by
    rw [Nat.div_div_eq_div_mul, Nat.mul_comm, chunkSamples]
  unfold process pendingFrames
  dsimp only
  rw [hcount]
  generalize s.pending ++ input = xs
  by_cases hnone : xs.size / s.chunkSamples = 0
  · rw [if_pos hnone, Filter.feed_short (Nat.lt_of_div_eq_zero h.chunkSamples_pos hnone)]
    exact ⟨s.out, rfl⟩
  · obtain ⟨out, hrun, hfront⟩ := front_chunks (xs.size / s.chunkSamples)
      (s := reserve { s with pending := xs } (xs.size / s.chunkSamples * s.filter.bound))
      h.chunkSamples_pos h.reliable (Nat.div_mul_le_self ..) (le_size_grown ..)
    rw [if_neg hnone, hrun, Filter.feed_take h.chunkSamples_pos]
    have hrest : (xs.extract (xs.size / s.chunkSamples * s.chunkSamples) xs.size) =
        (xs.toList.drop (xs.size / s.chunkSamples * s.chunkSamples)).toArray := by
      apply Array.ext'
      rw [Array.toList_extract, List.extract_eq_take_drop, ← Array.length_toList,
        ← List.length_drop, List.take_length]
    exact ⟨out, Prod.ext (congrArg (Stage.mk _ _ _ _ · out) hrest) hfront⟩

theorem Ready.takes (h : s.Ready) (input : Array Float32) :
    s.Takes input (s.process input).1 (s.process input).2 := by
  obtain ⟨out, hrun⟩ := process_eq h input
  rw [hrun]
  exact ⟨rfl, rfl, rfl, rfl⟩

/-- What waits does not fill a chunk. -/
theorem Ready.takes_nothing (h : s.Ready) : s.Takes #[] s #[] := by
  have hwaiting : (s.pending ++ #[]).toList.length < s.chunkSamples := by
    rw [Array.append_empty]
    exact h.waiting
  refine ⟨rfl, rfl, rfl, ?_⟩
  rw [Filter.feed_short hwaiting, Array.append_empty]

theorem Takes.chunkSamples_eq (h : s.Takes input s' output) :
    s'.chunkSamples = s.chunkSamples := by
  rw [chunkSamples, h.channels, h.chunk, chunkSamples]

/-- Input that comes in two pieces is taken as if it came in one. -/
theorem Takes.trans (h : s.Takes input s' output) (h' : s'.Takes input' s'' output')
    (hpos : 0 < s.chunkSamples) : s.Takes (input ++ input') s'' (output ++ output') := by
  refine ⟨h'.filter.trans h.filter, h'.channels.trans h.channels, h'.chunk.trans h.chunk, ?_⟩
  have hlater := h'.fed
  rw [h.filter, h.chunkSamples_eq, Array.toList_append] at hlater
  have hsplit : (s.pending ++ (input ++ input')).toList =
      (s.pending ++ input).toList ++ input'.toList := by
    rw [← Array.append_assoc, Array.toList_append]
  rw [hsplit, Filter.feed_append hpos, h.fed]
  simp only [hlater, Array.toList_append]

theorem Takes.dvd_output (h : s.Takes input s' output) (hs : s.Ready) :
    s.channels ∣ output.size := by
  have hdvd := hs.reliable.dvd_output hs.chunkSamples_pos (s.pending ++ input).toList
  change s.channels ∣ (s.filter.feed s.chunkSamples ..).output.length at hdvd
  rw [h.fed] at hdvd
  exact hdvd

/-- Whole frames of input leave whole frames that do not fill a chunk. -/
theorem Takes.ready (h : s.Takes input s' output) (hs : s.Ready)
    (hinput : s.channels ∣ input.size) : s'.Ready := by
  have hpos := hs.chunkSamples_pos
  have hreliable := hs.reliable.feed hpos (s.pending ++ input).toList
  have hrest := Filter.length_rest_feed (f := s.filter) hpos s.state (s.pending ++ input).toList
  change s.filter.Reliable s.channels s.chunk (s.filter.feed s.chunkSamples ..).state at hreliable
  rw [h.fed] at hreliable hrest
  rw [Array.length_toList, Array.length_toList] at hrest
  refine ⟨h.channels ▸ hs.audible, ?_, ?_, ?_⟩
  · rw [h.filter, h.channels, h.chunk]
    exact hreliable
  · rw [hrest, h.chunkSamples_eq]
    exact Nat.mod_lt _ hpos
  · rw [hrest, h.channels, Array.size_append]
    exact (Nat.dvd_mod_iff (Nat.dvd_mul_left ..)).2 (Nat.dvd_add hs.whole hinput)

/-- At the end the filter takes what waits. -/
theorem flush_eq (h : s.Ready) (htail : s.pendingFrames ≠ 0) :
    ∃ out, s.flush =
      ({ s with state := (s.filter.run s.state s.pending).1, pending := #[], out },
        (s.filter.run s.state s.pending).2) := by
  have hall : s.pending.extract 0 (s.pendingFrames * s.channels) = s.pending := by
    rw [pendingFrames, Nat.div_mul_cancel h.whole, Array.extract_size]
  obtain ⟨frames, hframes, hyield⟩ := h.reliable.now h.whole (Nat.le_of_lt h.waiting)
  have hroom : (s.filter.run s.state s.pending).2.size ≤
      (grown s.out (s.filter.bound * s.channels) 0.0).size := by
    rw [hyield]
    exact Nat.le_trans (Nat.mul_le_mul_right _ hframes) (le_size_grown ..)
  simp only [flush, if_neg htail, call, reserve, Nat.zero_add, hall, front_overwrite rfl hroom]
  exact ⟨_, rfl⟩

end Stage

end Jukebox.Rate
