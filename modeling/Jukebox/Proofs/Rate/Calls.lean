import Jukebox.Proofs.Rate.Chunks
import Mathlib.Algebra.BigOperators.Ring.List
import Mathlib.Algebra.Order.BigOperators.Group.List
import Mathlib.Algebra.Order.Ring.Nat

/-!
The calls that a stage makes of its filter, each with the stage as it finds it. A call is given samples
that wait, whole frames and at most a chunk of them, and finds room for the most that the filter may
yield. What the calls have been given is the front of all that came in, in the order in which it came,
and the rest of it waits; what a turn yields is what its own calls have yielded.
-/

namespace Jukebox.Rate

variable {σ : Type}

/-- What a filter may be given at a time: whole frames, and at most a chunk of them. -/
structure Portion (channels chunk : Nat) (xs : Array Float32) : Prop where
  whole : channels ∣ xs.size
  short : xs.size ≤ chunk * channels

/-- What is promised of a filter from a state on, for good: after any portions another one gives whole
frames, at most `bound` of them. -/
def Filter.Dependable (f : Filter σ) (channels chunk : Nat) (s : σ) : Prop :=
  ∀ inputs : List (Array Float32), (∀ x ∈ inputs, Portion channels chunk x) →
    ∀ input : Array Float32, Portion channels chunk input →
      ∃ frames, frames ≤ f.bound ∧ (f.run (f.after s inputs) input).2.size = frames * channels

namespace Filter

variable {f : Filter σ} {channels chunk : Nat} {s : σ} {inputs : List (Array Float32)}
  {input : Array Float32}

/-- What is promised for good is promised up to the first shorter chunk. -/
theorem Dependable.reliable (h : f.Dependable channels chunk s) : f.Reliable channels chunk s := by
  intro inputs hinputs input hdvd hle
  refine h inputs (fun x hx => ?_) input ⟨hdvd, hle⟩
  exact ⟨hinputs x hx ▸ Nat.dvd_mul_left .., Nat.le_of_eq (hinputs x hx)⟩

theorem Dependable.after (h : f.Dependable channels chunk s)
    (hinputs : ∀ x ∈ inputs, Portion channels chunk x) :
    f.Dependable channels chunk (f.after s inputs) := by
  intro later hlater
  have hafter : f.after (f.after s inputs) later = f.after s (inputs ++ later) :=
    List.foldl_append.symm
  rw [hafter]
  exact h (inputs ++ later) (List.forall_mem_append.2 ⟨hinputs, hlater⟩)

theorem Dependable.now (h : f.Dependable channels chunk s) (hinput : Portion channels chunk input) :
    ∃ frames, frames ≤ f.bound ∧ (f.run s input).2.size = frames * channels :=
  h [] (by simp) input hinput

end Filter

namespace Stage

/-- A call of the filter, with the stage as it finds it. -/
structure Call (σ : Type) where
  stage : Stage σ
  /-- Where the samples that the filter is given begin. -/
  start : Nat
  /-- How many these are. -/
  count : Nat
  /-- How many samples of output there are already. -/
  produced : Nat

namespace Call

/-- The samples that the filter is given. -/
def given (c : Call σ) : Array Float32 := c.stage.pending.extract c.start (c.start + c.count)

/-- The samples that the filter yields. -/
def yielded (c : Call σ) : Array Float32 := (c.stage.filter.run c.stage.state c.given).2

/-- What the call leaves. -/
def result (c : Call σ) : Stage σ × Nat := c.stage.call c.start c.count c.produced

/-- How many frames the filter is given. -/
def frames (c : Call σ) : Nat := c.given.size / c.stage.channels

/-- The filter is given a portion of the samples that wait, there is room in the output buffer for the
most that it may yield, and it yields no more. -/
structure Fits (c : Call σ) : Prop where
  inside : c.start + c.count ≤ c.stage.pending.size
  portion : Portion c.stage.channels c.stage.chunk c.given
  room : c.produced + c.stage.filter.bound * c.stage.channels ≤ c.stage.out.size
  modest : ∃ frames, frames ≤ c.stage.filter.bound ∧ c.yielded.size = frames * c.stage.channels

theorem Fits.size_yielded_le {c : Call σ} (h : c.Fits) :
    c.yielded.size ≤ c.stage.filter.bound * c.stage.channels := by
  obtain ⟨frames, hframes, hsize⟩ := h.modest
  rw [hsize]
  exact Nat.mul_le_mul_right _ hframes

end Call

/-- The call for the chunk with this index. -/
def chunkCall (s : Stage σ) (index produced : Nat) : Call σ :=
  ⟨s, index * s.chunkSamples, s.chunkSamples, produced⟩

/-- The calls for so many whole chunks, from the `index`-th on. -/
def chunkCalls (index produced : Nat) (s : Stage σ) : (count : Nat) → List (Call σ)
  | 0 => []
  | count + 1 =>
    let c := s.chunkCall index produced
    c :: chunkCalls (index + 1) c.result.2 c.result.1 count

/-- What can be asked of a stage. -/
inductive Turn where
  | process (input : Array Float32)
  | flush

namespace Turn

/-- The samples that come in. -/
def input : Turn → Array Float32
  | .process input => input
  | .flush => #[]

end Turn

/-- One turn: what is left, and what it yields. -/
def turn (s : Stage σ) : Turn → Stage σ × Array Float32
  | .process input => s.process input
  | .flush => s.flush

/-- The calls of one turn. -/
def calls (s : Stage σ) : Turn → List (Call σ)
  | .process input =>
    let s := { s with pending := s.pending ++ input }
    let count := s.pendingFrames / s.chunk
    chunkCalls 0 0 (s.reserve (count * s.filter.bound)) count
  | .flush =>
    if s.pendingFrames = 0 then []
    else [⟨s.reserve s.filter.bound, 0, s.pendingFrames * s.channels, 0⟩]

/-- The most frames that one turn is said to yield, before it is taken. -/
def announced (s : Stage σ) : Turn → Nat
  | .process input => s.maxOutput (input.size / s.channels)
  | .flush => s.maxFlush

/-- The stage after some turns. -/
def run (s : Stage σ) (turns : List Turn) : Stage σ := turns.foldl (fun s t => (s.turn t).1) s

/-- The calls of some turns. -/
def callsOf (s : Stage σ) : List Turn → List (Call σ)
  | [] => []
  | t :: turns => s.calls t ++ callsOf (s.turn t).1 turns

/-- Stages with one filter, for chunks of one size. -/
structure Alike (s s' : Stage σ) : Prop where
  filter : s'.filter = s.filter
  channels : s'.channels = s.channels
  chunk : s'.chunk = s.chunk

/-- A stage between two turns whose filter keeps its promise for good. -/
structure Sound (s : Stage σ) : Prop where
  ready : s.Ready
  dependable : s.filter.Dependable s.channels s.chunk s.state

/-- From a stage to a later one some calls are made, and some input comes in: the filter has been given
the front of what was there and came in, and the rest waits. -/
structure Hands (s : Stage σ) (calls : List (Call σ)) (input : List Float32) (s' : Stage σ) :
    Prop where
  alike : s.Alike s'
  on : ∀ c ∈ calls, s.Alike c.stage
  fits : ∀ c ∈ calls, c.Fits
  state : s'.state = s.filter.after s.state (calls.map Call.given)
  handed : (calls.flatMap fun c => c.given.toList) ++ s'.pending.toList = s.pending.toList ++ input

/-- All that comes in. -/
def fed (turns : List Turn) : List Float32 := turns.flatMap fun t => t.input.toList

/-- After some turns less than a chunk waits, and the frames that came in are those that the filter has
been given and those that wait. -/
structure Conserves (s : Stage σ) (turns : List Turn) : Prop where
  waiting : (s.run turns).pendingFrames < s.chunk
  frames : ((s.callsOf turns).map Call.frames).sum + (s.run turns).pendingFrames =
    s.pendingFrames + (fed turns).length / s.channels
  hands : s.Hands (s.callsOf turns) (fed turns) (s.run turns)

/-- The calls of a turn find what the calls before them leave, and they fit. The turn yields what they
yield, in whole frames, and not more of them than were announced. -/
structure Delivers (s : Stage σ) (t : Turn) : Prop where
  pending : ∀ c ∈ s.calls t, c.stage.pending = s.pending ++ t.input
  chained : (s.calls t).IsChain fun c c' => (c'.stage, c'.produced) = c.result
  last : ∀ c ∈ (s.calls t).getLast?, (s.turn t).2 = c.result.1.out.extract 0 c.result.2
  fits : ∀ c ∈ s.calls t, c.Fits
  output : (s.turn t).2.toList = (s.calls t).flatMap fun c => c.yielded.toList
  announced : ∃ frames, frames ≤ s.announced t ∧ (s.turn t).2.size = frames * s.channels

variable {s s' s'' : Stage σ} {c : Call σ} {t : Turn} {index produced count : Nat}
  {calls calls' : List (Call σ)} {input input' : List Float32} {turns : List Turn}

/-! ### The calls for whole chunks -/

theorem length_chunkCalls (count index produced : Nat) (s : Stage σ) :
    (chunkCalls index produced s count).length = count := by
  induction count generalizing s index produced with
  | zero => rfl
  | succ count ih => rw [chunkCalls, List.length_cons, ih]

/-- Nothing but the state of the filter and the output buffer changes from call to call. -/
theorem alike_chunkCalls (count index produced : Nat) (s : Stage σ) :
    ∀ c ∈ chunkCalls index produced s count, s.Alike c.stage ∧ c.stage.pending = s.pending := by
  induction count generalizing s index produced with
  | zero => exact fun _ => nofun
  | succ count ih =>
    intro c hc
    rcases List.mem_cons.1 hc with rfl | hc
    · exact ⟨⟨rfl, rfl, rfl⟩, rfl⟩
    · obtain ⟨⟨hfilter, hchannels, hchunk⟩, hpending⟩ := ih _ _ _ c hc
      exact ⟨⟨hfilter, hchannels, hchunk⟩, hpending⟩

/-- Each call finds the stage that the one before leaves. -/
theorem isChain_chunkCalls (count index produced : Nat) (s : Stage σ) :
    (chunkCalls index produced s count).IsChain fun c c' => (c'.stage, c'.produced) = c.result := by
  induction count generalizing s index produced with
  | zero => exact .nil
  | succ count ih =>
    have hlater := ih (index + 1) (s.chunkCall index produced).result.2
      (s.chunkCall index produced).result.1
    cases count with
    | zero => exact .singleton _
    | succ count => exact .cons_cons rfl hlater

/-- The chunks leave what the last call leaves. -/
theorem chunks_eq_last (count index produced : Nat) (s : Stage σ) :
    ∀ c ∈ (chunkCalls index produced s count).getLast?, s.chunks index produced count = c.result := by
  induction count generalizing s index produced with
  | zero => exact fun _ => nofun
  | succ count ih =>
    intro c hc
    cases count with
    | zero =>
      obtain rfl := Option.some.inj hc
      rfl
    | succ count => exact ih (index + 1) _ _ c hc

theorem given_chunkCall (s : Stage σ) (index produced : Nat) :
    (s.chunkCall index produced).given.toList =
      (s.pending.toList.drop (index * s.chunkSamples)).take s.chunkSamples := by
  rw [Call.given, Array.toList_extract, List.extract_eq_take_drop, chunkCall,
    Nat.add_sub_cancel_left]

/-- The calls are given the pending samples, from the `index`-th chunk on. -/
theorem given_chunkCalls (count index produced : Nat) (s : Stage σ) :
    ((chunkCalls index produced s count).flatMap fun c => c.given.toList) =
      (s.pending.toList.drop (index * s.chunkSamples)).take (count * s.chunkSamples) := by
  induction count generalizing s index produced with
  | zero =>
    rw [Nat.zero_mul, List.take_zero]
    rfl
  | succ count ih =>
    have hlater : ((chunkCalls (index + 1) (s.chunkCall index produced).result.2
        (s.chunkCall index produced).result.1 count).flatMap fun c => c.given.toList) =
        (s.pending.toList.drop ((index + 1) * s.chunkSamples)).take (count * s.chunkSamples) :=
      ih (index + 1) _ _
    rw [chunkCalls, List.flatMap_cons, given_chunkCall, hlater, Nat.succ_mul index,
      ← List.drop_drop, ← List.take_add, Nat.succ_mul, Nat.add_comm s.chunkSamples]

/-- The filter is in the state in which what the calls are given leaves it. -/
theorem state_chunks (count index produced : Nat) (s : Stage σ) :
    (s.chunks index produced count).1.state =
      s.filter.after s.state ((chunkCalls index produced s count).map Call.given) := by
  induction count generalizing s index produced with
  | zero => rfl
  | succ count ih => exact ih (index + 1) _ _

/-- A chunk that waits, and room in the output buffer for all that the filter may yield. -/
theorem fits_chunkCall (hfilter : s.filter.Dependable s.channels s.chunk s.state)
    (hin : (index + 1) * s.chunkSamples ≤ s.pending.size)
    (hout : produced + s.filter.bound * s.channels ≤ s.out.size) :
    (s.chunkCall index produced).Fits := by
  rw [Nat.succ_mul] at hin
  have hsize : (s.chunkCall index produced).given.size = s.chunk * s.channels := by
    rw [Call.given, Array.size_extract, chunkCall, Nat.min_eq_left hin, Nat.add_sub_cancel_left,
      chunkSamples]
  have hportion : Portion s.channels s.chunk (s.chunkCall index produced).given :=
    ⟨hsize ▸ Nat.dvd_mul_left .., Nat.le_of_eq hsize⟩
  exact ⟨hin, hportion, hout, hfilter.now hportion⟩

theorem Call.Fits.yielded_fits (h : c.Fits) : c.produced + c.yielded.size ≤ c.stage.out.size :=
  Nat.le_trans (Nat.add_le_add_left h.size_yielded_le _) h.room

/-- A call leaves an output buffer of the size that it finds. -/
theorem Call.Fits.size_out (h : c.Fits) : c.result.1.out.size = c.stage.out.size :=
  size_overwrite h.yielded_fits

/-- A call puts what it yields behind what it finds in the output buffer. -/
theorem Call.Fits.take_out (h : c.Fits) :
    c.result.1.out.toList.take c.result.2 = c.stage.out.toList.take c.produced ++ c.yielded.toList :=
  take_overwrite h.yielded_fits

/-- Chunks that wait, and room in the output buffer for all that the filter may yield. -/
theorem fits_chunkCalls (count index produced : Nat) {s : Stage σ}
    (hfilter : s.filter.Dependable s.channels s.chunk s.state)
    (hin : (index + count) * s.chunkSamples ≤ s.pending.size)
    (hout : produced + count * (s.filter.bound * s.channels) ≤ s.out.size) :
    ∀ c ∈ chunkCalls index produced s count, c.Fits := by
  induction count generalizing s index produced with
  | zero => exact fun _ => nofun
  | succ count ih =>
    rw [Nat.succ_mul] at hout
    have hfirst : (index + 1) * s.chunkSamples ≤ s.pending.size :=
      Nat.le_trans (Nat.mul_le_mul_right _ (by omega)) hin
    have hcall := fits_chunkCall hfilter hfirst (by omega : produced + _ ≤ _)
    intro c hc
    rcases List.mem_cons.1 hc with rfl | hc
    · exact hcall
    -- the first call takes no more room than `bound` frames, so that the calls behind it find theirs
    · have hstate : s.filter.Dependable s.channels s.chunk
          (s.filter.after s.state [(s.chunkCall index produced).given]) :=
        hfilter.after (List.forall_mem_singleton.2 hcall.portion)
      have hyield : (s.chunkCall index produced).yielded.size ≤ s.filter.bound * s.channels :=
        hcall.size_yielded_le
      have hsize : (s.chunkCall index produced).result.1.out.size = s.out.size := hcall.size_out
      have hroom : produced + (s.chunkCall index produced).yielded.size +
          count * (s.filter.bound * s.channels) ≤ s.out.size := by omega
      refine ih (index + 1) _ (s := (s.chunkCall index produced).result.1) hstate ?_ ?_ c hc
      · rw [show index + 1 + count = index + (count + 1) by omega]
        exact hin
      · rw [hsize]
        exact hroom

/-- What the calls yield stands in the output buffer, behind what was there. -/
theorem out_chunks (count index produced : Nat) {s : Stage σ}
    (hfits : ∀ c ∈ chunkCalls index produced s count, c.Fits) :
    (s.chunks index produced count).1.out.toList.take (s.chunks index produced count).2 =
      s.out.toList.take produced ++
        (chunkCalls index produced s count).flatMap fun c => c.yielded.toList := by
  induction count generalizing s index produced with
  | zero => exact (List.append_nil _).symm
  | succ count ih =>
    obtain ⟨hfirst, hlater⟩ := List.forall_mem_cons.1 hfits
    have hfront := hfirst.take_out
    have hrun := ih (index + 1) _ hlater
    rw [hfront] at hrun
    rw [chunkCalls, List.flatMap_cons, ← List.append_assoc]
    exact hrun

/-! ### From one stage to a later one -/

theorem Alike.refl (s : Stage σ) : s.Alike s := ⟨rfl, rfl, rfl⟩

theorem Alike.trans (h : s.Alike s') (h' : s'.Alike s'') : s.Alike s'' :=
  ⟨h'.filter.trans h.filter, h'.channels.trans h.channels, h'.chunk.trans h.chunk⟩

theorem Hands.refl (s : Stage σ) : s.Hands [] [] s :=
  ⟨.refl s, fun _ => nofun, fun _ => nofun, rfl, (List.append_nil _).symm⟩

theorem Hands.trans (h : s.Hands calls input s') (h' : s'.Hands calls' input' s'') :
    s.Hands (calls ++ calls') (input ++ input') s'' where
  alike := h.alike.trans h'.alike
  on := List.forall_mem_append.2 ⟨h.on, fun c hc => h.alike.trans (h'.on c hc)⟩
  fits := List.forall_mem_append.2 ⟨h.fits, h'.fits⟩
  state := by
    rw [h'.state, h.state, h.alike.filter, List.map_append]
    exact List.foldl_append.symm
  handed := by
    rw [List.flatMap_append, List.append_assoc, h'.handed, ← List.append_assoc, h.handed,
      List.append_assoc]

/-- The filter has been given portions, so its promise holds on. -/
theorem Hands.dependable (h : s.Hands calls input s')
    (hs : s.filter.Dependable s.channels s.chunk s.state) :
    s'.filter.Dependable s'.channels s'.chunk s'.state := by
  have hportions : ∀ x ∈ calls.map Call.given, Portion s.channels s.chunk x := by
    intro x hx
    obtain ⟨c, hc, rfl⟩ := List.mem_map.1 hx
    obtain ⟨-, hchannels, hchunk⟩ := h.on c hc
    rw [← hchannels, ← hchunk]
    exact (h.fits c hc).portion
  rw [h.alike.filter, h.alike.channels, h.alike.chunk, h.state]
  exact hs.after hportions

/-- The samples of all calls together, counted in frames. -/
theorem length_frames {samples : Call σ → Array Float32} {channels : Nat}
    (h : ∀ c ∈ calls, channels ∣ (samples c).size) :
    (calls.flatMap fun c => (samples c).toList).length =
      (calls.map fun c => (samples c).size / channels).sum * channels := by
  rw [List.length_flatMap, ← List.sum_map_mul_right]
  refine congrArg List.sum (List.map_congr_left fun c hc => ?_)
  rw [Array.length_toList, Nat.div_mul_cancel (h c hc)]

/-- Frames that the filter has been given, and frames that wait, are those that waited before and those
that came in. -/
theorem Hands.frames (h : s.Hands calls input s') (hs : s.Ready) (hs' : s'.Ready) :
    (calls.map Call.frames).sum + s'.pendingFrames = s.pendingFrames + input.length / s.channels := by
  have hcounts : calls.map Call.frames = calls.map fun c => c.given.size / s.channels :=
    List.map_congr_left fun c hc => by rw [Call.frames, (h.on c hc).channels]
  have hgiven := length_frames fun c hc => (h.on c hc).channels ▸ (h.fits c hc).portion.whole
  have hwait : s.pending.size = s.pendingFrames * s.channels := (Nat.div_mul_cancel hs.whole).symm
  have hwait' : s'.pending.size = s'.pendingFrames * s.channels := by
    rw [← h.alike.channels]
    exact (Nat.div_mul_cancel hs'.whole).symm
  have hsamples := congrArg List.length h.handed
  rw [List.length_append, List.length_append, hgiven, Array.length_toList, Array.length_toList,
    hwait, hwait', ← hcounts, ← Nat.add_mul] at hsamples
  calc (calls.map Call.frames).sum + s'.pendingFrames
    _ = (s.pendingFrames * s.channels + input.length) / s.channels := by
      rw [← hsamples, Nat.mul_div_cancel _ hs.audible]
    _ = s.pendingFrames + input.length / s.channels := by
      rw [Nat.mul_comm, Nat.mul_add_div hs.audible]

/-- All that some calls yield. -/
theorem exists_yielded (hon : ∀ c ∈ calls, s.Alike c.stage) (hfits : ∀ c ∈ calls, c.Fits)
    (hs : 0 < s.channels) :
    ∃ frames, frames ≤ calls.length * s.filter.bound ∧
      (calls.flatMap fun c => c.yielded.toList).length = frames * s.channels := by
  have hyield : ∀ c ∈ calls, ∃ frames, frames ≤ s.filter.bound ∧
      c.yielded.size = frames * s.channels := by
    intro c hc
    rw [← (hon c hc).filter, ← (hon c hc).channels]
    exact (hfits c hc).modest
  refine ⟨_, ?_, length_frames fun c hc => ?_⟩
  · have hle : ∀ n ∈ calls.map (fun c => c.yielded.size / s.channels), n ≤ s.filter.bound := by
      intro n hn
      obtain ⟨c, hc, rfl⟩ := List.mem_map.1 hn
      obtain ⟨frames, hframes, hsize⟩ := hyield c hc
      rwa [hsize, Nat.mul_div_cancel _ hs]
    simpa using List.sum_le_card_nsmul _ _ hle
  · obtain ⟨frames, -, hsize⟩ := hyield c hc
    exact hsize ▸ Nat.dvd_mul_left ..

/-! ### One turn -/

/-- The stage that runs the whole chunks when input has come in, and how many there are. -/
def laden (s : Stage σ) (xs : Array Float32) : Stage σ × Nat :=
  let s := { s with pending := s.pending ++ xs }
  let count := s.pendingFrames / s.chunk
  (s.reserve (count * s.filter.bound), count)

theorem calls_process (s : Stage σ) (xs : Array Float32) :
    s.calls (.process xs) = chunkCalls 0 0 (s.laden xs).1 (s.laden xs).2 := rfl

theorem process_eq_chunks (s : Stage σ) (xs : Array Float32) :
    let y := (s.laden xs).1.chunks 0 0 (s.laden xs).2
    (s.process xs).1.state = y.1.state ∧ (s.process xs).2.toList = y.1.out.toList.take y.2 := by
  intro y
  by_cases hnone : (s.laden xs).2 = 0
  · have hy : y = ((s.laden xs).1, 0) := by rw [show y = chunks 0 0 _ _ from rfl, hnone]; rfl
    have hprocess : s.process xs = ({ s with pending := s.pending ++ xs }, #[]) := if_pos hnone
    rw [hy, hprocess]
    exact ⟨rfl, rfl⟩
  · have hprocess : s.process xs = ({ y.1 with
        pending := y.1.pending.extract ((s.laden xs).2 * y.1.chunkSamples) y.1.pending.size },
        y.1.out.extract 0 y.2) := if_neg hnone
    rw [hprocess, Array.toList_extract, List.extract_eq_take_drop]
    exact ⟨rfl, rfl⟩

theorem laden_count (s : Stage σ) (xs : Array Float32) :
    (s.laden xs).2 = (s.pending ++ xs).size / s.chunkSamples := by
  rw [chunkSamples, Nat.mul_comm, ← Nat.div_div_eq_div_mul]
  rfl

theorem Sound.fits_process (h : s.Sound) (xs : Array Float32) :
    ∀ c ∈ s.calls (.process xs), c.Fits := by
  refine fits_chunkCalls (s.laden xs).2 0 0 h.dependable ?_ ?_
  · rw [Nat.zero_add, laden_count]
    exact Nat.div_mul_le_self ..
  · rw [Nat.zero_add, ← Nat.mul_assoc]
    exact le_size_grown ..

/-- What whole chunks leave waits on. -/
theorem Ready.pending_process (h : s.Ready) (xs : Array Float32) :
    (s.process xs).1.pending.toList =
      (s.pending ++ xs).toList.drop ((s.laden xs).2 * s.chunkSamples) := by
  obtain ⟨out, hrun⟩ := process_eq h xs
  rw [hrun, laden_count, Nat.mul_comm, ← Array.length_toList]
  exact Filter.rest_feed h.chunkSamples_pos ..

theorem Sound.hands_process (h : s.Sound) (xs : Array Float32) :
    s.Hands (s.calls (.process xs)) xs.toList (s.process xs).1 where
  alike :=
    have htakes := h.ready.takes xs
    ⟨htakes.filter, htakes.channels, htakes.chunk⟩
  on c hc :=
    have halike := (alike_chunkCalls _ _ _ _ c hc).1
    ⟨halike.filter, halike.channels, halike.chunk⟩
  fits := h.fits_process xs
  state := (process_eq_chunks s xs).1.trans (state_chunks ..)
  handed := by
    have hgiven := given_chunkCalls (s.laden xs).2 0 0 (s.laden xs).1
    rw [Nat.zero_mul, List.drop_zero] at hgiven
    rw [calls_process, hgiven, h.ready.pending_process]
    exact (List.take_append_drop ..).trans Array.toList_append

/-- The call for all that waits at the end. -/
def tailCall (s : Stage σ) : Call σ := ⟨s.reserve s.filter.bound, 0, s.pending.size, 0⟩

@[simp]
theorem given_tailCall (s : Stage σ) : s.tailCall.given = s.pending := by
  rw [Call.given, tailCall, Nat.zero_add]
  exact Array.extract_size

/-- At the end there is nothing to do if no frame waits, and otherwise there is one call. -/
theorem Ready.flush_cases (h : s.Ready) :
    (s.calls .flush = [] ∧ s.flush = (s, #[])) ∨
      (s.pending ≠ #[] ∧ s.calls .flush = [s.tailCall] ∧
        ∃ out, s.flush =
          ({ s with state := s.filter.after s.state [s.pending], pending := #[], out },
            s.tailCall.yielded)) := by
  by_cases htail : s.pendingFrames = 0
  · exact .inl ⟨if_pos htail, if_pos htail⟩
  · obtain ⟨out, hflush⟩ := flush_eq h htail
    refine .inr ⟨?_, ?_, out, ?_⟩
    · rintro hempty
      exact htail (by rw [pendingFrames, hempty]; exact Nat.zero_div _)
    · rw [calls, if_neg htail, pendingFrames, Nat.div_mul_cancel h.whole]
      rfl
    · rw [hflush, Call.yielded, given_tailCall]
      rfl

theorem Sound.fits_tailCall (h : s.Sound) : s.tailCall.Fits := by
  have hportion : Portion s.channels s.chunk s.pending := ⟨h.ready.whole, Nat.le_of_lt h.ready.waiting⟩
  refine ⟨Nat.le_of_eq (Nat.zero_add _), ?_, ?_, ?_⟩
  · rw [given_tailCall]
    exact hportion
  · rw [tailCall, Nat.zero_add]
    exact le_size_grown ..
  · rw [Call.yielded, given_tailCall]
    exact h.dependable.now hportion

theorem Sound.hands_flush (h : s.Sound) : s.Hands (s.calls .flush) [] s.flush.1 := by
  rcases h.ready.flush_cases with ⟨hcalls, hflush⟩ | ⟨-, hcalls, out, hflush⟩
  · rw [hcalls, hflush]
    exact .refl s
  · rw [hcalls, hflush]
    refine ⟨⟨rfl, rfl, rfl⟩, List.forall_mem_singleton.2 ⟨rfl, rfl, rfl⟩,
      List.forall_mem_singleton.2 h.fits_tailCall, ?_, ?_⟩
    · rw [List.map_singleton, given_tailCall]
    · rw [List.flatMap_singleton, given_tailCall]

theorem Sound.hands (h : s.Sound) (t : Turn) : s.Hands (s.calls t) t.input.toList (s.turn t).1 := by
  cases t with
  | process xs => exact h.hands_process xs
  | flush => exact h.hands_flush

/-- Whole frames that come in leave whole frames that do not fill a chunk. -/
theorem Sound.turn (h : s.Sound) (ht : s.channels ∣ t.input.size) : (s.turn t).1.Sound := by
  refine ⟨?_, (h.hands t).dependable h.dependable⟩
  cases t with
  | process xs => exact (h.ready.takes xs).ready h.ready ht
  | flush =>
    have hdependable := (h.hands .flush).dependable h.dependable
    rcases h.ready.flush_cases with ⟨-, hflush⟩ | ⟨-, -, out, hflush⟩
    · rw [Stage.turn, hflush]
      exact h.ready
    · rw [Stage.turn, hflush] at hdependable ⊢
      exact ⟨h.ready.audible, hdependable.reliable, h.ready.chunkSamples_pos, Nat.dvd_zero _⟩

/-- A turn yields what its own calls have yielded, and nothing else that the output buffer holds. -/
theorem Sound.output (h : s.Sound) (t : Turn) :
    (s.turn t).2.toList = (s.calls t).flatMap fun c => c.yielded.toList := by
  cases t with
  | process xs =>
    have hfits := h.fits_process xs
    rw [calls_process] at hfits
    exact (process_eq_chunks s xs).2.trans (out_chunks (s.laden xs).2 0 0 hfits)
  | flush =>
    rcases h.ready.flush_cases with ⟨hcalls, hflush⟩ | ⟨-, hcalls, out, hflush⟩
    · rw [Stage.turn, hcalls, hflush]
      rfl
    · rw [Stage.turn, hcalls, hflush, List.flatMap_singleton]

/-- A turn makes no more calls than were announced. -/
theorem Sound.length_calls_le (h : s.Sound) (t : Turn) :
    (s.calls t).length * s.filter.bound ≤ s.announced t := by
  cases t with
  | process xs =>
    have hcount : (s.laden xs).2 = (s.pendingFrames + xs.size / s.channels) / s.chunk := by
      obtain ⟨frames, hframes⟩ := h.ready.whole
      rw [pendingFrames, hframes, Nat.mul_div_cancel_left _ h.ready.audible,
        ← Nat.mul_add_div h.ready.audible, ← hframes, ← Array.size_append]
      rfl
    rw [calls_process, length_chunkCalls, hcount]
    exact Nat.le_refl _
  | flush =>
    rcases h.ready.flush_cases with ⟨hcalls, -⟩ | ⟨hsome, hcalls, -⟩
    · rw [hcalls, List.length_nil, Nat.zero_mul]
      exact Nat.zero_le _
    · rw [hcalls, announced, maxFlush, Array.isEmpty_eq_false_iff.2 hsome]
      exact Nat.le_of_eq (Nat.one_mul _)

theorem pending_calls (s : Stage σ) (t : Turn) :
    ∀ c ∈ s.calls t, c.stage.pending = s.pending ++ t.input := by
  cases t with
  | process xs => exact fun c hc => (alike_chunkCalls _ _ _ _ c hc).2
  | flush =>
    rw [calls]
    split
    · exact fun _ => nofun
    · exact List.forall_mem_singleton.2 Array.append_empty.symm

theorem isChain_calls (s : Stage σ) (t : Turn) :
    (s.calls t).IsChain fun c c' => (c'.stage, c'.produced) = c.result := by
  cases t with
  | process xs => exact isChain_chunkCalls ..
  | flush =>
    rw [calls]
    split
    · exact .nil
    · exact .singleton _

/-- A turn yields the front of the output buffer, up to where its last call has come. -/
theorem turn_eq_last (s : Stage σ) (t : Turn) :
    ∀ c ∈ (s.calls t).getLast?, (s.turn t).2 = c.result.1.out.extract 0 c.result.2 := by
  intro c hc
  cases t with
  | process xs =>
    have hlast := chunks_eq_last (s.laden xs).2 0 0 (s.laden xs).1 c hc
    by_cases hnone : (s.laden xs).2 = 0
    · rw [calls_process, hnone] at hc
      cases hc
    · rw [← hlast]
      exact congrArg Prod.snd (if_neg hnone)
  | flush =>
    by_cases htail : s.pendingFrames = 0
    · rw [calls, if_pos htail] at hc
      cases hc
    · rw [calls, if_neg htail] at hc
      obtain rfl := Option.some.inj hc
      exact congrArg Prod.snd (if_neg htail)

theorem Sound.delivers (h : s.Sound) (t : Turn) : s.Delivers t := by
  have hhands := h.hands t
  obtain ⟨frames, hframes, hsize⟩ := exists_yielded hhands.on hhands.fits h.ready.audible
  rw [← h.output, Array.length_toList] at hsize
  exact ⟨pending_calls s t, isChain_calls s t, turn_eq_last s t, hhands.fits, h.output t, frames,
    Nat.le_trans hframes (h.length_calls_le t), hsize⟩

/-! ### Any turns -/

theorem Sound.run (h : s.Sound) (hturns : ∀ t ∈ turns, s.channels ∣ t.input.size) :
    (s.run turns).Sound ∧ s.Hands (s.callsOf turns) (fed turns) (s.run turns) := by
  induction turns generalizing s with
  | nil => exact ⟨h, .refl s⟩
  | cons t turns ih =>
    obtain ⟨ht, hturns⟩ := List.forall_mem_cons.1 hturns
    have hhands := h.hands t
    rw [← hhands.alike.channels] at hturns
    -- what a later turn finds is sound, since this one has handed the filter nothing but portions
    obtain ⟨hsound, hlater⟩ := ih (h.turn ht) hturns
    exact ⟨hsound, hhands.trans hlater⟩

theorem Sound.conserves (h : s.Sound) (hturns : ∀ t ∈ turns, s.channels ∣ t.input.size) :
    s.Conserves turns := by
  obtain ⟨hsound, hhands⟩ := h.run hturns
  refine ⟨?_, hhands.frames h.ready hsound.ready, hhands⟩
  have hwaiting := hsound.ready.waiting
  rw [chunkSamples, Nat.mul_comm, hhands.alike.chunk] at hwaiting
  exact Nat.div_lt_of_lt_mul hwaiting

/-- A stage that nothing has come in to is sound. -/
theorem sound_start {filter : Filter σ} {state : σ} {channels chunk : Nat} (hchunk : 1 ≤ chunk)
    (hchannels : 1 ≤ channels) (hfilter : filter.Dependable channels chunk state) :
    Sound { filter, state, channels, chunk } :=
  ⟨⟨hchannels, hfilter.reliable, Nat.mul_pos hchunk hchannels, Nat.dvd_zero _⟩, hfilter⟩

end Stage

end Jukebox.Rate
