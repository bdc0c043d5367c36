import Jukebox.Proofs.Rate.Chunks
import Jukebox.Proofs.Rate.Frames

/-!
A converter at work. What it gives back for a decoded frame are the bytes of the samples that its
filter yields, whatever an earlier and longer result has left in the scratch area. All results
together, and what is left at the end, are a function of the samples alone: it does not matter how
they were cut into frames.
-/

namespace Jukebox.Rate

variable {σ : Type}

/-- The samples that a filter makes of all chunks of a signal, and of a shorter last one. -/
def Filter.whole (f : Filter σ) (size : Nat) (s : σ) (xs : Array Float32) : Array Float32 :=
  let fed := f.feed size s xs.toList
  let last := if fed.rest = [] then #[] else (f.run fed.state fed.rest.toArray).2
  fed.output.toArray ++ last

namespace Resampler

variable {r : Resampler σ} {stage : Stage σ}

/-- A converter between layouts of different rates, before its first frame. -/
def fresh (source : Media.Layout) (target : Format) (filter : Filter σ) (state : σ) (chunk : Nat) :
    Resampler σ :=
  { source, target, rate := some { filter, state, channels := target.channels, chunk } }

/-- Converts frames one after the other, as long as there is no error. -/
def convertAll (r : Resampler σ) : List Media.Frame → Except Fault (Resampler σ × Bytes)
  | [] => .ok (r, #[])
  | f :: fs =>
    match r.convert f with
    | (_, .error e) => .error e
    | (r, .ok c) => (r.convertAll fs).map fun (r, bytes) => (r, c.bytes ++ bytes)

/-- Converts frames one after the other and then what is left at the end. -/
def transcode (r : Resampler σ) (fs : List Media.Frame) : Except Fault (Resampler σ × Bytes) :=
  (r.convertAll fs).map fun (r, bytes) => (r.flush.1, bytes ++ r.flush.2.bytes)

/-! ### One call -/

/-- What is encoded does not depend on what the scratch area holds. -/
theorem encode_eq {samples : Array Float32} (h : max r.target.channels 1 ∣ samples.size) :
    ∃ scratch, r.encode samples =
      ({ r with scratch, generation := r.generation + 1 },
        ⟨r.target.encodeAll samples, samples.size / max r.target.channels 1,
          r.generation + 1⟩) := by
  unfold encode
  dsimp only
  rw [Nat.div_mul_cancel h, Array.extract_size, front_overwrite (r.target.size_encodeAll samples)
    (le_size_grown ..)]
  exact ⟨_, rfl⟩

theorem flush_none (h : r.rate = none) :
    r.flush = ({ r with generation := r.generation + 1 }, ⟨#[], 0, r.generation + 1⟩) := by
  simp only [flush, h, nothing]

theorem convert_empty {f : Media.Frame} (hlayout : f.layout = r.source) (h : f.frames = 0) :
    r.convert f =
      ({ r with generation := r.generation + 1 }, .ok ⟨#[], 0, r.generation + 1⟩) := by
  rw [convert, if_neg (not_not_intro hlayout), if_pos h]
  rfl

/-- Mapped channels are whole frames of the target. -/
theorem max_dvd_mapChannels (source target : Nat) (samples : Array Float32) :
    max target 1 ∣ (mapChannels source target samples).size := by
  rw [size_mapChannels]
  rcases Nat.eq_zero_or_pos target with rfl | hpos
  · exact Nat.dvd_zero _
  · rw [Nat.max_eq_left hpos]
    exact Nat.dvd_mul_left ..

/-- Without a filter the samples of a frame are mapped and encoded. -/
theorem convert_none {f : Media.Frame} (h : r.rate = none) (hlayout : f.layout = r.source)
    (hframes : f.frames ≠ 0) :
    ∃ scratch frames, r.convert f =
      ({ r with scratch, generation := r.generation + 1 },
        .ok ⟨r.target.encodeAll (mapChannels r.source.channels r.target.channels f.samples), frames,
          r.generation + 1⟩) := by
  obtain ⟨scratch, hencode⟩ := encode_eq (r := r.reserve f.frames)
    (max_dvd_mapChannels r.source.channels r.target.channels f.samples)
  have hrate : (r.reserve f.frames).rate = none := h
  have htarget : (r.reserve f.frames).target = r.target := rfl
  rw [convert, if_neg (not_not_intro hlayout), if_neg hframes, hlayout]
  simp only [hrate, htarget, hencode, h]
  exact ⟨_, _, rfl⟩

/-! ### A converter with a filter -/

/-- A converter between two calls, with a stage that has a filter for its target. -/
structure Filters (r : Resampler σ) (stage : Stage σ) : Prop where
  rate : r.rate = some stage
  channels : stage.channels = r.target.channels
  ready : stage.Ready

/-- With a filter the mapped samples of a frame are fed to it with what waits. -/
theorem Filters.convert (h : r.Filters stage) {f : Media.Frame} (hlayout : f.layout = r.source)
    (hsize : f.samples.size = f.frames * r.source.channels) :
    ∃ r' stage' c output, r.convert f = (r', .ok c) ∧ r'.Filters stage' ∧
      r'.source = r.source ∧ r'.target = r.target ∧
      stage.Takes (mapChannels r.source.channels r.target.channels f.samples) stage' output ∧
      c.bytes = r.target.encodeAll output := by
  generalize hmapped : mapChannels r.source.channels r.target.channels f.samples = mapped
  by_cases hframes : f.frames = 0
  · have hnone : mapped = #[] := by
      rw [← Array.size_eq_zero_iff, ← hmapped, size_mapChannels, hsize, hframes, Nat.zero_mul,
        Nat.zero_div, Nat.zero_mul]
    rw [hnone, convert_empty hlayout hframes]
    exact ⟨_, stage, _, #[], rfl, ⟨h.rate, h.channels, h.ready⟩, rfl, rfl, h.ready.takes_nothing,
      rfl⟩
  · have hdvd : stage.channels ∣ mapped.size := by
      rw [← hmapped, size_mapChannels, h.channels]
      exact Nat.dvd_mul_left ..
    have htakes := h.ready.takes mapped
    have hout : max r.target.channels 1 ∣ (stage.process mapped).2.size := by
      rw [← h.channels, Nat.max_eq_left h.ready.audible]
      exact htakes.dvd_output h.ready
    obtain ⟨scratch, hencode⟩ := encode_eq
      (r := { r.reserve f.frames with rate := some (stage.process mapped).1 }) hout
    have hrate : (r.reserve f.frames).rate = some stage := h.rate
    have htarget : (r.reserve f.frames).target = r.target := rfl
    simp only [htarget] at hencode
    rw [Resampler.convert, if_neg (not_not_intro hlayout), if_neg hframes, hlayout]
    simp only [hrate, htarget, hmapped, hencode]
    exact ⟨_, _, _, _, rfl, ⟨rfl, htakes.channels.trans h.channels, htakes.ready h.ready hdvd⟩,
      rfl, rfl, htakes, rfl⟩

/-- What is converted is what the filter yields of all mapped samples together. -/
theorem Filters.convertAll (fs : List Media.Frame) {r : Resampler σ} {stage : Stage σ}
    (h : r.Filters stage)
    (hfs : ∀ f ∈ fs, f.layout = r.source ∧ f.samples.size = f.frames * r.source.channels) :
    ∃ r' stage' output, r.convertAll fs = .ok (r', r.target.encodeAll output) ∧
      r'.Filters stage' ∧ r'.target = r.target ∧
      stage.Takes (mapChannels r.source.channels r.target.channels
        (fs.flatMap fun f => f.samples.toList).toArray) stage' output := by
  induction fs generalizing r stage with
  | nil =>
    have hnone : mapChannels r.source.channels r.target.channels #[] = #[] := by
      rw [← Array.size_eq_zero_iff, size_mapChannels, Array.size_empty, Nat.zero_div, Nat.zero_mul]
    refine ⟨r, stage, #[], rfl, h, rfl, ?_⟩
    rw [List.flatMap_nil, hnone]
    exact h.ready.takes_nothing
  | cons f fs ih =>
    obtain ⟨hf, hfs⟩ := List.forall_mem_cons.1 hfs
    obtain ⟨r', stage', c, output, hconvert, h', hsource, htarget, htakes, hbytes⟩ :=
      h.convert hf.1 hf.2
    obtain ⟨r'', stage'', output', hlater, h'', htarget', htakes'⟩ :=
      ih h' (by rw [hsource]; exact hfs)
    rw [hsource, htarget] at htakes'
    refine ⟨r'', stage'', output ++ output', ?_, h'', htarget'.trans htarget, ?_⟩
    · rw [Resampler.convertAll, hconvert]
      simp only [hlater, Except.map, htarget, hbytes, Format.encodeAll_append]
    · have hwhole : r.source.channels ∣ f.samples.size := hf.2 ▸ Nat.dvd_mul_left ..
      have hpieces : ((f :: fs).flatMap fun f => f.samples.toList).toArray =
          f.samples ++ (fs.flatMap fun f => f.samples.toList).toArray := by simp
      rw [hpieces, mapChannels_append _ _ hwhole]
      exact htakes.trans htakes' h.ready.chunkSamples_pos

theorem Filters.tail_eq_zero (h : r.Filters stage) :
    stage.pendingFrames = 0 ↔ stage.pending.toList = [] := by
  obtain ⟨frames, hframes⟩ := h.ready.whole
  rw [Stage.pendingFrames, hframes, Nat.mul_div_cancel_left _ h.ready.audible,
    ← List.length_eq_zero_iff, Array.length_toList, hframes, Nat.mul_eq_zero]
  have := h.ready.audible
  omega

theorem flush_done (hrate : r.rate = some stage) (h : stage.pendingFrames = 0) :
    r.flush = r.nothing := by
  simp only [Resampler.flush, hrate, if_pos h]

/-- At the end the filter is run on what waits, once. -/
theorem Filters.flush (h : r.Filters stage) :
    r.flush.2.bytes = r.target.encodeAll (if stage.pending.toList = [] then #[] else
      (stage.filter.run stage.state stage.pending).2) ∧
    r.flush.1.flush.2.bytes = #[] ∧ r.flush.1.flush.2.frames = 0 := by
  by_cases htail : stage.pendingFrames = 0
  · have hrate : r.nothing.1.rate = some stage := h.rate
    rw [flush_done h.rate htail, flush_done hrate htail, if_pos (h.tail_eq_zero.1 htail)]
    exact ⟨rfl, rfl, rfl⟩
  · obtain ⟨out, hflush⟩ := Stage.flush_eq h.ready htail
    obtain ⟨frames, -, hyield⟩ := h.ready.reliable.now h.ready.whole (Nat.le_of_lt h.ready.waiting)
    have hdvd : max r.target.channels 1 ∣ stage.flush.2.size := by
      rw [hflush, hyield, ← h.channels, Nat.max_eq_left h.ready.audible]
      exact Nat.dvd_mul_left ..
    obtain ⟨scratch, hencode⟩ :=
      encode_eq (r := { r.reserve 0 with rate := some stage.flush.1 }) hdvd
    have hopen :
        r.flush = encode { r.reserve 0 with rate := some stage.flush.1 } stage.flush.2 := by
      simp only [Resampler.flush, h.rate, if_neg htail]
    have hnone : stage.flush.1.pendingFrames = 0 := by
      rw [hflush]
      exact Nat.zero_div _
    rw [hopen, hencode, flush_done rfl hnone, if_neg (mt h.tail_eq_zero.2 htail), hflush]
    exact ⟨rfl, rfl, rfl⟩

/-- All results together are the encoded whole of the mapped samples. -/
theorem transcode_eq (h : r.Filters stage) (hempty : stage.pending = #[]) {fs : List Media.Frame}
    (hfs : ∀ f ∈ fs, f.layout = r.source ∧ f.samples.size = f.frames * r.source.channels) :
    ∃ r', r.transcode fs = .ok (r', r.target.encodeAll
        (stage.filter.whole stage.chunkSamples stage.state
          (mapChannels r.source.channels r.target.channels
            (fs.flatMap fun f => f.samples.toList).toArray))) ∧
      r'.flush.2.bytes = #[] ∧ r'.flush.2.frames = 0 := by
  obtain ⟨r', stage', output, hall, h', htarget, htakes⟩ := h.convertAll fs hfs
  obtain ⟨hlast, hnomore⟩ := h'.flush
  refine ⟨r'.flush.1, ?_, hnomore⟩
  have hfed := htakes.fed
  rw [hempty, Array.empty_append] at hfed
  rw [transcode, hall, Filter.whole, hfed]
  simp only [Except.map, hlast, htarget, htakes.filter, Format.encodeAll_append]

/-- A converter between different rates starts fresh, and however the samples are cut into frames,
the results together are the same bytes, and a second flush gives nothing. -/
theorem cut_makes_no_difference {source : Media.Layout} {target : Format} {filter : Filter σ}
    {state : σ} {chunk : Nat} {fs gs : List Media.Frame} (hchunk : 1 ≤ chunk)
    (htarget : 1 ≤ target.channels) (hfilter : filter.Reliable target.channels chunk state)
    (hfs : ∀ f ∈ fs, f.layout = source ∧ f.samples.size = f.frames * source.channels)
    (hgs : ∀ g ∈ gs, g.layout = source ∧ g.samples.size = g.frames * source.channels)
    (hsame : (fs.flatMap fun f => f.samples.toList) = gs.flatMap fun g => g.samples.toList) :
    (source.rate ≠ target.rate → target.rate ≠ 0 →
      let ratio := target.rate.toFloat / source.rate.toFloat
      create source target chunk = .ok (fresh source target (Sinc.filter ratio chunk)
        (.initial ratio target.channels chunk) chunk)) ∧
      ∃ r r' bytes,
        (fresh source target filter state chunk).transcode fs = .ok (r, bytes) ∧
        (fresh source target filter state chunk).transcode gs = .ok (r', bytes) ∧
        (r.flush.2.bytes = #[] ∧ r.flush.2.frames = 0) ∧
        (r'.flush.2.bytes = #[] ∧ r'.flush.2.frames = 0) := by
  refine ⟨fun hrates hrate => ?_, ?_⟩
  · rw [create, if_neg hrates, if_neg hrate, Nat.max_eq_left hchunk]
    rfl
  · have hready : Stage.Ready { filter, state, channels := target.channels, chunk } :=
      ⟨htarget, hfilter, Nat.mul_pos hchunk htarget, Nat.dvd_zero _⟩
    have h : (fresh source target filter state chunk).Filters _ := ⟨rfl, rfl, hready⟩
    obtain ⟨r, hrun, hnomore⟩ := transcode_eq h rfl hfs
    obtain ⟨r', hrun', hnomore'⟩ := transcode_eq h rfl hgs
    rw [← hsame] at hrun'
    exact ⟨r, r', _, hrun, hrun', hnomore, hnomore'⟩

/-- What comes of silence in chunks of four frames at twice the rate: the first chunk is late. -/
def doubledSilence : Filter Bool :=
  ⟨18, fun started _ => (true, Array.replicate (if started then 8 else 4) 0.0)⟩

/-- Silence in mono. -/
def silence (frames : Nat) : Media.Frame := ⟨⟨24000, 1⟩, frames, Array.replicate frames 0.0⟩

theorem cut_makes_no_difference_in_silence :
    let source : Media.Layout := ⟨24000, 1⟩
    let target : Format := ⟨48000, 1, .signed16, .little⟩
    let ratio := target.rate.toFloat / source.rate.toFloat
    let r := fresh source target doubledSilence false 4
    (doubledSilence.Reliable 1 4 false ∧ source.rate ≠ target.rate ∧ target.rate ≠ 0) ∧
      create source target 4 =
        .ok (fresh source target (Sinc.filter ratio 4) (.initial ratio 1 4) 4) ∧
      ∃ s s' bytes, r.transcode [silence 3, silence 0, silence 3, silence 1] = .ok (s, bytes) ∧
        r.transcode [silence 7] = .ok (s', bytes) ∧
        (s.flush.2.bytes = #[] ∧ s.flush.2.frames = 0) ∧
        (s'.flush.2.bytes = #[] ∧ s'.flush.2.frames = 0) := by
  intro source target ratio r
  have hfilter : doubledSilence.Reliable 1 4 false := by
    intro inputs _ input _ _
    refine ⟨if doubledSilence.after false inputs then 8 else 4, ?_, ?_⟩
    · split <;> decide
    · rw [Nat.mul_one]
      exact Array.size_replicate
  have hlayout : source.channels = 1 := by decide
  have hpieces : ∀ f ∈ [silence 3, silence 0, silence 3, silence 1],
      f.layout = source ∧ f.samples.size = f.frames * source.channels := by
    simp [silence, source, hlayout]
  have hwhole : ∀ f ∈ [silence 7],
      f.layout = source ∧ f.samples.size = f.frames * source.channels := by
    simp [silence, source, hlayout]
  have htarget : 1 ≤ target.channels := by decide
  obtain ⟨hcreate, hcut⟩ :=
    cut_makes_no_difference (by decide) htarget hfilter hpieces hwhole (by simp [silence])
  exact ⟨⟨hfilter, by decide, by decide⟩, hcreate (by decide) (by decide), hcut⟩

end Resampler

end Jukebox.Rate
