import Jukebox.Proofs.Rate.Calls
import Jukebox.Proofs.Rate.Conversion

/-!
The room that a converter makes. Before each turn it says how many frames the turn may yield at most,
and lets the scratch area grow to this size. No turn yields more, so the scratch area need not grow
again when the samples are encoded into it; and what is given back are the bytes of the samples that
the turn itself has produced, whatever an earlier one has left in the scratch area or in the output
buffer of the stage.
-/

namespace Jukebox.Rate

variable {σ : Type}

namespace Resampler

/-- What can be asked of a converter. -/
inductive Turn where
  | convert (f : Media.Frame)
  | flush

namespace Turn

/-- A frame of this layout has as many samples as it says. -/
def WellMade (source : Media.Layout) : Turn → Prop
  | .convert f => f.layout = source → f.samples.size = f.frames * source.channels
  | .flush => True

/-- A frame has this layout. -/
def Accepted (source : Media.Layout) : Turn → Prop
  | .convert f => f.layout = source
  | .flush => True

end Turn

/-- One turn: what is left, and what it gives back. -/
def turn (r : Resampler σ) : Turn → Resampler σ × Except Fault Converted
  | .convert f => r.convert f
  | .flush => (r.flush.1, .ok r.flush.2)

/-- The converter after some turns. -/
def run (r : Resampler σ) (turns : List Turn) : Resampler σ := turns.foldl (fun r t => (r.turn t).1) r

/-- The most frames that are left to yield at the end. -/
def maxFlush (r : Resampler σ) : Nat := (r.rate.map Stage.maxFlush).getD 0

/-- The most frames that a turn is said to yield, before it is taken. -/
def announced (r : Resampler σ) : Turn → Nat
  | .convert f => r.maxOutput f.frames
  | .flush => r.maxFlush

/-- What a turn has to do: so many frames come in, and the stage takes this turn. There is nothing to
do for a frame without samples, and at the end if nothing waits. -/
def task? (r : Resampler σ) : Turn → Option (Nat × Stage.Turn)
  | .convert f =>
    if f.frames = 0 then none
    else some (f.frames, .process (mapChannels f.layout.channels r.target.channels f.samples))
  | .flush =>
    if (r.rate.map Stage.pendingFrames).getD 0 = 0 then none else some (0, .flush)

/-- The converter with room for a turn. -/
def reserved (r : Resampler σ) (t : Turn) : Resampler σ :=
  match r.task? t with
  | some (frames, _) => r.reserve frames
  | none => r

/-- The samples that a turn produces: those that the calls of the filter yield, and without a filter
those that come in. -/
def produced (r : Resampler σ) (t : Turn) : List Float32 :=
  match r.task? t, r.rate with
  | some (_, t), some stage => (stage.calls t).flatMap fun c => c.yielded.toList
  | some (_, t), none => t.input.toList
  | none, _ => []

/-- What a turn gives back is within the bounds: there are not more frames than were announced, the
bytes are those of the samples that were produced, and the scratch area had room for them. -/
structure Within (r : Resampler σ) (t : Turn) (c : Converted) : Prop where
  frames : c.frames ≤ r.announced t
  bytes : c.bytes = r.target.encodeAll (r.produced t).toArray
  size : c.bytes.size = c.frames * r.target.bytesPerFrame
  room : c.bytes.size ≤ (r.reserved t).scratch.size
  kept : (r.turn t).1.scratch.size = (r.reserved t).scratch.size

/-- A converter between two turns whose filter, if it has one, keeps its promise for good. -/
structure Sound (r : Resampler σ) : Prop where
  audible : 0 < r.target.channels
  stage : ∀ stage, r.rate = some stage → stage.Sound ∧ stage.channels = r.target.channels

variable {r : Resampler σ} {t : Turn} {f : Media.Frame} {frames k : Nat}

/-! ### What the stage answers -/

/-- What is left of a stage after a turn, and the samples that come of it. -/
def answer (rate : Option (Stage σ)) (t : Stage.Turn) : Option (Stage σ) × Array Float32 :=
  match rate with
  | some stage => (some (stage.turn t).1, (stage.turn t).2)
  | none => (none, t.input)

/-- Makes room for so many frames, has the stage take a turn, and encodes what comes of it. -/
def serve (r : Resampler σ) (frames : Nat) (t : Stage.Turn) : Resampler σ × Converted :=
  { r.reserve frames with rate := (answer r.rate t).1 }.encode (answer r.rate t).2

theorem convert_eq_serve (hlayout : f.layout = r.source) (hframes : f.frames ≠ 0) :
    r.convert f =
      let y := r.serve f.frames
        (.process (mapChannels f.layout.channels r.target.channels f.samples))
      (y.1, .ok y.2) := by
  obtain ⟨source, target, rate, scratch, generation⟩ := r
  rw [convert, if_neg (not_not_intro hlayout), if_neg hframes]
  cases rate <;> rfl

theorem flush_eq_serve (htail : (r.rate.map Stage.pendingFrames).getD 0 ≠ 0) :
    r.flush = r.serve 0 .flush := by
  obtain ⟨source, target, rate, scratch, generation⟩ := r
  cases rate with
  | none => exact absurd rfl htail
  | some stage => exact if_neg htail

theorem flush_eq_nothing (htail : (r.rate.map Stage.pendingFrames).getD 0 = 0) :
    r.flush = r.nothing := by
  obtain ⟨source, target, rate, scratch, generation⟩ := r
  cases rate with
  | none => rfl
  | some stage => exact if_pos htail

/-- A turn is served, or there is nothing to do. -/
theorem turn_eq (ht : t.Accepted r.source) :
    r.turn t =
      let y := match r.task? t with
        | some (frames, t) => r.serve frames t
        | none => r.nothing
      (y.1, .ok y.2) := by
  cases t with
  | convert f =>
    by_cases hframes : f.frames = 0
    · rw [task?, if_pos hframes]
      exact convert_empty ht hframes
    · rw [task?, if_neg hframes]
      exact convert_eq_serve ht hframes
  | flush =>
    by_cases htail : (r.rate.map Stage.pendingFrames).getD 0 = 0
    · rw [task?, if_pos htail, turn, flush_eq_nothing htail]
    · rw [task?, if_neg htail, turn, flush_eq_serve htail]

/-- A frame of another layout changes nothing. -/
theorem turn_refused (ht : ¬ t.Accepted r.source) : (r.turn t).1 = r := by
  cases t with
  | convert f =>
    have hlayout : f.layout ≠ r.source := ht
    rw [turn, convert, if_pos hlayout]
  | flush => exact absurd trivial ht

/-! ### Room for what is served -/

/-- Samples for which there is room are encoded in place. -/
theorem encode_spec {samples : Array Float32} (hchannels : 0 < r.target.channels)
    (hsize : samples.size = k * r.target.channels)
    (hroom : k * r.target.bytesPerFrame ≤ r.scratch.size) :
    (r.encode samples).2.bytes = r.target.encodeAll samples ∧ (r.encode samples).2.frames = k ∧
      (r.encode samples).1.scratch.size = r.scratch.size := by
  have hmax : max r.target.channels 1 = r.target.channels := Nat.max_eq_left hchannels
  have hdvd : max r.target.channels 1 ∣ samples.size := by
    rw [hmax, hsize]
    exact Nat.dvd_mul_left ..
  have hlength : samples.size * r.target.bytesPerSample ≤ r.scratch.size := by
    rw [hsize, Nat.mul_assoc, Nat.mul_comm r.target.channels]
    exact hroom
  obtain ⟨scratch, hencode⟩ := encode_eq hdvd
  refine ⟨by rw [hencode], ?_, ?_⟩
  · rw [hencode, hmax, hsize]
    exact Nat.mul_div_cancel _ hchannels
  · unfold encode
    dsimp only
    rw [Nat.div_mul_cancel hdvd, Array.extract_size, size_overwrite, size_grown,
      Nat.max_eq_left hlength]
    rw [Nat.zero_add, Format.size_encodeAll]
    exact le_size_grown ..

/-- Samples that come of a turn of the stage, as many as there is room for. -/
theorem Sound.serve (h : r.Sound) {t : Stage.Turn} {samples : List Float32}
    (hsamples : (answer r.rate t).2.toList = samples)
    (hsize : samples.length = k * r.target.channels) (hk : k ≤ max (r.maxOutput frames) r.maxFlush) :
    (r.serve frames t).2.bytes = r.target.encodeAll samples.toArray ∧
      (r.serve frames t).2.frames = k ∧
      k * r.target.bytesPerFrame ≤ (r.reserve frames).scratch.size ∧
      (r.serve frames t).1.scratch.size = (r.reserve frames).scratch.size := by
  have hroom : k * r.target.bytesPerFrame ≤ (r.reserve frames).scratch.size :=
    Nat.le_trans (Nat.mul_le_mul_right _ hk) (le_size_grown ..)
  have hcount : (answer r.rate t).2.size = k * r.target.channels := by
    rw [← Array.length_toList, hsamples, hsize]
  obtain ⟨hbytes, hframes, hkept⟩ := encode_spec
    (r := { r.reserve frames with rate := (answer r.rate t).1 }) h.audible hcount hroom
  rw [← hsamples]
  exact ⟨hbytes, hframes, hroom, hkept⟩

/-! ### What a turn has to do -/

theorem maxOutput_mono {m n : Nat} (h : m ≤ n) (r : Resampler σ) : r.maxOutput m ≤ r.maxOutput n := by
  unfold maxOutput Stage.maxOutput
  split
  · exact Nat.mul_le_mul_right _ (Nat.div_le_div_right (Nat.add_le_add_left h _))
  · exact h

/-- A frame is mapped to no more frames than it says it has. -/
theorem size_mapped (hlayout : f.layout = r.source)
    (hsize : f.samples.size = f.frames * r.source.channels) :
    ∃ frames, frames ≤ f.frames ∧
      (mapChannels f.layout.channels r.target.channels f.samples).size =
        frames * r.target.channels := by
  refine ⟨_, ?_, size_mapChannels f.samples⟩
  rw [hsize, hlayout]
  exact Nat.div_le_of_le_mul (Nat.le_of_eq (Nat.mul_comm ..))

/-- What is asked of a stage, it answers within what was announced. -/
theorem Sound.task_process (h : r.Sound) {xs : Array Float32} (hxs : xs.size = k * r.target.channels) :
    ∃ n, n ≤ r.maxOutput k ∧ (answer r.rate (.process xs)).2.size = n * r.target.channels := by
  unfold answer maxOutput
  cases hrate : r.rate with
  | none => exact ⟨k, Nat.le_refl k, hxs⟩
  | some stage =>
    obtain ⟨hstage, hchannels⟩ := h.stage stage hrate
    obtain ⟨n, hn, hsize⟩ := (hstage.delivers (.process xs)).announced
    rw [Stage.announced, hchannels, hxs, Nat.mul_div_cancel _ h.audible] at hn
    rw [hchannels] at hsize
    exact ⟨n, hn, hsize⟩

theorem Sound.task_flush (h : r.Sound) :
    ∃ n, n ≤ r.maxFlush ∧ (answer r.rate .flush).2.size = n * r.target.channels := by
  unfold answer maxFlush
  cases hrate : r.rate with
  | none => exact ⟨0, Nat.zero_le _, (Nat.zero_mul _).symm⟩
  | some stage =>
    obtain ⟨hstage, hchannels⟩ := h.stage stage hrate
    obtain ⟨n, hn, hsize⟩ := (hstage.delivers .flush).announced
    rw [hchannels] at hsize
    exact ⟨n, hn, hsize⟩

/-- What the stage answers are the samples that its own calls yield. -/
theorem Sound.answer_eq (h : r.Sound) {t' : Stage.Turn} (htask : r.task? t = some (frames, t')) :
    (answer r.rate t').2.toList = r.produced t := by
  rw [produced, htask]
  cases hrate : r.rate with
  | none => rfl
  | some stage => exact (h.stage stage hrate).1.output t'

/-- A turn that has something to do is served within what was announced. -/
theorem Sound.task (h : r.Sound) (ht : t.Accepted r.source) (hmade : t.WellMade r.source)
    {t' : Stage.Turn} (htask : r.task? t = some (frames, t')) :
    r.announced t ≤ max (r.maxOutput frames) r.maxFlush ∧ r.target.channels ∣ t'.input.size ∧
      ∃ n, n ≤ r.announced t ∧ (answer r.rate t').2.size = n * r.target.channels := by
  cases t with
  | convert f =>
    obtain ⟨k, hk, hsize⟩ := size_mapped ht (hmade ht)
    obtain ⟨-, ⟨⟩⟩ := Option.ite_none_left_eq_some.1 htask
    obtain ⟨n, hn, hyield⟩ := h.task_process hsize
    refine ⟨Nat.le_max_left .., hsize ▸ Nat.dvd_mul_left .., n, ?_, hyield⟩
    exact Nat.le_trans hn (maxOutput_mono hk r)
  | flush =>
    obtain ⟨-, ⟨⟩⟩ := Option.ite_none_left_eq_some.1 htask
    exact ⟨Nat.le_max_right .., Nat.dvd_zero _, h.task_flush⟩

/-! ### Turn after turn -/

theorem Sound.answered (h : r.Sound) {t' : Stage.Turn} (ht' : r.target.channels ∣ t'.input.size) :
    ∀ stage', (answer r.rate t').1 = some stage' →
      stage'.Sound ∧ stage'.channels = r.target.channels := by
  unfold answer
  cases hrate : r.rate with
  | none => exact fun _ => nofun
  | some stage =>
    rintro _ ⟨⟩
    obtain ⟨hstage, hchannels⟩ := h.stage stage hrate
    rw [← hchannels] at ht'
    exact ⟨hstage.turn ht', (hstage.hands t').alike.channels.trans hchannels⟩

/-- What a turn gives back is within the bounds. -/
theorem Sound.within (h : r.Sound) (ht : t.Accepted r.source) (hmade : t.WellMade r.source) :
    ∃ c, (r.turn t).2 = .ok c ∧ r.Within t c := by
  have hturn := turn_eq ht
  cases htask : r.task? t with
  | none =>
    rw [htask] at hturn
    refine ⟨_, congrArg Prod.snd hturn, Nat.zero_le _, ?_, ?_, Nat.zero_le _, ?_⟩
    · rw [produced, htask]
      rfl
    · exact (Nat.zero_mul _).symm
    · rw [hturn, reserved, htask]
      rfl
  | some task =>
    obtain ⟨frames, t'⟩ := task
    rw [htask] at hturn
    obtain ⟨hannounced, -, n, hn, hsize⟩ := h.task ht hmade htask
    have hsamples := h.answer_eq htask
    rw [← Array.length_toList, hsamples] at hsize
    obtain ⟨hbytes, hframes, hroom, hkept⟩ := h.serve hsamples hsize (Nat.le_trans hn hannounced)
    have hcount : (r.serve frames t').2.bytes.size = n * r.target.bytesPerFrame := by
      rw [hbytes, Format.size_encodeAll, List.size_toArray, hsize, Nat.mul_assoc,
        Nat.mul_comm r.target.channels]
      rfl
    have hreserved : r.reserved t = r.reserve frames := by rw [reserved, htask]
    refine ⟨_, congrArg Prod.snd hturn, ?_, hbytes, ?_, ?_, ?_⟩
    · rw [hframes]
      exact hn
    · rw [hcount, hframes]
    · rw [hcount, hreserved]
      exact hroom
    · rw [hturn, hreserved]
      exact hkept

/-- A turn leaves a converter for the same layouts, whose filter keeps its promise. -/
theorem Sound.turn (h : r.Sound) (hmade : t.WellMade r.source) :
    (r.turn t).1.Sound ∧ (r.turn t).1.source = r.source ∧ (r.turn t).1.target = r.target := by
  by_cases ht : t.Accepted r.source
  · have hturn := turn_eq ht
    cases htask : r.task? t with
    | none =>
      rw [hturn, htask]
      exact ⟨⟨h.audible, h.stage⟩, rfl, rfl⟩
    | some task =>
      obtain ⟨frames, t'⟩ := task
      obtain ⟨-, hwhole, -⟩ := h.task ht hmade htask
      rw [hturn, htask]
      exact ⟨⟨h.audible, h.answered hwhole⟩, rfl, rfl⟩
  · rw [turn_refused ht]
    exact ⟨h, rfl, rfl⟩

theorem Sound.run {turns : List Turn} (h : r.Sound) (hturns : ∀ t ∈ turns, t.WellMade r.source) :
    (r.run turns).Sound ∧ (r.run turns).source = r.source := by
  induction turns generalizing r with
  | nil => exact ⟨h, rfl⟩
  | cons t turns ih =>
    obtain ⟨ht, hturns⟩ := List.forall_mem_cons.1 hturns
    obtain ⟨hsound, hsource, -⟩ := h.turn ht
    rw [← hsource] at hturns ⊢
    exact ih hsound hturns

/-- Whatever a stage has been asked that starts fresh, it conserves frames, no call has left the bounds
of its buffers, and the next turn keeps them too. A converter, with a filter or without one, makes room
for each of its results beforehand, and a result is the bytes of the samples that were produced for
it. -/
theorem conversion_keeps_within_bounds {source : Media.Layout} {target : Format} {filter : Filter σ}
    {state : σ} {chunk : Nat} (hchunk : 1 ≤ chunk) (hchannels : 1 ≤ target.channels)
    (hfilter : filter.Dependable target.channels chunk state) :
    (∀ turns : List Stage.Turn, (∀ t ∈ turns, target.channels ∣ t.input.size) →
      let start : Stage σ := { filter, state, channels := target.channels, chunk }
      start.Conserves turns ∧ ∀ t, (start.run turns).Delivers t) ∧
      ∀ start : Resampler σ, start = fresh source target filter state chunk ∨
          start = { source, target, rate := none } →
        ∀ (turns : List Turn) (t : Turn), (∀ t ∈ turns, t.WellMade source) → t.WellMade source →
          t.Accepted source →
          ∃ c, ((start.run turns).turn t).2 = .ok c ∧ (start.run turns).Within t c := by
  have hstage := Stage.sound_start hchunk hchannels hfilter
  constructor
  · intro turns hturns start
    exact ⟨hstage.conserves hturns, (hstage.run hturns).1.delivers⟩
  · intro start hstart turns t hturns ht haccepted
    have hsound : start.Sound ∧ start.source = source := by
      rcases hstart with rfl | rfl
      · refine ⟨⟨hchannels, ?_⟩, rfl⟩
        rintro _ ⟨⟩
        exact ⟨hstage, rfl⟩
      · exact ⟨⟨hchannels, fun _ => nofun⟩, rfl⟩
    obtain ⟨hsound, rfl⟩ := hsound
    obtain ⟨hrun, hsource⟩ := hsound.run hturns
    rw [← hsource] at ht haccepted
    exact hrun.within haccepted ht

/-- Silence that a stage takes in pieces, and what a converter makes of it. -/
theorem conversion_keeps_within_bounds_in_silence :
    let target : Format := ⟨48000, 1, .signed16, .little⟩
    let stage : Stage Bool := { filter := doubledSilence, state := false, channels := 1, chunk := 4 }
    let pieces : List Stage.Turn :=
      [.process (Array.replicate 3 0.0), .process (Array.replicate 6 0.0), .flush,
        .process (Array.replicate 5 0.0)]
    let r := (fresh ⟨24000, 1⟩ target doubledSilence false 4).run
      [.convert (silence 3), .convert (silence 6), .flush]
    (1 ≤ target.channels ∧ doubledSilence.Dependable 1 4 false) ∧
      (stage.Conserves pieces ∧ (stage.run pieces).Delivers .flush) ∧
      ∃ c, (r.turn (.convert (silence 5))).2 = .ok c ∧ r.Within (.convert (silence 5)) c := by
  intro target stage pieces r
  have hfilter : doubledSilence.Dependable 1 4 false := by
    intro inputs _ input _
    refine ⟨if doubledSilence.after false inputs then 8 else 4, ?_, ?_⟩
    · split <;> decide
    · rw [Nat.mul_one]
      exact Array.size_replicate
  have hchannels : 1 ≤ target.channels := by decide
  have hmade : ∀ frames, Turn.WellMade ⟨24000, 1⟩ (.convert (silence frames)) := by
    intro frames _
    have hmono : Media.Layout.channels ⟨24000, 1⟩ = 1 := by decide
    simp [silence, hmono]
  have hturns : ∀ t ∈ [.convert (silence 3), .convert (silence 6), .flush],
      Turn.WellMade ⟨24000, 1⟩ t :=
    List.forall_mem_cons.2 ⟨hmade 3, List.forall_mem_cons.2 ⟨hmade 6,
      List.forall_mem_singleton.2 trivial⟩⟩
  obtain ⟨hstage, hresampler⟩ := @conversion_keeps_within_bounds Bool ⟨24000, 1⟩ target
    doubledSilence false 4 (by decide) hchannels hfilter
  obtain ⟨hconserves, hdelivers⟩ := hstage pieces fun t _ => Nat.one_dvd _
  refine ⟨⟨hchannels, hfilter⟩, ⟨hconserves, hdelivers .flush⟩, ?_⟩
  exact hresampler _ (.inl rfl) _ _ hturns (hmade 5) rfl

end Resampler

end Jukebox.Rate
