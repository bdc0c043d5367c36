import Jukebox.Proofs.Decode.Track
import Jukebox.Proofs.Format.Counts
import Mathlib.Data.List.TakeDrop

/-!
How much of a track is kept. A container tells its length in frames. The playing time is that length
in nanoseconds, rounded down, and the buffer is sized to the whole frames of the playing time,
rounded down again. What the first rounding drops is less than a nanosecond, but the second one then
drops the whole frame it was part of: the buffer is a frame short unless the playing time is a whole
number of nanoseconds.
-/

namespace Jukebox

/-- A playing time that is known is the frames over the rate, in whole nanoseconds. -/
theorem Media.Stream.duration_eq_some {stream : Media.Stream} {frames rate : Nat} {time : Span}
    (hframes : stream.frames = some frames) (hrate : stream.rate = some rate)
    (h : stream.duration = some time) : 0 < rate ∧ time = ⟨frames * Span.second / rate⟩ := by
  unfold Media.Stream.duration at h
  rw [hframes, hrate] at h
  dsimp only at h
  split at h
  · cases h
  · next hne =>
    split at h
    · exact ⟨Nat.pos_of_ne_zero hne, (Option.some.inj h).symm⟩
    · cases h

namespace Decode

open Media (Session)

variable {f : Format} {frames rate : Nat}

/-! ### The frames of a playing time -/

/-- The frames that the playing time of a track is short of: what was dropped from the nanoseconds,
in frames, rounded up. -/
def lostFrames (frames rate : Nat) : Nat :=
  (frames * Span.second % rate + (Span.second - 1)) / Span.second

/-- The frames of a track that its playing time has room for. -/
def keptFrames (frames rate : Nat) : Nat := frames - lostFrames frames rate

theorem lostFrames_le (frames rate : Nat) : lostFrames frames rate ≤ frames := by
  have hrem : frames * Span.second % rate ≤ frames * Span.second := Nat.mod_le _ _
  unfold lostFrames Span.second at *
  omega

theorem lostFrames_eq_zero_iff : lostFrames frames rate = 0 ↔ rate ∣ frames * Span.second := by
  rw [Nat.dvd_iff_mod_eq_zero]
  unfold lostFrames Span.second
  omega

/-- No more than one frame is lost, unless a frame is shorter than a nanosecond. -/
theorem lostFrames_le_one (hpos : 0 < rate) (h : rate ≤ Span.second) :
    lostFrames frames rate ≤ 1 := by
  have hrem : frames * Span.second % rate < rate := Nat.mod_lt _ hpos
  unfold lostFrames Span.second at *
  omega

theorem keptFrames_le (frames rate : Nat) : keptFrames frames rate ≤ frames := Nat.sub_le ..

theorem keptFrames_cases (hpos : 0 < rate) (hrate : rate ≤ Span.second) (frames : Nat) :
    keptFrames frames rate = frames ∨ keptFrames frames rate + 1 = frames := by
  have hone : lostFrames frames rate ≤ 1 := lostFrames_le_one hpos hrate
  have hle := lostFrames_le frames rate
  unfold keptFrames
  omega

/-- All frames are kept when their playing time is a whole number of nanoseconds. -/
theorem keptFrames_eq_iff : keptFrames frames rate = frames ↔ rate ∣ frames * Span.second := by
  have hle := lostFrames_le frames rate
  rw [← lostFrames_eq_zero_iff, keptFrames]
  omega

/-- The way there and back. -/
theorem nanos_mul_rate_div (frames rate : Nat) :
    frames * Span.second / rate * rate / Span.second = keptFrames frames rate := by
  have hsplit : frames * Span.second / rate * rate + frames * Span.second % rate =
      frames * Span.second := by
    rw [Nat.mul_comm]
    exact Nat.div_add_mod _ _
  unfold keptFrames lostFrames Span.second at *
  omega

/-- What a format takes for the playing time of a track with its rate. -/
theorem ofSpan_duration {stream : Media.Stream} {time : Span}
    (hframes : stream.frames = some frames) (hrate : stream.rate = some f.rate)
    (htime : stream.duration = some time) :
    f.framesOfSpan time = Word.cap (keptFrames frames f.rate) ∧
      f.bytesOfSpan time = f.bytesOfFrames (keptFrames frames f.rate) := by
  obtain ⟨-, rfl⟩ := Media.Stream.duration_eq_some hframes hrate htime
  have hkept : f.framesOfSpan ⟨frames * Span.second / f.rate⟩ =
      Word.cap (keptFrames frames f.rate) := by
    unfold Format.framesOfSpan
    rw [nanos_mul_rate_div]
  refine ⟨hkept, ?_⟩
  rw [Format.bytesOfSpan, hkept, Format.bytesOfFrames_cap]

/-! ### The bytes of some frames -/

/-- Every frame takes the same count of bytes. -/
theorem length_encoded (rows : List (List Float32)) :
    (encoded f rows).length = rows.length * f.bytesPerFrame := by
  refine length_flatMap_same (fun row => ?_) rows
  rw [length_flatMap_same f.length_encode, Rate.length_remix, Format.bytesPerFrame, Nat.mul_comm]

/-- The first frames are the first bytes. -/
theorem take_encoded (rows : List (List Float32)) {count : Nat} (h : count ≤ rows.length) :
    (encoded f rows).take (count * f.bytesPerFrame) = encoded f (rows.take count) := by
  have hlength : (encoded f (rows.take count)).length = count * f.bytesPerFrame := by
    rw [length_encoded, List.length_take_of_le h]
  have hsplit : encoded f rows = encoded f (rows.take count) ++ encoded f (rows.drop count) := by
    rw [encoded, encoded, encoded, ← List.flatMap_append, List.take_append_drop]
  rw [hsplit]
  exact List.take_left' hlength

/-- The bytes that fit are all of them when they are as many as a word can count and there is room
for every frame. -/
theorem take_bytesOfFrames_eq_iff (rows : List (List Float32)) {count : Nat}
    (h : count ≤ rows.length) :
    (encoded f rows).take (f.bytesOfFrames count) = encoded f rows ↔
      rows.length * f.bytesPerFrame ≤ Word.top ∧ (f.bytesPerFrame = 0 ∨ count = rows.length) := by
  rw [List.take_eq_self_iff, length_encoded, Format.bytesOfFrames, Word.cap, Nat.le_min, and_comm]
  refine and_congr_right fun _ => ?_
  constructor
  · intro hle
    rcases Nat.eq_zero_or_pos f.bytesPerFrame with h0 | hpos
    · exact .inl h0
    · exact .inr (Nat.le_antisymm h (Nat.le_of_mul_le_mul_right hle hpos))
  · rintro (h0 | rfl)
    · rw [h0]
      exact Nat.le_refl _
    · exact Nat.le_refl _

/-! ### Tracks -/

/-- A session on a stream that holds as many frames as its container tells, all of them at the rate of
a format. -/
structure Truthful (s : Session) (f : Format) (frames : Nat) : Prop where
  running : s.cancelled = false
  length : s.stream.frames = some frames
  rate : s.stream.rate = some f.rate
  time : s.stream.duration.isSome
  sounding : ∀ x ∈ Session.sounding s.stream.id s.packets, x.layout.rate = f.rate
  audio : s.audio.length = frames

/-- What a decoding to the end leaves of a track: the frames there was room for. -/
theorem Truthful.filled {aborts : Moment → Bool} {o : Options} {s : Session} {start : Nat}
    {b' : Buffer} (h : Truthful s f frames) (hlimit : o.limit = none)
    (hfill : fill aborts o s { Buffer.empty f with pendingSeek := start } = (b', none))
    (ha : b'.aborted = false) :
    b'.capacity? = some (f.bytesOfFrames (keptFrames frames f.rate)) ∧
      b'.data.toList =
        (encoded f s.audio).take (f.bytesOfFrames (keptFrames frames f.rate)) := by
  obtain ⟨total, htotal, hb'⟩ := buffer_of_fill h.running h.sounding hfill ha
  obtain ⟨time, htime⟩ := Option.isSome_iff_exists.1 h.time
  obtain rfl : time = total := by
    rw [htime] at htotal
    exact Option.some.inj htotal
  rw [hlimit, Option.elim_none, (ofSpan_duration h.length h.rate htime).2] at hb'
  obtain ⟨hcapacity, hdata, -⟩ := stored_endInput f start
    (f.bytesOfFrames (keptFrames frames f.rate)) (encoded f s.audio)
  rw [hb']
  exact ⟨hcapacity, hdata⟩

/-- Decoded at its own rate, without a limit, a track is kept except for its lost frames: the buffer
has room for the others, and holds just these at the end. No more than the last frame is lost at any
rate up to one frame in a nanosecond, and none exactly when the playing time is a whole number of
nanoseconds. -/
theorem fill_keeps_every_frame_iff (aborts : Moment → Bool) {o : Options} {s : Session} {f : Format}
    {frames : Nat} (start : Nat) (h : Truthful s f frames) (hlimit : o.limit = none) :
    let b := { Buffer.empty f with pendingSeek := start }
    let kept := keptFrames frames f.rate
    (∃ time, s.stream.duration = some time ∧ f.framesOfSpan time = Word.cap kept) ∧
      (kept = frames ↔ f.rate ∣ frames * Span.second) ∧
      (f.rate ≤ Span.second → frames ≤ kept + 1) ∧
      (Session.endsWell s.stream.id s.ending s.packets → (fill aborts o s b).2 = none) ∧
      ∀ b', fill aborts o s b = (b', none) → b'.aborted = false →
        b'.capacity? = some (f.bytesOfFrames kept) ∧
        (frames * f.bytesPerFrame ≤ Word.top →
          b'.data.toList = encoded f (s.audio.take kept)) ∧
        (b'.data.toList = encoded f s.audio ↔ frames * f.bytesPerFrame ≤ Word.top ∧
          (f.bytesPerFrame = 0 ∨ f.rate ∣ frames * Span.second)) := by
  intro b kept
  obtain ⟨time, htime⟩ := Option.isSome_iff_exists.1 h.time
  have hle : kept ≤ s.audio.length := by
    rw [h.audio]
    exact Nat.sub_le ..
  refine ⟨⟨time, htime, (ofSpan_duration h.length h.rate htime).1⟩, keptFrames_eq_iff, ?_, ?_, ?_⟩
  · intro hrate
    obtain ⟨hpos, -⟩ := Media.Stream.duration_eq_some h.length h.rate htime
    have hlost : lostFrames frames f.rate ≤ 1 := lostFrames_le_one hpos hrate
    simp only [kept, keptFrames]
    omega
  · intro hwell
    have hplaying : playingTime o s.stream = some time :=
      playingTime_eq_some.2 ⟨time, by rw [htime]; rfl, by rw [hlimit]; rfl⟩
    exact (fill_eq aborts start hplaying h.running h.sounding).2 hwell
  · intro b' hfill ha
    obtain ⟨hcapacity, hdata⟩ := h.filled hlimit hfill ha
    refine ⟨hcapacity, ?_, ?_⟩
    · intro hroom
      have hkept : f.bytesOfFrames kept = kept * f.bytesPerFrame := by
        refine Word.cap_eq_self (Nat.le_trans (Nat.mul_le_mul_right _ hle) ?_)
        rwa [h.audio]
      rw [hdata, hkept, take_encoded _ hle]
    · rw [hdata, take_bytesOfFrames_eq_iff _ hle, h.audio, keptFrames_eq_iff]

/-- A session on a mono stream of so many samples, all in one packet. -/
def mono (rate : Nat) (samples : List Float32) : Session where
  stream := { id := 1, codec := .pcmS16le, rate := some rate, channels := some 1,
              frames := some samples.length }
  packets := [⟨1, .frame ⟨⟨rate, 1⟩, samples.length, samples.toArray⟩, 0⟩]
  ending := .reset

/-- Three frames at 48000 Hz last 62500 nanoseconds, and all of them are kept. -/
theorem fill_keeps_three_frames :
    let f : Format := ⟨48000, 1, .signed16, .little⟩
    let s := mono 48000 [1, 0, 1]
    let b' := (fill (fun _ => false) {} s (Buffer.empty f)).1
    Truthful s f 3 ∧ b'.capacity? = some 6 ∧ b'.data.toList = encoded f s.audio := by
  intro f s b'
  have hs : Truthful s f 3 := ⟨rfl, rfl, rfl, by decide, by decide +kernel, by decide +kernel⟩
  obtain ⟨-, -, -, hgood, hfilled⟩ :=
    fill_keeps_every_frame_iff (fun _ => false) (o := {}) 0 hs rfl
  have hfault : (fill (fun _ => false) {} s (Buffer.empty f)).2 = none :=
    hgood (by simp [s, mono, Session.endsWell])
  have ha : b'.aborted = false := by decide +kernel
  obtain ⟨hcapacity, -, hall⟩ :=
    hfilled b' ((Prod.eta _).symm.trans (congrArg (Prod.mk b') hfault)) ha
  exact ⟨hs, hcapacity.trans (by decide), hall.2 (by decide)⟩

/-- Four frames at 44100 Hz last 90702 nanoseconds and a fraction. There is no room for the last one,
and it is not there at the end. -/
theorem fill_drops_last_frame :
    let f : Format := ⟨44100, 1, .signed16, .little⟩
    let s := mono 44100 [1, 0, 1, 0]
    let b' := (fill (fun _ => false) {} s (Buffer.empty f)).1
    Truthful s f 4 ∧ (fill (fun _ => false) {} s (Buffer.empty f)).2 = none ∧
      b'.aborted = false ∧ b'.capacity? = some 6 ∧ (encoded f s.audio).length = 8 ∧
      b'.data.toList ≠ encoded f s.audio := by
  intro f s b'
  have hlength : (encoded f s.audio).length = 8 := by decide +kernel
  refine ⟨⟨rfl, rfl, rfl, by decide, by decide +kernel, by decide +kernel⟩, by decide +kernel,
    by decide +kernel, by decide +kernel, hlength, ?_⟩
  intro heq
  have hsix : b'.data.toList.length = 6 := by decide +kernel
  rw [heq, hlength] at hsix
  cases hsix

end Decode

end Jukebox
