import Jukebox.Proofs.Buffer.Bounds
import Jukebox.Proofs.Decode.Length

/-!
Frames and moments. A count of frames is told as the moment in which it has been played, in whole
nanoseconds, and a moment is gone to by its whole frames; both are rounded down. From a frame to its
moment and back a frame is lost, unless the moment is a whole number of nanoseconds. From a moment to
its frames and back less than a frame and a nanosecond is lost, and nothing where the moment is a
whole number of frames. So a buffer that is sent to the moment it tells never goes forward, and at
most one frame back.
-/

namespace Jukebox

namespace Format

open Decode (keptFrames)

variable {f : Format} {d : Span} {n k : Nat}

/-! ### From a frame and back -/

/-- What is short of a frame is not counted. -/
theorem framesOfBytes_add (hk : k < f.bytesPerFrame) :
    f.framesOfBytes (n * f.bytesPerFrame + k) = n := by
  have hpos : 0 < f.bytesPerFrame := Nat.lt_of_le_of_lt (Nat.zero_le k) hk
  rw [framesOfBytes, Nat.add_comm, Nat.add_mul_div_right _ _ hpos, Nat.div_eq_of_lt hk,
    Nat.zero_add]

/-- The moment of a frame. -/
theorem spanOfBytes_of_pos (hrate : 0 < f.rate) {bytes : Nat}
    (hroom : f.framesOfBytes bytes * Span.second / f.rate ≤ Word.top) :
    f.spanOfBytes bytes = ⟨f.framesOfBytes bytes * Span.second / f.rate⟩ := by
  rw [spanOfBytes, if_neg (Nat.ne_of_gt hrate), Word.cap_eq_self hroom]

/-- The frames of the moment that so many bytes are told as. -/
theorem framesOfSpan_spanOfBytes (hrate : 0 < f.rate) {bytes : Nat} (hbytes : bytes ≤ Word.top)
    (hroom : f.framesOfBytes bytes * Span.second / f.rate ≤ Word.top) :
    f.framesOfSpan (f.spanOfBytes bytes) = keptFrames (f.framesOfBytes bytes) f.rate := by
  have hframes : f.framesOfBytes bytes ≤ bytes := Nat.div_le_self ..
  have hkept := Decode.keptFrames_le (f.framesOfBytes bytes) f.rate
  rw [spanOfBytes_of_pos hrate hroom, framesOfSpan, Decode.nanos_mul_rate_div]
  exact Word.cap_eq_self (by omega)

/-! ### From a moment and back -/

/-- The frames of a moment, where their bytes do not saturate. -/
theorem framesOfBytes_bytesOfSpan (hframe : 0 < f.bytesPerFrame) (h : f.exactBytes d ≤ Word.top) :
    f.framesOfBytes (f.bytesOfSpan d) = d.nanos * f.rate / Span.second := by
  rw [bytesOfSpan_eq_cap, Word.cap_eq_self h, exactBytes, framesOfBytes,
    Nat.mul_div_cancel _ hframe]

/-- No frame of a moment lies behind it. -/
theorem nanos_of_frames_le (hrate : 0 < f.rate) (d : Span) :
    d.nanos * f.rate / Span.second * Span.second / f.rate ≤ d.nanos := by
  have hdown := Nat.div_mul_le_self (d.nanos * f.rate) Span.second
  calc d.nanos * f.rate / Span.second * Span.second / f.rate
    _ ≤ d.nanos * f.rate / f.rate := Nat.div_le_div_right hdown
    _ = d.nanos := Nat.mul_div_cancel _ hrate

/-- Less than a frame is lost on the way there, and less than a nanosecond on the way back. -/
theorem nanos_lost_lt (hrate : 0 < f.rate) (d : Span) :
    (d.nanos - d.nanos * f.rate / Span.second * Span.second / f.rate) * f.rate <
      Span.second + f.rate := by
  have hthere : d.nanos * f.rate < d.nanos * f.rate / Span.second * Span.second + Span.second :=
    Nat.lt_div_mul_add (by decide)
  generalize d.nanos * f.rate / Span.second * Span.second = frames at hthere
  have hback : frames < frames / f.rate * f.rate + f.rate := Nat.lt_div_mul_add hrate
  rw [Nat.sub_mul]
  omega

/-- A whole number of frames is not rounded. -/
theorem nanos_of_frames_eq (hrate : 0 < f.rate) (h : Span.second ∣ d.nanos * f.rate) :
    d.nanos * f.rate / Span.second * Span.second / f.rate = d.nanos := by
  rw [Nat.div_mul_cancel h, Nat.mul_div_cancel _ hrate]

theorem spanOfBytes_bytesOfSpan (hframe : 0 < f.bytesPerFrame) (hrate : 0 < f.rate)
    (hd : d.nanos ≤ Word.top) (h : f.exactBytes d ≤ Word.top) :
    f.spanOfBytes (f.bytesOfSpan d) =
      ⟨d.nanos * f.rate / Span.second * Span.second / f.rate⟩ := by
  have hframes := framesOfBytes_bytesOfSpan hframe h
  have hle := nanos_of_frames_le hrate d
  rw [spanOfBytes_of_pos hrate, hframes]
  rw [hframes]
  exact Nat.le_trans hle hd

end Format

namespace Buffer

open Decode (keptFrames)

variable {f : Format} {b : Buffer}

/-! ### To the moment that is told -/

/-- A seek that does not lead beyond the limit leads to its frame. -/
theorem readPos_seekFrame (hs : b.isSized) {frame : Nat}
    (h : frame * b.format.bytesPerFrame ≤ b.limit) (htop : b.limit ≤ Word.top) :
    (b.seekFrame frame).readPos = frame * b.format.bytesPerFrame := by
  have hoffset : b.format.bytesOfFrames frame = frame * b.format.bytesPerFrame :=
    Word.cap_eq_self (Nat.le_trans h htop)
  unfold seekFrame
  dsimp only
  rw [if_pos hs, hoffset, Nat.min_eq_left h]

/-- Where a seek to the moment that is told leads. -/
theorem readPos_seek_position (hrate : 0 < f.rate) (ops : List Op)
    (haligned : f.bytesPerFrame ∣ ((empty f).run ops).readPos)
    (hroom : f.framesOfBytes ((empty f).run ops).readPos * Span.second / f.rate ≤ Word.top) :
    (((empty f).run ops).seek ((empty f).run ops).position).readPos =
      keptFrames (f.framesOfBytes ((empty f).run ops).readPos) f.rate * f.bytesPerFrame := by
  have hunsized := readPos_of_unsized f ops
  have hbounded := bounded_run f ops
  have hfollows := follows_run f ops
  generalize (empty f).run ops = b at *
  have hcapacity := capacity_le_top hfollows
  have hread : b.readPos ≤ b.limit := hbounded.read
  have hlimit : b.limit ≤ b.capacity := hbounded.limit
  have hwhole : f.framesOfBytes b.readPos * f.bytesPerFrame = b.readPos :=
    Nat.div_mul_cancel haligned
  have hframes : f.framesOfSpan (f.spanOfBytes b.readPos) =
      keptFrames (f.framesOfBytes b.readPos) f.rate :=
    Format.framesOfSpan_spanOfBytes hrate (by omega) hroom
  have hkept : keptFrames (f.framesOfBytes b.readPos) f.rate * f.bytesPerFrame ≤ b.readPos := by
    have hle := Nat.mul_le_mul_right f.bytesPerFrame
      (Decode.keptFrames_le (f.framesOfBytes b.readPos) f.rate)
    rwa [hwhole] at hle
  rw [seek, position, hfollows.format, hframes]
  by_cases hs : b.isSized
  · rw [readPos_seekFrame hs, hfollows.format]
    · rw [hfollows.format]
      exact Nat.le_trans hkept hread
    · exact Nat.le_trans hlimit hcapacity
  · -- nothing has been read, and the seek is only noted
    have hzero : b.readPos = 0 := hunsized (by simpa using hs)
    have hsame : ∀ frame, (b.seekFrame frame).readPos = b.readPos := by
      intro frame
      unfold seekFrame
      dsimp only
      rw [if_neg hs]
    rw [hsame]
    omega

end Buffer

namespace Format

/-- From a frame to its moment and back a frame is lost at most, and none exactly if the moment is a
whole number of nanoseconds. From a moment to its frames and back less than a frame and a nanosecond
is lost, and nothing if the moment is a whole number of frames. So a seek from between two frames to
the moment that the buffer tells never goes forward, and back by a frame at most. -/
theorem conversion_loses_one_frame_at_most (f : Format) (hchannels : 1 ≤ f.channels)
    (hpos : 1 ≤ f.rate) (hrate : f.rate ≤ Span.second) :
    (∀ n k, n * f.bytesPerFrame ≤ Word.top → n * Span.second / f.rate ≤ Word.top →
      k < f.bytesPerFrame → f.bytesOfFrames n + k ≤ Word.top →
      let back := f.framesOfSpan (f.spanOfBytes (f.bytesOfFrames n + k))
      (back = n ∨ back + 1 = n) ∧ (back = n ↔ f.rate ∣ n * Span.second)) ∧
      (∀ d : Span, d.nanos ≤ Word.top → f.exactBytes d ≤ Word.top →
        let back := f.spanOfBytes (f.bytesOfSpan d)
        back.nanos ≤ d.nanos ∧ (d.nanos - back.nanos) * f.rate < Span.second + f.rate ∧
          (Span.second ∣ d.nanos * f.rate → back = d)) ∧
      (∀ ops : List Buffer.Op,
        let b := (Buffer.empty f).run ops
        let b' := b.seek b.position
        f.bytesPerFrame ∣ b.readPos →
        f.framesOfBytes b.readPos * Span.second / f.rate ≤ Word.top →
        b'.readPos ≤ b.readPos ∧ b.readPos ≤ b'.readPos + f.bytesPerFrame ∧
          (b'.readPos = b.readPos ↔ f.rate ∣ f.framesOfBytes b.readPos * Span.second)) := by
  have hframe : 0 < f.bytesPerFrame := bytesPerFrame_pos hchannels
  refine ⟨fun n k hbytes hroom hk hsum => ?_, fun d hd hbytes => ?_, fun ops => ?_⟩
  · intro back
    have hoffset : f.bytesOfFrames n = n * f.bytesPerFrame := Word.cap_eq_self hbytes
    have hcount : f.framesOfBytes (f.bytesOfFrames n + k) = n := by
      rw [hoffset, framesOfBytes_add hk]
    have hback : back = Decode.keptFrames n f.rate := by
      rw [← hcount] at hroom
      rw [← congrArg (Decode.keptFrames · f.rate) hcount]
      exact framesOfSpan_spanOfBytes hpos hsum hroom
    rw [hback]
    exact ⟨Decode.keptFrames_cases hpos hrate n, Decode.keptFrames_eq_iff⟩
  · intro back
    have hback : back = ⟨d.nanos * f.rate / Span.second * Span.second / f.rate⟩ :=
      spanOfBytes_bytesOfSpan hframe hpos hd hbytes
    rw [hback]
    refine ⟨nanos_of_frames_le hpos d, nanos_lost_lt hpos d, fun hwhole => ?_⟩
    rw [nanos_of_frames_eq hpos hwhole]
  · intro b b' haligned hroom
    have hread : b'.readPos = Decode.keptFrames (f.framesOfBytes b.readPos) f.rate *
        f.bytesPerFrame := Buffer.readPos_seek_position hpos ops haligned hroom
    have hwhole : f.framesOfBytes b.readPos * f.bytesPerFrame = b.readPos :=
      Nat.div_mul_cancel haligned
    have hiff : Decode.keptFrames (f.framesOfBytes b.readPos) f.rate = f.framesOfBytes b.readPos ↔
        f.rate ∣ f.framesOfBytes b.readPos * Span.second := Decode.keptFrames_eq_iff
    rw [hread, ← hiff]
    generalize f.framesOfBytes b.readPos = n at *
    rw [← hwhole]
    refine ⟨Nat.mul_le_mul_right _ (Decode.keptFrames_le n f.rate), ?_, ?_⟩
    · have hle : n ≤ Decode.keptFrames n f.rate + 1 := by
        have hcases := Decode.keptFrames_cases hpos hrate n
        omega
      have hmul := Nat.mul_le_mul_right f.bytesPerFrame hle
      rwa [Nat.add_mul, Nat.one_mul] at hmul
    · exact Nat.mul_left_inj (Nat.ne_of_gt hframe)

/-- At 44100 Hz the fourth frame begins 90702 nanoseconds and a fraction after the first one, so it
is told as a moment in the third one. A nanosecond later is a moment of the fourth frame. -/
theorem conversion_loses_one_frame_at_44100 :
    let f : Format := ⟨44100, 1, .signed16, .little⟩
    let d : Span := ⟨90703⟩
    let b := (Buffer.empty f).run [.size ⟨1000000⟩, .seekFrame 4]
    let b' := b.seek b.position
    (1 ≤ f.channels ∧ 1 ≤ f.rate ∧ f.rate ≤ Span.second) ∧
      (4 * f.bytesPerFrame ≤ Word.top ∧ 4 * Span.second / f.rate ≤ Word.top ∧
        1 < f.bytesPerFrame ∧ f.bytesOfFrames 4 + 1 ≤ Word.top) ∧
      f.framesOfSpan (f.spanOfBytes (f.bytesOfFrames 4 + 1)) ≠ 4 ∧
      (d.nanos ≤ Word.top ∧ f.exactBytes d ≤ Word.top) ∧
      (d.nanos - (f.spanOfBytes (f.bytesOfSpan d)).nanos) * f.rate < Span.second + f.rate ∧
      (f.bytesPerFrame ∣ b.readPos ∧
        f.framesOfBytes b.readPos * Span.second / f.rate ≤ Word.top) ∧
      b'.readPos ≠ b.readPos ∧ b.readPos ≤ b'.readPos + f.bytesPerFrame := by
  intro f d b b'
  have hrates : 1 ≤ f.channels ∧ 1 ≤ f.rate ∧ f.rate ≤ Span.second := by decide
  obtain ⟨hframes, hmoments, hseeks⟩ :=
    conversion_loses_one_frame_at_most f hrates.1 hrates.2.1 hrates.2.2
  have hfour : 4 * f.bytesPerFrame ≤ Word.top ∧ 4 * Span.second / f.rate ≤ Word.top ∧
      1 < f.bytesPerFrame ∧ f.bytesOfFrames 4 + 1 ≤ Word.top := by decide
  have hcursor : f.bytesPerFrame ∣ b.readPos ∧
      f.framesOfBytes b.readPos * Span.second / f.rate ≤ Word.top := by decide
  have hodd : ¬ f.rate ∣ 4 * Span.second ∧
      ¬ f.rate ∣ f.framesOfBytes b.readPos * Span.second := by decide
  have hlater : d.nanos ≤ Word.top ∧ f.exactBytes d ≤ Word.top := by decide
  obtain ⟨-, hback, hexact⟩ := hseeks [.size ⟨1000000⟩, .seekFrame 4] hcursor.1 hcursor.2
  refine ⟨hrates, hfour, ?_, hlater, ?_, hcursor, ?_, hback⟩
  · exact fun h => hodd.1 ((hframes 4 1 hfour.1 hfour.2.1 hfour.2.2.1 hfour.2.2.2).2.1 h)
  · exact (hmoments d hlater.1 hlater.2).2.1
  · exact fun h => hodd.2 (hexact.1 h)

end Format

end Jukebox
