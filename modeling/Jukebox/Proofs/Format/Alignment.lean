import Jukebox.Proofs.Format.Counts

/-!
Byte counts that end between two frames. The bytes of a span are those of its whole frames as long as
a word counts them. What is more is cut off at the largest word, and this end lies inside a frame in
every format, since a frame has an even number of bytes. A longer span never takes fewer bytes, cut
off or not.
-/

namespace Jukebox.Format

variable {f : Format} {d e : Span}

/-- The largest word is odd. -/
theorem not_bytesPerFrame_dvd_top (f : Format) : ¬ f.bytesPerFrame ∣ Word.top := by
  intro h
  have heven : 2 ∣ Word.top := Nat.dvd_trans f.two_dvd_bytesPerFrame h
  revert heven
  decide

theorem exactBytes_mono (h : d.nanos ≤ e.nanos) : f.exactBytes d ≤ f.exactBytes e := by
  have hframes : d.nanos * f.rate / Span.second ≤ e.nanos * f.rate / Span.second :=
    Nat.div_le_div_right (Nat.mul_le_mul_right _ h)
  exact Nat.mul_le_mul_right _ hframes

theorem bytesPerFrame_dvd_bytesOfSpan_iff :
    f.bytesPerFrame ∣ f.bytesOfSpan d ↔ f.exactBytes d ≤ Word.top := by
  constructor
  · intro h
    refine Nat.le_of_not_lt fun hover => ?_
    have hcut : f.bytesOfSpan d = Word.top := bytesOfSpan_eq_top_iff.2 hover
    rw [hcut] at h
    exact f.not_bytesPerFrame_dvd_top h
  · intro h
    rw [bytesOfSpan_eq_cap, Word.cap_eq_self h]
    exact Nat.dvd_mul_left ..

/-- A longer span never takes fewer bytes, and the bytes of a span are whole frames exactly if they
are not cut off at the largest word. -/
theorem bytes_are_whole_frames_unless_cut (f : Format) {d e : Span} (h : d.nanos ≤ e.nanos) :
    f.bytesOfSpan d ≤ f.bytesOfSpan e ∧
      f.bytesOfSpan d = min (f.exactBytes d) Word.top ∧
      (f.bytesPerFrame ∣ f.bytesOfSpan d ↔ f.exactBytes d ≤ Word.top) := by
  refine ⟨?_, bytesOfSpan_eq_cap f d, bytesPerFrame_dvd_bytesOfSpan_iff⟩
  rw [bytesOfSpan_eq_cap, bytesOfSpan_eq_cap]
  exact Word.cap_mono (exactBytes_mono h)

/-- A short span beside the longest one. -/
theorem bytes_are_whole_frames_in_a_short_span :
    let f : Format := ⟨44100, 2, .float32, .little⟩
    let d : Span := ⟨12345000⟩
    let e : Span := ⟨Span.bound - 1⟩
    d.nanos ≤ e.nanos ∧ f.bytesOfSpan d ≤ f.bytesOfSpan e ∧ f.bytesOfSpan d = 4352 ∧
      f.bytesPerFrame ∣ f.bytesOfSpan d := by
  intro f d e
  have hlonger : d.nanos ≤ e.nanos := by decide
  obtain ⟨hmono, hbytes, haligned⟩ := bytes_are_whole_frames_unless_cut f hlonger
  have hfits : f.exactBytes d ≤ Word.top := by decide
  have hexact : min (f.exactBytes d) Word.top = 4352 := by decide
  exact ⟨hlonger, hmono, hbytes.trans hexact, haligned.2 hfits⟩

/-- The bytes of the longest span end inside a frame. -/
theorem longest_span_ends_inside_a_frame :
    let f : Format := ⟨48000, 2, .signed16, .little⟩
    let d : Span := ⟨Span.bound - 1⟩
    f.bytesOfSpan d = Word.top ∧ ¬ f.bytesPerFrame ∣ f.bytesOfSpan d := by
  decide

end Jukebox.Format
