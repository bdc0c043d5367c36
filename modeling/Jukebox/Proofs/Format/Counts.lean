import Jukebox.Format

/-!
Counts of frames and bytes in words that saturate. The bytes of a span are those of its whole
frames, cut off once, at the largest word. That word is odd and a frame has an even number of bytes,
so a count that is the largest word has been cut off. More bytes never take less time.
-/

namespace Jukebox.Format

variable {f : Format} {d : Span} {m n : Nat}

theorem bytesPerSample_pos (f : Format) : 0 < f.bytesPerSample := by
  unfold bytesPerSample Encoding.size
  split <;> decide

theorem bytesPerFrame_pos (h : 1 ≤ f.channels) : 0 < f.bytesPerFrame :=
  Nat.mul_pos f.bytesPerSample_pos h

/-- A count of frames may saturate before it is turned into bytes. -/
theorem bytesOfFrames_cap (frames : Nat) :
    f.bytesOfFrames (Word.cap frames) = f.bytesOfFrames frames := by
  unfold Format.bytesOfFrames Word.cap
  rcases Nat.eq_zero_or_pos f.bytesPerFrame with h0 | hpos
  · rw [h0, Nat.mul_zero, Nat.mul_zero]
  · rcases Nat.le_total frames Word.top with h | h
    · rw [Nat.min_eq_left h]
    · have htop : Word.top ≤ Word.top * f.bytesPerFrame := Nat.le_mul_of_pos_right _ hpos
      have hframes : Word.top ≤ frames * f.bytesPerFrame :=
        Nat.le_trans h (Nat.le_mul_of_pos_right _ hpos)
      rw [Nat.min_eq_right h, Nat.min_eq_right htop, Nat.min_eq_right hframes]

/-- The bytes of the whole frames in a span, were there no largest word. -/
def exactBytes (f : Format) (d : Span) : Nat := d.nanos * f.rate / Span.second * f.bytesPerFrame

theorem bytesOfSpan_eq_cap (f : Format) (d : Span) : f.bytesOfSpan d = Word.cap (f.exactBytes d) :=
  bytesOfFrames_cap _

theorem two_dvd_bytesPerFrame (f : Format) : 2 ∣ f.bytesPerFrame := by
  unfold bytesPerFrame bytesPerSample Encoding.size
  split <;> omega

theorem bytesOfSpan_eq_top_iff : f.bytesOfSpan d = Word.top ↔ Word.top < f.exactBytes d := by
  have heven : 2 ∣ f.exactBytes d := Nat.dvd_mul_left_of_dvd f.two_dvd_bytesPerFrame _
  have hodd : ¬ 2 ∣ Word.top := by decide
  rw [bytesOfSpan_eq_cap, Word.cap]
  constructor
  · intro h
    have hne : f.exactBytes d ≠ Word.top := fun he => hodd (he ▸ heven)
    omega
  · intro h
    exact Nat.min_eq_right (Nat.le_of_lt h)

theorem spanOfBytes_mono (h : m ≤ n) : (f.spanOfBytes m).nanos ≤ (f.spanOfBytes n).nanos := by
  unfold spanOfBytes
  split
  · exact Nat.le_refl _
  · refine Word.cap_mono (Nat.div_le_div_right (Nat.mul_le_mul_right _ ?_))
    exact Nat.div_le_div_right h

end Jukebox.Format
