/-!
Counts of frames and bytes are kept in 64-bit words that saturate: a result too large for a word
becomes the largest word instead of wrapping around. The counts themselves are natural numbers here,
and `Word.cap` says what is left of one after it went through a word.
-/

namespace Jukebox.Word

/-- The largest count a word holds. -/
def top : Nat := Nat.pow 2 64 - 1

/-- A count as a word holds it. -/
def cap (n : Nat) : Nat := min n top

theorem cap_le_top (n : Nat) : cap n ≤ top := Nat.min_le_right n top

theorem cap_eq_self {n : Nat} (h : n ≤ top) : cap n = n := Nat.min_eq_left h

theorem cap_mono {m n : Nat} (h : m ≤ n) : cap m ≤ cap n := by
  unfold cap; omega

end Jukebox.Word
