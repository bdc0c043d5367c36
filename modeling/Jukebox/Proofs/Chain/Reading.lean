import Jukebox.Proofs.Buffer.Bounds

/-!
What a read takes. Whatever a buffer and the chain on it have been through, a read takes the whole
frames that fit into its room and are there: before the limit, before the end of what has been
written, and before the end of a fade. The cursor moves on behind them, and nothing else changes.
-/

namespace Jukebox

theorem min_div (m n frame : Nat) : min m n / frame = min (m / frame) (n / frame) := by
  rcases Nat.le_total m n with h | h
  · rw [Nat.min_eq_left h, Nat.min_eq_left (Nat.div_le_div_right h)]
  · rw [Nat.min_eq_right h, Nat.min_eq_right (Nat.div_le_div_right h)]

namespace Buffer

variable {b : Buffer}

/-- The bytes from the cursor to the limit or to the end of what has been written, whichever comes
first. There are none before the buffer is sized. -/
def available (b : Buffer) : Nat :=
  if b.isSized then min b.limit b.writePos - b.readPos else 0

theorem available_eq (h : b.Bounded) : b.available = min b.limit b.writePos - b.readPos := by
  unfold available
  split
  · rfl
  · next hs =>
    -- without a capacity there is no limit
    have hlimit := h.limit
    have hnone := capacity_of_unsized hs
    omega

theorem available_skip (b : Buffer) (n : Nat) :
    ({ b with readPos := b.readPos + n } : Buffer).available = b.available - n := by
  by_cases hs : b.isSized
  · have hs' : ({ b with readPos := b.readPos + n } : Buffer).isSized := hs
    rw [available, available, if_pos hs', if_pos hs, Nat.sub_add_eq]
    rfl
  · have hs' : ¬ ({ b with readPos := b.readPos + n } : Buffer).isSized := hs
    rw [available, available, if_neg hs', if_neg hs, Nat.zero_sub]

/-- A read takes the whole frames that fit and are there. -/
theorem readable_eq (b : Buffer) (room : Nat) : b.readable room =
    min b.available room / b.format.bytesPerFrame * b.format.bytesPerFrame := by
  unfold readable available
  generalize b.format.bytesPerFrame = frame
  rcases Nat.eq_zero_or_pos frame with rfl | hpos
  · simp
  · by_cases hs : b.isSized
    · rw [if_pos ⟨hs, hpos⟩, if_pos hs]
      dsimp only
      rw [← Nat.div_mul_self_eq_mod_sub_self, ← Nat.div_mul_self_eq_mod_sub_self, min_div, min_div,
        Nat.mul_div_cancel _ hpos]
    · simp [hs]

theorem dvd_readable (b : Buffer) (room : Nat) : b.format.bytesPerFrame ∣ b.readable room := by
  rw [readable_eq]
  exact Nat.dvd_mul_left ..

theorem toList_read (b : Buffer) (room : Nat) :
    (b.read room).2.toList = (b.data.toList.drop b.readPos).take (b.readable room) := by
  simp [read, Bytes.slice, List.extract_eq_take_drop]

theorem length_read (b : Buffer) (room : Nat) :
    (b.read room).2.toList.length = b.readable room := by
  have hthere := readable_le b room
  have hsize : b.data.size = b.writePos := rfl
  rw [toList_read, List.length_take, List.length_drop, Array.length_toList]
  omega

end Buffer

namespace Chain

variable {c : Chain} {m n frame : Nat}

/-- The bytes from the cursor to what bounds a read: the limit, the end of what has been written, or
the end of a fade. -/
def available (c : Chain) : Nat :=
  match c.fade with
  | none => c.buffer.available
  | some fade => min c.buffer.available (fade.last - c.buffer.readPos)

/-- The next bytes. -/
def ahead (c : Chain) (count : Nat) : Bytes := c.buffer.data.slice c.buffer.readPos count

/-- The chain with the cursor moved on. -/
def skip (c : Chain) (count : Nat) : Chain :=
  { c with buffer := { c.buffer with readPos := c.buffer.readPos + count } }

theorem skip_skip (c : Chain) (m n : Nat) : (c.skip m).skip n = c.skip (m + n) := by
  simp only [skip, Nat.add_assoc]

theorem ahead_append (c : Chain) (m n : Nat) :
    c.ahead m ++ (c.skip m).ahead n = c.ahead (m + n) := by
  simp only [ahead, skip, Bytes.slice, Array.extract_append_extract, Nat.add_assoc]
  rw [Nat.min_eq_left (Nat.le_add_right ..), Nat.max_eq_right]
  omega

theorem available_skip (c : Chain) (n : Nat) : (c.skip n).available = c.available - n := by
  have hb := Buffer.available_skip c.buffer n
  unfold available
  cases hfade : c.fade with
  | none => simp only [skip, hfade, hb]
  | some fade =>
    simp only [skip, hfade, hb]
    omega

theorem available_le (c : Chain) : c.available ≤ c.buffer.writePos - c.buffer.readPos := by
  have hb : c.buffer.available ≤ c.buffer.writePos - c.buffer.readPos := by
    unfold Buffer.available
    split <;> omega
  unfold available
  split
  · exact hb
  · exact Nat.le_trans (Nat.min_le_left ..) hb

theorem size_ahead (h : n ≤ c.available) : (c.ahead n).size = n := by
  have hle := c.available_le
  have hsize : c.buffer.data.size = c.buffer.writePos := rfl
  rw [ahead, Bytes.slice, Array.size_extract]
  omega

/-- A read takes the whole frames that fit and are there. -/
theorem readable_eq (hframe : c.buffer.format.bytesPerFrame = frame) (room : Nat) :
    c.buffer.readable (c.room room) = min c.available room / frame * frame := by
  rw [Buffer.readable_eq, hframe, available, Chain.room]
  cases c.fade with
  | none => rfl
  | some fade => rw [Nat.min_assoc]

/-- The cursor moves behind what a read takes. -/
theorem read_eq (hframe : c.buffer.format.bytesPerFrame = frame) (room : Nat) :
    c.read room = (c.skip (min c.available room / frame * frame),
      c.ahead (min c.available room / frame * frame)) := by
  simp only [read, Buffer.read, readable_eq hframe, skip, ahead]

/-- How many frames are taken when so many are asked for. -/
def taken (c : Chain) (frame asked : Nat) : Nat := min asked (c.available / frame)

theorem size_ahead_taken (c : Chain) (frame asked : Nat) :
    (c.ahead (c.taken frame asked * frame)).size = c.taken frame asked * frame := by
  refine size_ahead (Nat.le_trans (Nat.mul_le_mul_right _ (Nat.min_le_right ..)) ?_)
  exact Nat.div_mul_le_self ..

/-- Behind frames that have been taken, the rest of them is taken. -/
theorem taken_skip (hm : m ≤ c.available / frame) (n : Nat) :
    m + (c.skip (m * frame)).taken frame n = c.taken frame (m + n) := by
  rw [taken, available_skip, Nat.mul_comm, Nat.sub_mul_div, taken]
  omega

/-- A read with room for whole frames takes as many as are there. -/
theorem read_frames (hframe : c.buffer.format.bytesPerFrame = frame) (hf : 0 < frame) (n : Nat) :
    c.read (n * frame) =
      (c.skip (c.taken frame n * frame), c.ahead (c.taken frame n * frame)) := by
  rw [read_eq hframe, min_div, Nat.mul_div_cancel _ hf, Nat.min_comm, taken]

end Chain

end Jukebox
