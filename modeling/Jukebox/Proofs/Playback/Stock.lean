import Jukebox.Proofs.Buffer.Ending
import Jukebox.Proofs.Format.Counts

/-!
A buffer that is sized, supplied with whole frames and read, while nobody seeks or aborts. It holds
what the producer has given, as much as fits, and the cursor stays within it and between frames. What
has been read, put together, is the beginning of it. Once the input has ended or the buffer is full
the limit stays where it is, and everything up to it is there.
-/

namespace Jukebox

/-- What the producer of a track does with its buffer once it is sized. -/
inductive Supply where
  | write (bytes : Bytes)
  | endInput

namespace Supply

def op : Supply → Buffer.Op
  | .write bytes => .write bytes
  | .endInput => .endInput

/-- The bytes that it gives. -/
def bytes : Supply → List UInt8
  | .write bytes => bytes.toList
  | .endInput => []

end Supply

/-- All bytes that a producer gives. -/
def given (ss : List Supply) : List UInt8 := ss.flatMap Supply.bytes

@[simp] theorem given_append (ss ss' : List Supply) : given (ss ++ ss') = given ss ++ given ss' :=
  List.flatMap_append

/-- Does it give whole frames only? -/
def GivesFrames (f : Format) (ss : List Supply) : Prop :=
  ∀ s ∈ ss, f.bytesPerFrame ∣ s.bytes.length

theorem givesFrames_append {f : Format} {ss ss' : List Supply} :
    GivesFrames f (ss ++ ss') ↔ GivesFrames f ss ∧ GivesFrames f ss' := List.forall_mem_append

namespace Format

variable {f : Format}

/-- A count of bytes that lies between frames, unless it has saturated. -/
def Between (f : Format) (n : Nat) : Prop := n ≤ Word.top ∧ (f.bytesPerFrame ∣ n ∨ n = Word.top)

theorem Between.min {m n : Nat} (hm : f.Between m) (hn : f.Between n) :
    f.Between (Min.min m n) := by
  rcases Nat.le_total m n with h | h
  · rwa [Nat.min_eq_left h]
  · rwa [Nat.min_eq_right h]

theorem between_bytesOfSpan (f : Format) (d : Span) : f.Between (f.bytesOfSpan d) := by
  refine ⟨Word.cap_le_top _, ?_⟩
  by_cases h : f.bytesOfSpan d = Word.top
  · exact .inr h
  · exact .inl (Buffer.dvd_bytesOfSpan h)

/-- Whole frames of which as many are kept as fit. -/
theorem Between.min_of_dvd {m n : Nat} (hm : f.Between m) (hn : f.bytesPerFrame ∣ n) :
    f.Between (Min.min n m) := by
  rcases Nat.le_total n m with h | h
  · rw [Nat.min_eq_left h]
    exact ⟨Nat.le_trans h hm.1, .inl hn⟩
  · rwa [Nat.min_eq_right h]

end Format

namespace Buffer

variable {f : Format} {capacity : Nat} {stock l l' : List UInt8} {b b' b'' : Buffer}
  {s : Supply} {ss : List Supply}

/-- A buffer of this size that has been given these bytes. -/
structure Stocked (f : Format) (capacity : Nat) (stock : List UInt8) (b : Buffer) : Prop where
  format : b.format = f
  sized : b.capacity? = some capacity
  unaborted : b.aborted = false
  data : b.data.toList = stock.take capacity
  limit : b.limit ≤ capacity
  behind : b.readPos ≤ b.limit ∧ b.readPos ≤ b.writePos
  ended : b.ended → b.limit ≤ b.writePos
  frames : f.bytesPerFrame ∣ b.readPos
  between : f.Between capacity ∧ f.Between b.limit
  whole : f.bytesPerFrame ∣ stock.length

/-- Everything up to the limit is there. -/
def IsSupplied (b : Buffer) : Prop := b.limit ≤ b.writePos

/-- A buffer is given more, and these bytes are read from it. -/
structure Goes (f : Format) (capacity : Nat) (stock more : List UInt8) (b : Buffer) (l : List UInt8)
    (b' : Buffer) : Prop where
  stocked : Stocked f capacity (stock ++ more) b'
  readPos : b'.readPos = b.readPos + l.length
  data : b'.data.toList.take b'.readPos = b.data.toList.take b.readPos ++ l
  settled : b.IsSupplied → b'.limit = b.limit ∧ b'.IsSupplied

theorem Goes.trans {more more' : List UInt8} (h : Goes f capacity stock more b l b')
    (h' : Goes f capacity (stock ++ more) more' b' l' b'') :
    Goes f capacity stock (more ++ more') b (l ++ l') b'' := by
  refine ⟨?_, ?_, ?_, fun hs => ?_⟩
  · rw [← List.append_assoc]
    exact h'.stocked
  · rw [h'.readPos, h.readPos, List.length_append, Nat.add_assoc]
  · rw [h'.data, h.data, List.append_assoc]
  · obtain ⟨hlimit, hs'⟩ := h.settled hs
    obtain ⟨hlimit', hs''⟩ := h'.settled hs'
    exact ⟨hlimit'.trans hlimit, hs''⟩

namespace Stocked

theorem goes (h : Stocked f capacity stock b) : Goes f capacity stock [] b [] b := by
  rw [← List.append_nil stock] at h
  exact ⟨h, rfl, (List.append_nil _).symm, fun hs => ⟨rfl, hs⟩⟩

theorem writePos_eq (h : Stocked f capacity stock b) : b.writePos = min stock.length capacity := by
  have hlen := congrArg List.length h.data
  rwa [List.length_take, Nat.min_comm] at hlen

theorem between_writePos (h : Stocked f capacity stock b) : f.Between b.writePos := by
  rw [h.writePos_eq]
  exact h.between.1.min_of_dvd h.whole

/-- A write keeps what fits. -/
theorem write (h : Stocked f capacity stock b) (bytes : Bytes) : ∃ data ready,
    (b.write bytes).1 = { b with data := data, dataReady := ready } ∧
      data.toList = (stock ++ bytes.toList).take capacity := by
  have hall : (stock ++ bytes.toList).take capacity =
      b.data.toList ++ bytes.toList.take (capacity - b.writePos) := by
    have hroom : capacity - stock.length = capacity - b.writePos := by
      rw [h.writePos_eq]
      omega
    rw [List.take_append, h.data, hroom]
  have hcapacity := h.sized
  unfold Buffer.write
  rw [if_neg (by simp [h.unaborted])]
  split
  · next hnone => cases hcapacity.symm.trans hnone
  · next capacity' hsome =>
    cases hcapacity.symm.trans hsome
    dsimp only
    split
    · next hnone =>
      refine ⟨b.data, b.dataReady, rfl, ?_⟩
      have hnil : bytes.toList.take (capacity - b.writePos) = [] := by
        rw [List.take_eq_nil_iff, ← List.length_eq_zero_iff, Array.length_toList]
        omega
      rw [hall, hnil, List.append_nil]
    · refine ⟨_, _, rfl, ?_⟩
      have htake : bytes.toList.take (min bytes.size (capacity - b.writePos)) =
          bytes.toList.take (capacity - b.writePos) := by
        rw [List.take_eq_take_iff, Array.length_toList]
        omega
      rw [hall, ← htake]
      simp

/-- What the producer does keeps the cursor where it is. -/
theorem supply_one (h : Stocked f capacity stock b) (hs : f.bytesPerFrame ∣ s.bytes.length) :
    Goes f capacity stock s.bytes b [] (b.apply s.op) := by
  cases s with
  | write bytes =>
    obtain ⟨data, ready, hw, hdata⟩ := h.write bytes
    have hwhole : f.bytesPerFrame ∣ (stock ++ bytes.toList).length := by
      rw [List.length_append]
      exact Nat.dvd_add h.whole hs
    have hgrows : b.writePos ≤ data.size := by
      rw [← Array.length_toList, hdata, h.writePos_eq, List.length_take, List.length_append]
      omega
    have hprefix : data.toList.take b.readPos = b.data.toList.take b.readPos := by
      have hread := h.behind.2
      rw [h.writePos_eq] at hread
      rw [hdata, h.data, List.take_take, List.take_take, List.take_append_of_le_length (by omega)]
    have hmore : b.limit ≤ b.writePos → b.limit ≤ data.size := fun hle => Nat.le_trans hle hgrows
    simp only [Supply.op, Buffer.apply, hw]
    refine ⟨⟨h.format, h.sized, h.unaborted, hdata, h.limit,
      ⟨h.behind.1, Nat.le_trans h.behind.2 hgrows⟩, fun he => hmore (h.ended he), h.frames, h.between,
      hwhole⟩, rfl, ?_, fun hle => ⟨rfl, hmore hle⟩⟩
    rw [List.append_nil]
    exact hprefix
  | endInput =>
    simp only [Supply.op, Supply.bytes, Buffer.apply, endInput]
    split
    · exact h.goes
    · have hstill : min b.readPos b.writePos = b.readPos := Nat.min_eq_left h.behind.2
      have hbehind := h.behind
      simp only [hstill]
      refine ⟨⟨h.format, h.sized, h.unaborted, ?_, ?_, ⟨?_, h.behind.2⟩, fun _ => ?_, h.frames,
        ⟨h.between.1, h.between.2.min h.between_writePos⟩, ?_⟩, rfl, (List.append_nil _).symm,
        fun hle => ⟨?_, ?_⟩⟩
      · rw [List.append_nil]
        exact h.data
      · exact Nat.le_trans (Nat.min_le_left ..) h.limit
      · exact Nat.le_min.2 hbehind
      · exact Nat.min_le_right ..
      · rw [List.append_nil]
        exact h.whole
      · exact Nat.min_eq_left hle
      · exact Nat.min_le_right ..

end Stocked

/-- The producer has done these things. -/
def supply (b : Buffer) (ss : List Supply) : Buffer := b.run (ss.map Supply.op)

theorem Stocked.supply (h : Stocked f capacity stock b) (hss : GivesFrames f ss) :
    Goes f capacity stock (given ss) b [] (b.supply ss) := by
  induction ss generalizing stock b with
  | nil => exact h.goes
  | cons s ss ih =>
    have hfirst := h.supply_one (hss s (List.mem_cons_self ..))
    exact hfirst.trans (ih hfirst.stocked fun s' hs' => hss s' (List.mem_cons_of_mem _ hs'))

/-- A read takes as many frames as there are. -/
theorem Stocked.readable_eq (h : Stocked f capacity stock b) (hf : 0 < f.bytesPerFrame)
    (want : Nat) : b.readable (want * f.bytesPerFrame) =
      min want ((min b.limit b.writePos - b.readPos) / f.bytesPerFrame) * f.bytesPerFrame := by
  have hsized : b.isSized := by simp [isSized, h.sized]
  rw [readable, h.format, if_pos ⟨hsized, hf⟩]
  dsimp only
  generalize min b.limit b.writePos - b.readPos = available
  have hdiv : min available (want * f.bytesPerFrame) / f.bytesPerFrame =
      min want (available / f.bytesPerFrame) := by
    rcases Nat.le_total available (want * f.bytesPerFrame) with hle | hle
    · rw [Nat.min_eq_left hle, Nat.min_eq_right (Nat.div_le_of_le_mul (by rwa [Nat.mul_comm]))]
    · rw [Nat.min_eq_right hle, Nat.mul_div_cancel _ hf,
        Nat.min_eq_left ((Nat.le_div_iff_mul_le hf).2 hle)]
  rw [Nat.mul_mod_left, Nat.sub_zero, ← hdiv]
  have hsplit := Nat.div_add_mod' (min available (want * f.bytesPerFrame)) f.bytesPerFrame
  omega

theorem Stocked.read (h : Stocked f capacity stock b) (hf : 0 < f.bytesPerFrame) (want : Nat) :
    Goes f capacity stock [] b (b.read (want * f.bytesPerFrame)).2.toList
        (b.read (want * f.bytesPerFrame)).1 ∧
      (b.read (want * f.bytesPerFrame)).2.size =
        min want ((min b.limit b.writePos - b.readPos) / f.bytesPerFrame) * f.bytesPerFrame := by
  have hcount := h.readable_eq hf want
  have hbehind := h.behind
  -- no more is read than there is
  have hthere : b.readable (want * f.bytesPerFrame) ≤ min b.limit b.writePos - b.readPos := by
    rw [hcount]
    refine Nat.le_trans (Nat.mul_le_mul_right _ (Nat.min_le_right ..)) ?_
    exact Nat.div_mul_le_self ..
  have hlist : (b.read (want * f.bytesPerFrame)).2.toList =
      (b.data.toList.drop b.readPos).take (b.readable (want * f.bytesPerFrame)) := by
    simp [Buffer.read, Bytes.slice, List.extract_eq_take_drop]
  have hsize : (b.read (want * f.bytesPerFrame)).2.size =
      b.readable (want * f.bytesPerFrame) := by
    have hwritten : b.data.size = b.writePos := rfl
    rw [← Array.length_toList, hlist, List.length_take, List.length_drop, Array.length_toList]
    omega
  refine ⟨⟨?_, ?_, ?_, fun hs => ⟨rfl, hs⟩⟩, hsize.trans hcount⟩
  · rw [List.append_nil]
    have hframes : f.bytesPerFrame ∣ b.readable (want * f.bytesPerFrame) := by
      rw [hcount]
      exact Nat.dvd_mul_left ..
    refine ⟨h.format, h.sized, h.unaborted, h.data, h.limit, ?_, h.ended,
      Nat.dvd_add h.frames hframes, h.between, h.whole⟩
    show b.readPos + _ ≤ b.limit ∧ b.readPos + _ ≤ b.writePos
    omega
  · rw [Array.length_toList, hsize]
    rfl
  · rw [hlist]
    exact List.take_add

/-- A new buffer that has been sized. -/
def sized (f : Format) (d : Span) : Buffer := (empty f).apply (.size d)

theorem stocked_sized (f : Format) (d : Span) : Stocked f (f.bytesOfSpan d) [] (sized f d) := by
  have hlimit := f.between_bytesOfSpan d
  have hstart : (sized f d).readPos = 0 := Nat.zero_min _
  refine ⟨rfl, rfl, rfl, List.take_nil.symm, Nat.le_refl _, ?_, nofun, ?_, ⟨hlimit, hlimit⟩,
    Nat.dvd_zero _⟩
  · rw [hstart]
    exact ⟨Nat.zero_le _, Nat.zero_le _⟩
  · rw [hstart]
    exact Nat.dvd_zero _

end Buffer

end Jukebox
