import Jukebox.Chain
import Jukebox.Proofs.Buffer.Refinement

/-!
The end of a stream. A buffer that is finished has nothing left to read, and unless somebody seeks
or aborts it stays so whatever is still written, declared or sized; a chain on it keeps this, with a
fade or without. The other way round, where only whole frames are written and the input is not
declared to end before the buffer is sized, a read that finds no whole frame once the input has
ended or the buffer is full has found the end.
-/

namespace Jukebox

namespace Buffer

variable {f : Format} {ops : List Op} {op : Op} {b : Buffer}

/-! ### Nothing left -/

/-- There is nothing left to read, now or later. -/
structure Drained (b : Buffer) : Prop where
  sized : b.isSized
  supplied : b.ended ∨ b.limit ≤ b.writePos
  behind : b.limit ≤ b.readPos

theorem isFinished_iff (ha : b.aborted = false) : b.isFinished ↔ b.Drained := by
  simp only [isFinished, ha, Bool.false_or, Bool.and_eq_true, Bool.or_eq_true, decide_eq_true_eq]
  exact ⟨fun ⟨⟨hs, hp⟩, hr⟩ => ⟨hs, hp, hr⟩, fun ⟨hs, hp, hr⟩ => ⟨⟨hs, hp⟩, hr⟩⟩

theorem readable_of_drained (h : b.Drained) (room : Nat) : b.readable room = 0 := by
  have hbehind := h.behind
  unfold readable
  split
  · have hnone : min b.limit b.writePos - b.readPos = 0 := by omega
    simp [hnone]
  · rfl

theorem read_of_readable {room : Nat} (h : b.readable room = 0) : b.read room = (b, #[]) := by
  have hnone : b.data.slice b.readPos 0 = #[] :=
    Array.extract_empty_of_stop_le_start (Nat.le_refl _)
  rw [read, h]
  simp [hnone]

/-- A write appends to the data, and that is all that reading sees of it. -/
theorem write_cases (b : Buffer) (bytes : Bytes) : ∃ more ready,
    (b.write bytes).1 = { b with data := b.data ++ more, dataReady := ready } := by
  unfold write
  split
  · exact ⟨#[], b.dataReady, by simp⟩
  · split
    · exact ⟨#[], b.dataReady, by simp⟩
    · dsimp only
      split
      · exact ⟨#[], b.dataReady, by simp⟩
      · exact ⟨_, _, rfl⟩

theorem write_of_aborted (h : b.aborted) (bytes : Bytes) : b.write bytes = (b, false) := by
  rw [write, if_pos h]

/-- A buffer is sized once, and that sets its limit and the cursor. -/
theorem size_eq_ok {b' : Buffer} {d : Span} (h : b.size d = .ok b') : b.capacity? = none ∧
    ∃ capacity start, b' = { b with capacity? := some capacity, limit := capacity,
                                    readPos := start, pendingSeek := start } := by
  unfold size at h
  split at h
  · cases h
  · next hc =>
    cases h
    exact ⟨hc, _, _, rfl⟩

/-- An operation that neither moves the cursor at will nor aborts keeps the end an end. -/
theorem Drained.apply (h : b.Drained) (hseek : op.isSeek = false) (hab : op.isAbort = false) :
    (b.apply op).Drained := by
  have hbehind := h.behind
  have hsupplied := h.supplied
  cases op with
  | seekFrame frame => cases hseek
  | seek d => cases hseek
  | abort => cases hab
  | fail => cases hab
  | read room =>
    rw [Buffer.apply, read_of_readable (readable_of_drained h room)]
    exact h
  | write bytes =>
    obtain ⟨more, ready, hw⟩ := write_cases b bytes
    rw [Buffer.apply, hw]
    refine ⟨h.sized, hsupplied.imp id fun hle => ?_, hbehind⟩
    show b.limit ≤ (b.data ++ more).size
    rw [Array.size_append]
    exact Nat.le_trans hle (Nat.le_add_right ..)
  | size d =>
    obtain ⟨capacity, hc⟩ := Option.isSome_iff_exists.1 h.sized
    have hsame : b.apply (.size d) = b := by simp [Buffer.apply, size, hc, Except.toOption]
    rw [hsame]
    exact h
  | endInput =>
    rw [Buffer.apply, endInput]
    split
    · exact h
    · -- the cursor may be pulled back, but not below the limit
      next he =>
      refine ⟨h.sized, .inl rfl, ?_⟩
      have hle : b.limit ≤ b.writePos := hsupplied.resolve_left he
      show min b.limit b.writePos ≤ min b.readPos b.writePos
      omega

theorem aborted_apply (hab : op.isAbort = false) : (b.apply op).aborted = b.aborted := by
  cases op with
  | abort => cases hab
  | fail => cases hab
  | read room => rfl
  | write bytes =>
    obtain ⟨more, ready, hw⟩ := write_cases b bytes
    rw [Buffer.apply, hw]
  | size d => cases hc : b.capacity? <;> simp [Buffer.apply, size, hc, Except.toOption]
  | seekFrame frame | seek d => simp only [Buffer.apply, seek, seekFrame]; split <;> rfl
  | endInput => simp only [Buffer.apply, endInput]; split <;> rfl

theorem Drained.run (h : b.Drained) (ha : b.aborted = false) (later : List Op)
    (hlater : ∀ op ∈ later, op.isSeek = false ∧ op.isAbort = false) :
    (b.run later).Drained ∧ (b.run later).aborted = false := by
  induction later generalizing b with
  | nil => exact ⟨h, ha⟩
  | cons op later ih =>
    obtain ⟨hseek, hab⟩ := hlater op (List.mem_cons_self ..)
    exact ih (h.apply hseek hab) ((aborted_apply hab).trans ha) fun o ho =>
      hlater o (List.mem_cons_of_mem _ ho)

/-- Before a buffer is sized its cursor has not moved. -/
theorem readPos_of_unsized (f : Format) (ops : List Op) :
    ((empty f).run ops).isSized = false → ((empty f).run ops).readPos = 0 := by
  refine run_induction (P := fun _ b => b.isSized = false → b.readPos = 0) f (fun _ => rfl)
    (fun ops op => ?_) ops
  generalize (empty f).run ops = b
  intro ih
  have hunsized : b.isSized = false → b.capacity? = none := by simp [isSized]
  cases op with
  | abort => exact ih
  | fail => exact ih
  | read room =>
    intro hs
    have hnone : b.readable room = 0 := by simp [readable, show b.isSized = false from hs]
    rw [Buffer.apply, read_of_readable hnone]
    exact ih hs
  | write bytes =>
    obtain ⟨more, ready, hw⟩ := write_cases b bytes
    rw [Buffer.apply, hw]
    exact ih
  | size d => cases hc : b.capacity? <;> simp [Buffer.apply, size, hc, Except.toOption, isSized]
  | seekFrame frame | seek d =>
    intro hs
    have hb : b.isSized = false := by
      simp only [Buffer.apply, seek, seekFrame] at hs
      split at hs <;> exact hs
    simpa [Buffer.apply, seek, seekFrame, hb] using ih hb
  | endInput =>
    simp only [Buffer.apply, endInput]
    split
    · exact ih
    · intro hs
      have hr := ih hs
      show min b.readPos b.writePos = 0
      omega

/-! ### The end is told -/

def Op.isEnd : Op → Bool
  | .endInput => true
  | _ => false

/-- The input is not declared to end before the buffer is sized. -/
def EndsAfterSizing (ops : List Op) : Prop :=
  ∀ op ∈ ops.takeWhile fun op => op.span?.isNone, op.isEnd = false

/-- Only whole frames are written. -/
def WritesFrames (f : Format) (ops : List Op) : Prop :=
  ∀ bytes, .write bytes ∈ ops → f.bytesPerFrame ∣ bytes.size

/-- All positions of a buffer are between frames. -/
structure Aligned (f : Format) (b : Buffer) : Prop where
  written : f.bytesPerFrame ∣ b.writePos
  limit : f.bytesPerFrame ∣ b.limit
  read : f.bytesPerFrame ∣ b.readPos
  bounded : b.limit ≤ b.capacity
  /-- A start asked for before the sizing is a count of frames that may have saturated. -/
  pending : b.isSized = false → ∃ n, b.pendingSeek = f.bytesOfFrames n

theorem sizing?_of_concat (h : sizing? f (ops ++ [op]) ≠ some Word.top) :
    sizing? f ops ≠ some Word.top := by
  intro hs
  rw [sizing?_concat, hs] at h
  exact h rfl

theorem dvd_min {frame m n : Nat} (hm : frame ∣ m) (hn : frame ∣ n) : frame ∣ min m n := by
  rcases Nat.le_total m n with h | h
  · rwa [Nat.min_eq_left h]
  · rwa [Nat.min_eq_right h]

/-- A count of frames that is bounded by whole frames: where the count saturates, the bound is
smaller. -/
theorem dvd_min_bytesOfFrames {c : Nat} (hc : f.bytesPerFrame ∣ c) (hle : c ≤ Word.top) (n : Nat) :
    f.bytesPerFrame ∣ min (f.bytesOfFrames n) c := by
  unfold Format.bytesOfFrames Word.cap
  rcases Nat.le_total (n * f.bytesPerFrame) Word.top with h | h
  · rw [Nat.min_eq_left h]
    exact dvd_min (Nat.dvd_mul_left ..) hc
  · rw [Nat.min_eq_right h, Nat.min_eq_right hle]
    exact hc

theorem dvd_bytesOfSpan {d : Span} (h : f.bytesOfSpan d ≠ Word.top) :
    f.bytesPerFrame ∣ f.bytesOfSpan d := by
  unfold Format.bytesOfSpan Format.bytesOfFrames Word.cap at h ⊢
  rw [Nat.min_eq_left (by omega)]
  exact Nat.dvd_mul_left ..

theorem capacity_le_top (h : Follows f ops b) : b.capacity ≤ Word.top := by
  rw [capacity, h.capacity, sizing?]
  cases ops.findSome? Op.span? with
  | none => exact Nat.zero_le _
  | some d => exact Word.cap_le_top _

/-- Whole frames and a size that has not saturated keep all positions between frames. -/
theorem Aligned.apply (h : Aligned f b) (hb : Follows f ops b)
    (hw : ∀ bytes, op = .write bytes → f.bytesPerFrame ∣ bytes.size)
    (hcap : sizing? f (ops ++ [op]) ≠ some Word.top) : Aligned f (b.apply op) := by
  obtain ⟨hwritten, hlimit, hread, hbounded, hpending⟩ := h
  have hfull := capacity_le_top hb
  -- a capacity is made of whole frames
  have hwhole : ∀ capacity, b.capacity? = some capacity → f.bytesPerFrame ∣ capacity := by
    intro capacity hc
    rw [hb.capacity] at hc
    rw [sizing?_concat, hc] at hcap
    obtain ⟨d, -, rfl⟩ := Option.map_eq_some_iff.1 hc
    exact dvd_bytesOfSpan fun he => hcap (by simp [he])
  cases op with
  | abort => exact ⟨hwritten, hlimit, hread, hbounded, hpending⟩
  | fail => exact ⟨hwritten, hlimit, hread, hbounded, hpending⟩
  | read room =>
    have hcount := (hb.readable room).whole
    exact ⟨hwritten, hlimit, Nat.dvd_add hread hcount, hbounded, hpending⟩
  | endInput =>
    simp only [Buffer.apply, endInput]
    split
    · exact ⟨hwritten, hlimit, hread, hbounded, hpending⟩
    · refine ⟨hwritten, dvd_min hlimit hwritten, dvd_min hread hwritten, ?_, hpending⟩
      exact Nat.le_trans (Nat.min_le_left ..) hbounded
  | seekFrame frame | seek d =>
    simp only [Buffer.apply, seek, seekFrame, hb.format]
    split
    · next hs =>
      refine ⟨hwritten, hlimit, ?_, hbounded, hpending⟩
      exact dvd_min_bytesOfFrames hlimit (Nat.le_trans hbounded hfull) _
    · exact ⟨hwritten, hlimit, hread, hbounded, fun _ => ⟨_, rfl⟩⟩
  | size d =>
    cases hc : b.capacity? with
    | some capacity =>
      have hsame : b.apply (.size d) = b := by simp [Buffer.apply, size, hc, Except.toOption]
      rw [hsame]
      exact ⟨hwritten, hlimit, hread, hbounded, hpending⟩
    | none =>
      have hd : f.bytesPerFrame ∣ f.bytesOfSpan d := by
        rw [hb.capacity] at hc
        rw [sizing?_concat, hc] at hcap
        exact dvd_bytesOfSpan fun he => hcap (by simp [Op.span?, he])
      obtain ⟨n, hn⟩ := hpending (by simp [isSized, hc])
      simp only [Buffer.apply, size, hc, Except.toOption, Option.getD_some, hb.format, hn]
      refine ⟨hwritten, hd, dvd_min_bytesOfFrames hd (Word.cap_le_top _) n, Nat.le_refl _, ?_⟩
      rintro ⟨⟩
  | write bytes =>
    simp only [Buffer.apply, write]
    split
    · exact ⟨hwritten, hlimit, hread, hbounded, hpending⟩
    · split
      · exact ⟨hwritten, hlimit, hread, hbounded, hpending⟩
      · next capacity hc =>
        split
        · exact ⟨hwritten, hlimit, hread, hbounded, hpending⟩
        · refine ⟨?_, hlimit, hread, hbounded, hpending⟩
          have hmore : f.bytesPerFrame ∣ min bytes.size (capacity - b.writePos) :=
            dvd_min (hw bytes rfl) (Nat.dvd_sub (hwhole capacity hc) hwritten)
          show f.bytesPerFrame ∣ (b.data ++ bytes.extract 0 _).size
          rw [Array.size_append, Array.size_extract]
          refine Nat.dvd_add hwritten ?_
          rwa [Nat.sub_zero, Nat.min_eq_left (Nat.min_le_left ..)]

theorem aligned_run (hw : WritesFrames f ops) (hcap : sizing? f ops ≠ some Word.top) :
    Aligned f ((empty f).run ops) := by
  refine run_induction (P := fun ops b => WritesFrames f ops → sizing? f ops ≠ some Word.top →
    Aligned f b) f (fun _ _ => ?_) (fun ops op ih hw hcap => ?_) ops hw hcap
  · exact ⟨Nat.dvd_zero _, Nat.dvd_zero _, Nat.dvd_zero _, Nat.le_refl _, fun _ =>
      ⟨0, by simp [empty, Format.bytesOfFrames, Word.cap]⟩⟩
  · have hold := ih (fun bytes hm => hw bytes (List.mem_append_left _ hm)) (sizing?_of_concat hcap)
    refine hold.apply (follows_run f ops) (fun bytes he => hw bytes ?_) hcap
    simp [he]

/-- An end that is declared after the sizing lowers the limit to what has been written. -/
theorem limit_le_of_ended (h : EndsAfterSizing ops) : ((empty f).run ops).ended →
    ((empty f).run ops).isSized ∧ ((empty f).run ops).limit ≤ ((empty f).run ops).writePos := by
  refine run_induction (P := fun ops b => EndsAfterSizing ops → b.ended →
    b.isSized ∧ b.limit ≤ b.writePos) f (fun _ he => by cases he) (fun ops op ih h => ?_) ops h
  have hb := follows_run f ops
  generalize (empty f).run ops = b at ih hb
  -- before the sizing all operations are looked at
  have hbefore : b.isSized = false → ∀ o ∈ ops, o.span?.isNone := by
    intro hs o ho
    have hnone : sizing? f ops = none := by
      rw [← hb.capacity]
      simpa [isSized] using hs
    simp [List.findSome?_eq_none_iff.1 (sizing?_eq_none.1 hnone) o ho]
  have hold : EndsAfterSizing ops := by
    intro o ho
    refine h o ?_
    rw [List.takeWhile_append]
    split
    · exact List.mem_append_left _ ((List.takeWhile_sublist _).subset ho)
    · exact ho
  have same := ih hold
  cases op with
  | read room => exact same
  | abort => exact same
  | fail => exact same
  | seekFrame frame | seek d => simp only [Buffer.apply, seek, seekFrame]; split <;> exact same
  | write bytes =>
    obtain ⟨more, ready, hw⟩ := write_cases b bytes
    rw [Buffer.apply, hw]
    intro he
    refine ⟨(same he).1, ?_⟩
    show b.limit ≤ (b.data ++ more).size
    rw [Array.size_append]
    exact Nat.le_trans (same he).2 (Nat.le_add_right ..)
  | size d =>
    cases hc : b.capacity? with
    | some capacity =>
      have hsame : b.apply (.size d) = b := by simp [Buffer.apply, size, hc, Except.toOption]
      rw [hsame]
      exact same
    | none =>
      intro he
      have hs := (same (by simpa [Buffer.apply, size, hc, Except.toOption] using he)).1
      simp [isSized, hc] at hs
  | endInput =>
    have hsized : b.isSized := by
      refine Bool.eq_false_or_eq_true b.isSized |>.resolve_right fun hs => ?_
      have hall := hbefore hs
      have hend : Op.endInput.isEnd = false := by
        refine h _ ?_
        rw [List.takeWhile_append_of_pos hall]
        exact List.mem_append_right _ (List.mem_singleton.2 rfl)
      cases hend
    intro _
    simp only [Buffer.apply, endInput]
    split
    · next he => exact same he
    · exact ⟨hsized, Nat.min_le_right ..⟩

/-- A read that leaves room for a frame and finds none has found the end, once the input has ended
or the buffer is full. -/
theorem isFinished_of_empty_read (hsizing : EndsAfterSizing ops) (hw : WritesFrames f ops)
    (hcap : sizing? f ops ≠ some Word.top)
    (hend : ((empty f).run ops).ended ∨ ((empty f).run ops).isFull) {room : Nat}
    (hroom : f.bytesPerFrame ≤ room) (hread : (((empty f).run ops).read room).2 = #[]) :
    ((empty f).run ops).isFinished := by
  have hended := limit_le_of_ended (f := f) hsizing
  have halign := aligned_run hw hcap
  have hb := follows_run f ops
  generalize (empty f).run ops = b at *
  obtain ⟨-, hlimit, hpos, hbounded, -⟩ := halign
  have hsupply : b.isSized ∧ b.limit ≤ b.writePos := by
    rcases hend with he | hfull
    · exact hended he
    · simp only [isFull, Bool.and_eq_true, decide_eq_true_eq] at hfull
      exact ⟨hfull.1, Nat.le_trans hbounded hfull.2⟩
  obtain ⟨hsized, hle⟩ := hsupply
  have hbehind : b.limit ≤ b.readPos := by
    rcases Nat.eq_zero_or_pos f.bytesPerFrame with hzero | hframe
    · rw [hzero, Nat.zero_dvd] at hlimit
      omega
    · have hnone : b.readable room = 0 := by
        rw [← (hb.read room).2.1, hread]
        rfl
      have hlargest := (hb.readable room).largest f.bytesPerFrame (Nat.dvd_refl _) hroom
      rw [hnone, Nat.min_eq_left hle] at hlargest
      -- less than a frame is there, and all positions are between frames
      have hshort : b.limit - b.readPos < f.bytesPerFrame := by
        refine Nat.lt_of_not_le fun hlong => ?_
        have := hlargest hlong
        omega
      have hzero := Nat.eq_zero_of_dvd_of_lt (Nat.dvd_sub hlimit hpos) hshort
      omega
  cases ha : b.aborted with
  | true => simp [isFinished, ha]
  | false => exact (isFinished_iff ha).2 ⟨hsized, .inr hle, hbehind⟩

end Buffer

namespace Chain

/-! ### Chains -/

/-- One operation on a chain or on the buffer below it. -/
inductive Op where
  | buffer (op : Buffer.Op)
  | read (room : Nat)
  | fadeOut (window : Span)
  | setTempo (tempo : Float32)

/-- The chain after an operation. -/
def apply (c : Chain) : Op → Chain
  | .buffer op => { c with buffer := c.buffer.apply op }
  | .read room => (c.read room).1
  | .fadeOut window => c.fadeOut window
  | .setTempo tempo => c.setTempo tempo

/-- The chain after a run of operations. -/
def run (c : Chain) (ops : List Op) : Chain := ops.foldl apply c

/-- Does an operation neither move the cursor at will nor abort? -/
def Op.isPlain : Op → Bool
  | .buffer op => !op.isSeek && !op.isAbort
  | _ => true

variable {c : Chain} {op : Op}

/-- The stream is at the end of a fade or of its buffer. -/
def Spent (c : Chain) : Prop :=
  (∃ fade, c.fade = some fade ∧ fade.last ≤ c.buffer.readPos) ∨ c.buffer.Drained

theorem isFinished_iff (ha : c.buffer.aborted = false) : c.isFinished ↔ c.Spent := by
  have hb := Buffer.isFinished_iff ha
  unfold isFinished Spent
  cases hf : c.fade with
  | none => simp [hb]
  | some fade => simp [hb]

theorem read_of_spent (h : c.Spent) (room : Nat) : (c.read room).2 = #[] := by
  have hnone : c.buffer.readable (c.room room) = 0 := by
    rcases h with ⟨fade, hf, hle⟩ | hd
    · have hroom : c.room room = 0 := by
        simp only [Chain.room, hf]
        omega
      simp [hroom, Buffer.readable]
    · exact Buffer.readable_of_drained hd _
  simp [read, Buffer.read_of_readable hnone]

/-- What an operation on a chain does to its buffer. -/
theorem buffer_apply (hop : op.isPlain) : (c.apply op).buffer = c.buffer ∨
    ∃ bop : Buffer.Op, bop.isSeek = false ∧ bop.isAbort = false ∧
      (c.apply op).buffer = c.buffer.apply bop := by
  cases op with
  | buffer bop =>
    simp only [Op.isPlain, Bool.and_eq_true, Bool.not_eq_true'] at hop
    exact .inr ⟨bop, hop.1, hop.2, rfl⟩
  | read room => exact .inr ⟨.read (c.room room), rfl, rfl, rfl⟩
  | fadeOut window =>
    left
    simp only [apply, fadeOut]
    split <;> rfl
  | setTempo tempo => exact .inl rfl

/-- A fade stays where it is. -/
theorem fade_apply {fade : Fade} (hf : c.fade = some fade) : (c.apply op).fade = some fade := by
  cases op with
  | fadeOut window => simp only [apply, fadeOut, hf]
  | _ => exact hf

/-- A cursor behind the end of a fade stays there, or the stream is at its end. -/
theorem le_readPos_apply {b : Buffer} {bop : Buffer.Op} {last : Nat} (h : last ≤ b.readPos)
    (hu : b.isSized = false → b.readPos = 0) (hseek : bop.isSeek = false)
    (hab : bop.isAbort = false) : last ≤ (b.apply bop).readPos ∨ (b.apply bop).Drained := by
  cases bop with
  | seekFrame frame => cases hseek
  | seek d => cases hseek
  | abort => cases hab
  | fail => cases hab
  | read room => exact .inl (Nat.le_trans h (Nat.le_add_right ..))
  | write bytes =>
    obtain ⟨more, ready, hw⟩ := Buffer.write_cases b bytes
    rw [Buffer.apply, hw]
    exact .inl h
  | size d =>
    left
    cases hc : b.capacity? with
    | some capacity => simpa [Buffer.apply, Buffer.size, hc, Except.toOption] using h
    | none =>
      have hzero := hu (by simp [Buffer.isSized, hc])
      rw [hzero, Nat.le_zero] at h
      rw [h]
      exact Nat.zero_le _
  | endInput =>
    simp only [Buffer.apply, Buffer.endInput]
    split
    · exact .inl h
    · -- pulled back, the cursor is at the end of all that was written
      rcases Nat.le_total b.readPos b.writePos with hle | hle
      · left
        show last ≤ min b.readPos b.writePos
        omega
      · cases hs : b.isSized with
        | false =>
          have hzero := hu hs
          left
          show last ≤ min b.readPos b.writePos
          omega
        | true =>
          right
          refine ⟨hs, .inl rfl, ?_⟩
          show min b.limit b.writePos ≤ min b.readPos b.writePos
          omega

theorem Spent.apply (h : c.Spent) (hu : c.buffer.isSized = false → c.buffer.readPos = 0)
    (hop : op.isPlain) : (c.apply op).Spent := by
  rcases buffer_apply (c := c) hop with hsame | ⟨bop, hseek, hab, hb⟩
  · rcases h with ⟨fade, hf, hle⟩ | hd
    · exact .inl ⟨fade, fade_apply hf, by rwa [hsame]⟩
    · exact .inr (by rwa [hsame])
  · rcases h with ⟨fade, hf, hle⟩ | hd
    · rcases le_readPos_apply hle hu hseek hab with hle' | hd'
      · exact .inl ⟨fade, fade_apply hf, by rwa [hb]⟩
      · exact .inr (by rwa [hb])
    · exact .inr (by rw [hb]; exact hd.apply hseek hab)

theorem Spent.run {f : Format} (h : c.Spent) (hr : ∃ ops, c.buffer = (Buffer.empty f).run ops)
    (ha : c.buffer.aborted = false) (later : List Op) (hlater : ∀ op ∈ later, op.isPlain) :
    (c.run later).Spent ∧ (c.run later).buffer.aborted = false := by
  induction later generalizing c with
  | nil => exact ⟨h, ha⟩
  | cons op later ih =>
    have hop := hlater op (List.mem_cons_self ..)
    obtain ⟨ops, hops⟩ := hr
    have hu : c.buffer.isSized = false → c.buffer.readPos = 0 := by
      rw [hops]
      exact Buffer.readPos_of_unsized f ops
    have hnext : (∃ ops, (c.apply op).buffer = (Buffer.empty f).run ops) ∧
        (c.apply op).buffer.aborted = false := by
      rcases buffer_apply (c := c) hop with hsame | ⟨bop, -, hab, hb⟩
      · rw [hsame]
        exact ⟨⟨ops, hops⟩, ha⟩
      · rw [hb, Buffer.aborted_apply hab, hops, ← Buffer.run_concat]
        exact ⟨⟨_, rfl⟩, by rwa [← hops]⟩
    exact ih (h.apply hu hop) hnext.1 hnext.2 fun o ho => hlater o (List.mem_cons_of_mem _ ho)

end Chain

namespace Buffer

/-- The end of a stream is final, for a buffer and for a chain on it: unless somebody seeks or
aborts, it stays finished and reading returns nothing. And it is told: where whole frames are
written and the end comes after the sizing, a read with room for a frame that returns nothing has
found it. -/
theorem end_is_final_and_told (f : Format) (ops : List Op) :
    let b := (empty f).run ops
    (b.aborted = false → b.isFinished →
      ∀ later : List Op, (∀ op ∈ later, op.isSeek = false ∧ op.isAbort = false) →
        (b.run later).isFinished ∧ ∀ room, ((b.run later).read room).2 = #[]) ∧
      (b.aborted = false → ∀ effects : Effects,
        let c : Chain := { toEffects := effects, buffer := b }
        c.isFinished → ∀ later : List Chain.Op, (∀ op ∈ later, op.isPlain) →
          (c.run later).isFinished ∧ ∀ room, ((c.run later).read room).2 = #[]) ∧
      (EndsAfterSizing ops → WritesFrames f ops → sizing? f ops ≠ some Word.top →
        b.ended ∨ b.isFull →
        ∀ room, f.bytesPerFrame ≤ room → (b.read room).2 = #[] → b.isFinished) := by
  intro b
  refine ⟨?_, ?_, ?_⟩
  · intro ha hfin later hlater
    obtain ⟨hd, ha'⟩ := ((isFinished_iff ha).1 hfin).run ha later hlater
    refine ⟨(isFinished_iff ha').2 hd, fun room => ?_⟩
    rw [read_of_readable (readable_of_drained hd room)]
  · intro ha effects c hfin later hlater
    obtain ⟨hs, ha'⟩ := ((Chain.isFinished_iff (c := c) ha).1 hfin).run ⟨ops, rfl⟩ ha later hlater
    exact ⟨(Chain.isFinished_iff ha').2 hs, Chain.read_of_spent hs⟩
  · intro hsizing hw hcap hend room hroom hread
    exact isFinished_of_empty_read hsizing hw hcap hend hroom hread

/-- Four frames are announced and two come, while the cursor is ahead of them. -/
def cutShort : List Op := [.size ⟨4000000⟩, .write #[1, 2, 3, 4], .seekFrame 3, .endInput]

theorem end_is_final_and_told_cutShort :
    let f : Format := ⟨1000, 1, .signed16, .little⟩
    let b := (empty f).run cutShort
    let c : Chain := { fade := some ⟨0, 3⟩, buffer := b }
    (b.aborted = false ∧ b.isFinished ∧ c.isFinished) ∧
      ((b.run [.write #[5, 6], .read 4]).isFinished ∧
        ∀ room, ((b.run [.write #[5, 6], .read 4]).read room).2 = #[]) ∧
      ((c.run [.fadeOut ⟨1000000⟩, .buffer (.read 2)]).isFinished ∧
        ∀ room, ((c.run [.fadeOut ⟨1000000⟩, .buffer (.read 2)]).read room).2 = #[]) ∧
      ((EndsAfterSizing cutShort ∧ WritesFrames f cutShort ∧ sizing? f cutShort ≠ some Word.top ∧
        b.ended ∧ f.bytesPerFrame ≤ 2 ∧ (b.read 2).2 = #[]) ∧ b.isFinished) := by
  intro f b c
  obtain ⟨hbuffer, hchain, htold⟩ := end_is_final_and_told f cutShort
  have hsizing : EndsAfterSizing cutShort := by
    unfold EndsAfterSizing
    decide
  have hw : WritesFrames f cutShort := by
    intro bytes hm
    simp only [cutShort, List.mem_cons, Op.write.injEq, reduceCtorEq, List.not_mem_nil, or_false,
      false_or] at hm
    rw [hm]
    decide
  have hcap : sizing? f cutShort ≠ some Word.top := by decide
  have hends : b.aborted = false ∧ b.isFinished ∧ c.isFinished := by decide
  obtain ⟨ha, hfin, hcfin⟩ := hends
  refine ⟨⟨ha, hfin, hcfin⟩, hbuffer ha hfin _ (by decide), hchain ha _ hcfin _ (by decide),
    ⟨hsizing, hw, hcap, by decide, by decide, by decide⟩, ?_⟩
  exact htold hsizing hw hcap (.inl (by decide)) 2 (by decide) (by decide)

end Buffer

end Jukebox
