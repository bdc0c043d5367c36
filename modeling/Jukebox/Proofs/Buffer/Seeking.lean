import Jukebox.Proofs.Buffer.Bounds

/-!
Seeking before and after the sizing. As long as a buffer has no size, a seek is noted, and the note
becomes the cursor when the size is set; later a seek moves the cursor at once. The bounds are not the
same either: the note is cut off at the capacity, the cursor at the limit. Still it makes no
difference when the seeks come. The last one counts, and what is left in the note of a sized buffer
is never read again, so nobody can tell the one buffer from the other.
-/

namespace Jukebox.Buffer

variable {f : Format} {ops seeks : List Op} {op : Op} {b : Buffer}

/-! ### What a buffer tells -/

/-- All that a buffer tells when it is asked. -/
structure View where
  capacity : Nat
  isSized : Bool
  writePos : Nat
  limit : Nat
  readPos : Nat
  position : Span
  duration : Span
  isFull : Bool
  isFinished : Bool
  aborted : Bool
  failed : Bool
  wait? : Option Bool
  deriving DecidableEq

def view (b : Buffer) : View where
  capacity := b.capacity
  isSized := b.isSized
  writePos := b.writePos
  limit := b.limit
  readPos := b.readPos
  position := b.position
  duration := b.duration
  isFull := b.isFull
  isFinished := b.isFinished
  aborted := b.aborted
  failed := b.failed
  wait? := b.wait?

/-- What an operation answers. -/
inductive Answer where
  | nothing
  | sized (fault : Option Fault)
  | goOn (more : Bool)
  | bytes (bytes : List UInt8)

def Op.answer (b : Buffer) : Op → Answer
  | .size d =>
    match b.size d with
    | .ok _ => .sized none
    | .error fault => .sized (some fault)
  | .write bytes => .goOn (b.write bytes).2
  | .read room => .bytes (b.read room).2.toList
  | _ => .nothing

/-- What the operations of a run answer, one after the other. -/
def answers (b : Buffer) : List Op → List Answer
  | [] => []
  | op :: ops => op.answer b :: answers (b.apply op) ops

/-! ### The note -/

/-- The buffer with another start noted. -/
def note (b : Buffer) (offset : Nat) : Buffer := { b with pendingSeek := offset }

theorem view_note (b : Buffer) (offset : Nat) : (b.note offset).view = b.view := rfl

theorem write_note (b : Buffer) (offset : Nat) (bytes : Bytes) :
    (b.note offset).write bytes = ((b.write bytes).1.note offset, (b.write bytes).2) := by
  unfold write
  cases ha : b.aborted with
  | true => simp [note, ha]
  | false =>
    cases hc : b.capacity? with
    | none => simp [note, ha, hc]
    | some capacity =>
      by_cases hcount : min bytes.size (capacity - b.data.size) = 0 <;>
        simp [note, ha, hc, writePos, hcount]

theorem endInput_note (b : Buffer) (offset : Nat) :
    (b.note offset).endInput = b.endInput.note offset := by
  unfold endInput
  cases he : b.ended <;> simp [note, he, writePos]

/-- A buffer with a size does not look at the note. -/
theorem apply_note (hs : b.isSized) (offset : Nat) (op : Op) :
    (b.note offset).apply op = (b.apply op).note offset ∧
      op.answer (b.note offset) = op.answer b := by
  have hs' : (b.note offset).isSized := hs
  cases op with
  | size d =>
    obtain ⟨hfault, hsame⟩ := size_of_sized hs d
    obtain ⟨hfault', hsame'⟩ := size_of_sized hs' d
    refine ⟨by rw [hsame, hsame'], ?_⟩
    simp only [Op.answer, hfault, hfault']
  | write bytes =>
    have hw := write_note b offset bytes
    refine ⟨congrArg Prod.fst hw, ?_⟩
    rw [Op.answer, Op.answer, hw]
  | seekFrame frame | seek d =>
    refine ⟨?_, rfl⟩
    simp only [Buffer.apply, seek, seekFrame, hs, hs', if_true]
    rfl
  | endInput => exact ⟨endInput_note b offset, rfl⟩
  | read room => exact ⟨rfl, rfl⟩
  | abort => exact ⟨rfl, rfl⟩
  | fail => exact ⟨rfl, rfl⟩

theorem run_note (hs : b.isSized) (offset : Nat) (ops : List Op) :
    (b.note offset).run ops = (b.run ops).note offset ∧
      answers (b.note offset) ops = answers b ops := by
  induction ops generalizing b with
  | nil => exact ⟨rfl, rfl⟩
  | cons op ops ih =>
    obtain ⟨happly, hanswer⟩ := apply_note hs offset op
    obtain ⟨hrun, hanswers⟩ := ih ((Later.of_change (change_apply b op)).isSized hs)
    constructor
    · show ((b.note offset).apply op).run ops = ((b.apply op).run ops).note offset
      rw [happly, hrun]
    · rw [answers, answers, happly, hanswer, hanswers]

/-! ### The last seek -/

/-- The offset that an operation asks for. -/
def Op.offset? (f : Format) : Op → Option Nat
  | .seekFrame frame => some (f.bytesOfFrames frame)
  | .seek d => some (f.bytesOfSpan d)
  | _ => none

/-- The offset that the last seek of a run asks for. -/
def lastSought? (f : Format) (ops : List Op) : Option Nat := (ops.filterMap (Op.offset? f)).getLast?

theorem lastSought?_append (f : Format) (ops ops' : List Op) :
    lastSought? f (ops ++ ops') = (lastSought? f ops').or (lastSought? f ops) := by
  rw [lastSought?, List.filterMap_append, List.getLast?_append]
  rfl

theorem lastSought?_cons (f : Format) (op : Op) (ops : List Op) :
    lastSought? f (op :: ops) = (lastSought? f ops).or (op.offset? f) := by
  have hone : lastSought? f [op] = op.offset? f := by
    cases h : op.offset? f <;> simp [lastSought?, h]
  rw [← hone, ← lastSought?_append]
  rfl

/-- Every offset asked for is that of a frame, if it has not saturated. -/
theorem lastSought?_frame (f : Format) (ops : List Op) :
    ∃ n, (lastSought? f ops).getD 0 = f.bytesOfFrames n := by
  cases h : lastSought? f ops with
  | none => exact ⟨0, by simp [Format.bytesOfFrames, Word.cap]⟩
  | some offset =>
    obtain ⟨op, -, hop⟩ := List.mem_filterMap.1 (List.mem_of_getLast? h)
    cases op with
    | seekFrame frame => exact ⟨frame, (Option.some.inj hop).symm⟩
    | seek d => exact ⟨f.framesOfSpan d, (Option.some.inj hop).symm⟩
    | _ => cases hop

/-- What a seek does. -/
theorem apply_seek (hop : op.isSeek) (b : Buffer) : ∃ offset, op.offset? b.format = some offset ∧
    (b.isSized = false → b.apply op = b.note offset) ∧
      (b.isSized → b.apply op = { b with readPos := min offset b.limit }) := by
  cases op with
  | seekFrame frame =>
    exact ⟨_, rfl, fun hs => by simp [Buffer.apply, seekFrame, hs, note],
      fun hs => by simp [Buffer.apply, seekFrame, hs]⟩
  | seek d =>
    exact ⟨_, rfl, fun hs => by simp [Buffer.apply, seek, seekFrame, hs, note, Format.bytesOfSpan],
      fun hs => by simp [Buffer.apply, seek, seekFrame, hs, Format.bytesOfSpan]⟩
  | _ => cases hop

/-- Seeks before the sizing leave the last one in the note. -/
theorem run_seeks_unsized (hs : b.isSized = false) (hseeks : ∀ op ∈ seeks, op.isSeek) :
    b.run seeks = b.note ((lastSought? b.format seeks).getD b.pendingSeek) := by
  induction seeks generalizing b with
  | nil => rfl
  | cons op seeks ih =>
    obtain ⟨offset, hoffset, hnote, -⟩ := apply_seek (hseeks op (List.mem_cons_self ..)) b
    have hrest := @ih (b.note offset) hs fun o ho => hseeks o (List.mem_cons_of_mem _ ho)
    rw [lastSought?_cons, hoffset]
    show (b.apply op).run seeks = _
    rw [hnote hs, hrest]
    cases h : lastSought? b.format seeks <;> simp [note, h]

/-- Seeks after the sizing leave the cursor where the last one led. -/
theorem run_seeks_sized (hs : b.isSized) (hseeks : ∀ op ∈ seeks, op.isSeek) :
    b.run seeks = { b with
      readPos := ((lastSought? b.format seeks).map (min · b.limit)).getD b.readPos } := by
  induction seeks generalizing b with
  | nil => rfl
  | cons op seeks ih =>
    obtain ⟨offset, hoffset, -, hmove⟩ := apply_seek (hseeks op (List.mem_cons_self ..)) b
    have hrest := @ih { b with readPos := min offset b.limit } hs fun o ho =>
      hseeks o (List.mem_cons_of_mem _ ho)
    rw [lastSought?_cons, hoffset]
    show (b.apply op).run seeks = _
    rw [hmove hs, hrest]
    cases lastSought? b.format seeks <;> simp

/-- The note of a buffer without a size is what the last seek has asked for. -/
theorem pendingSeek_run (f : Format) (ops : List Op) : ((empty f).run ops).isSized = false →
    ((empty f).run ops).pendingSeek = (lastSought? f ops).getD 0 := by
  refine run_induction (P := fun ops b => b.isSized = false →
    b.pendingSeek = (lastSought? f ops).getD 0) f (fun _ => rfl) (fun ops op ih hs => ?_) ops
  have hformat : ((empty f).run ops).format = f := (follows_run f ops).format
  generalize (empty f).run ops = b at *
  have hb : b.isSized = false := by
    refine Bool.eq_false_iff.2 fun hsized => ?_
    rw [(Later.of_change (change_apply b op)).isSized hsized] at hs
    cases hs
  have hold := ih hb
  rw [lastSought?_append]
  cases op with
  | seekFrame frame =>
    have hop : (Op.seekFrame frame).isSeek := rfl
    obtain ⟨offset, hoffset, hnote, -⟩ := apply_seek hop b
    rw [hnote hb, ← hformat]
    simp [lastSought?, hoffset, note]
  | seek d =>
    have hop : (Op.seek d).isSeek := rfl
    obtain ⟨offset, hoffset, hnote, -⟩ := apply_seek hop b
    rw [hnote hb, ← hformat]
    simp [lastSought?, hoffset, note]
  | size d =>
    have hc : b.capacity? = none := by simpa [isSized] using hb
    simp [Buffer.apply, size_of_unsized hc, Except.toOption, isSized] at hs
  | write bytes =>
    obtain ⟨more, ready, hw⟩ := write_cases b bytes
    rw [Buffer.apply, hw]
    exact hold
  | endInput =>
    simp only [Buffer.apply, endInput]
    split <;> exact hold
  | read room => exact hold
  | abort => exact hold
  | fail => exact hold

/-! ### Both orders -/

theorem apply_size (hc : b.capacity? = none) (d : Span) :
    b.size d = .ok (b.apply (.size d)) ∧ b.apply (.size d) = { b with
      capacity? := some (b.format.bytesOfSpan d)
      limit := b.format.bytesOfSpan d
      readPos := min b.pendingSeek (b.format.bytesOfSpan d)
      pendingSeek := min b.pendingSeek (b.format.bytesOfSpan d) } := by
  rw [Buffer.apply, size_of_unsized hc]
  exact ⟨rfl, rfl⟩

/-- It makes no difference whether seeks come before the sizing or after it. The cursor is where the
last seek since the beginning has asked for, or at the end if that is beyond it, and nothing that a
buffer tells or answers, then or later, shows when the seeks came; and unless the size has saturated
the cursor is between two frames. -/
theorem seeks_and_sizing_commute (f : Format) (ops seeks : List Op) (d : Span)
    (hunsized : ((empty f).run ops).isSized = false) (hseeks : ∀ op ∈ seeks, op.isSeek) :
    let b := (empty f).run ops
    let early := (b.run seeks).apply (.size d)
    let late := (b.apply (.size d)).run seeks
    (b.run seeks).size d = .ok early ∧ b.size d = .ok (b.apply (.size d)) ∧
      early.capacity = f.bytesOfSpan d ∧
      early.readPos = min ((lastSought? f (ops ++ seeks)).getD 0) early.capacity ∧
      (∀ later, (early.run later).view = (late.run later).view ∧
        answers early later = answers late later) ∧
      (f.exactBytes d ≤ Word.top → f.bytesPerFrame ∣ early.readPos) := by
  intro b early late
  have hformat : b.format = f := (follows_run f ops).format
  have hpending : b.pendingSeek = (lastSought? f ops).getD 0 := pendingSeek_run f ops hunsized
  have hc : b.capacity? = none := by simpa [isSized] using hunsized
  obtain ⟨hsize, hsized⟩ := apply_size hc d
  -- what the note holds before the sizing
  have hnoted : b.run seeks = b.note ((lastSought? f (ops ++ seeks)).getD 0) := by
    rw [run_seeks_unsized hunsized hseeks, hformat, hpending, lastSought?_append]
    cases lastSought? f seeks <;> rfl
  obtain ⟨hearly, heq⟩ : (b.run seeks).size d = .ok early ∧ early = _ :=
    apply_size (by rw [hnoted]; exact hc) d
  rw [hnoted] at heq
  have hcapacity : early.capacity = f.bytesOfSpan d := by
    rw [heq, ← hformat]
    rfl
  have hcursor : early.readPos = min ((lastSought? f (ops ++ seeks)).getD 0) early.capacity := by
    rw [hcapacity, heq, ← hformat]
    rfl
  have hready : early.isSized := by
    rw [heq]
    rfl
  -- the two buffers differ in what is left in the note
  have hlate : late = early.note (min b.pendingSeek (b.format.bytesOfSpan d)) := by
    have hmoved : late = _ := run_seeks_sized (b := b.apply (.size d)) (by rw [hsized]; rfl) hseeks
    rw [hmoved, hsized, heq, lastSought?_append, hformat]
    cases h : lastSought? f seeks <;> simp [note, hpending, hformat]
  refine ⟨hearly, hsize, hcapacity, hcursor, fun later => ?_, fun hfits => ?_⟩
  · obtain ⟨hrun, hanswers⟩ := run_note hready (min b.pendingSeek (b.format.bytesOfSpan d)) later
    rw [hlate, hrun, hanswers, view_note]
    exact ⟨rfl, rfl⟩
  · obtain ⟨n, hn⟩ := lastSought?_frame f (ops ++ seeks)
    have hne : f.bytesOfSpan d ≠ Word.top := by
      intro htop
      have hover := Format.bytesOfSpan_eq_top_iff.1 htop
      omega
    rw [hcursor, hcapacity, hn]
    exact dvd_min_bytesOfFrames (dvd_bytesOfSpan hne) (Word.cap_le_top _) n

/-- A buffer of two frames. The third frame is asked for before the sizing, and the input ends; a seek
far beyond the end and one to the second frame follow, before or after the sizing. -/
theorem seeks_and_sizing_commute_twoFrames :
    let f : Format := ⟨1000, 1, .signed16, .little⟩
    let ops : List Op := [.seekFrame 2, .endInput]
    let seeks : List Op := [.seekFrame Word.top, .seek ⟨1000000⟩]
    let later : List Op := [.write #[1, 2, 3, 4], .read 8, .size ⟨5⟩]
    let b := (empty f).run ops
    let early := (b.run seeks).apply (.size ⟨2000000⟩)
    let late := (b.apply (.size ⟨2000000⟩)).run seeks
    (b.isSized = false ∧ ∀ op ∈ seeks, op.isSeek) ∧
      early.readPos = min 2 early.capacity ∧
      ((early.run later).view = (late.run later).view ∧
        answers early later = answers late later) ∧
      (f.exactBytes ⟨2000000⟩ ≤ Word.top ∧ f.bytesPerFrame ∣ early.readPos) := by
  intro f ops seeks later b early late
  have hb : b.isSized = false := by decide
  have hseeks : ∀ op ∈ seeks, op.isSeek := by decide
  have hfits : f.exactBytes ⟨2000000⟩ ≤ Word.top := by decide
  have hlast : (lastSought? f (ops ++ seeks)).getD 0 = 2 := by decide
  obtain ⟨-, -, -, hcursor, hsame, haligned⟩ :=
    seeks_and_sizing_commute f ops seeks ⟨2000000⟩ hb hseeks
  rw [hlast] at hcursor
  exact ⟨⟨hb, hseeks⟩, hcursor, hsame later, hfits, haligned hfits⟩

end Jukebox.Buffer
