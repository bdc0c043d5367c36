import Jukebox.Proofs.Buffer.Ending
import Jukebox.Proofs.Format.Counts

/-!
Where the positions of a buffer can be. The cursor never passes the limit, and neither the limit nor
what has been written passes the capacity. The buffer is sized once; from then on the limit can only
be lowered, once and to what has been written, and what has been written only grows, until an abort
freezes it. All of it is read off one list of what an operation can do.
-/

namespace Jukebox.Buffer

variable {f : Format} {ops : List Op} {b b' b'' : Buffer}

/-! ### What an operation can do -/

/-- What an operation can do to a buffer. -/
inductive Change (b : Buffer) : Buffer → Prop where
  | none : Change b b
  | size (d : Span) (unsized : b.capacity? = .none) :
    Change b { b with
      capacity? := some (b.format.bytesOfSpan d)
      limit := b.format.bytesOfSpan d
      readPos := min b.pendingSeek (b.format.bytesOfSpan d)
      pendingSeek := min b.pendingSeek (b.format.bytesOfSpan d) }
  | write (more : Bytes) (unaborted : b.aborted = false)
      (fits : b.writePos + more.size ≤ b.capacity) :
    Change b { b with data := b.data ++ more, dataReady := true }
  | read (count : Nat) (there : count ≤ min b.limit b.writePos - b.readPos) :
    Change b { b with readPos := b.readPos + count }
  | note (offset : Nat) : Change b { b with pendingSeek := offset }
  | move (position : Nat) (within : position ≤ b.limit) :
    Change b { b with readPos := position }
  | finish (unended : b.ended = false) :
    Change b { b with
      ended := true
      limit := min b.limit b.writePos
      readPos := min b.readPos b.writePos
      released := true }
  | abort (failed : Bool) : Change b { b with failed, aborted := true, released := true }

theorem readable_le (b : Buffer) (room : Nat) :
    b.readable room ≤ min b.limit b.writePos - b.readPos := by
  unfold readable
  split
  · exact Nat.le_trans (Nat.sub_le ..) (Nat.min_le_left ..)
  · exact Nat.zero_le _

theorem size_of_unsized (h : b.capacity? = none) (d : Span) : b.size d = .ok { b with
    capacity? := some (b.format.bytesOfSpan d)
    limit := b.format.bytesOfSpan d
    readPos := min b.pendingSeek (b.format.bytesOfSpan d)
    pendingSeek := min b.pendingSeek (b.format.bytesOfSpan d) } := by
  rw [size, h]

theorem size_of_sized (h : b.isSized) (d : Span) :
    b.size d = .error .durationAlreadySet ∧ b.apply (.size d) = b := by
  obtain ⟨capacity, hc⟩ := Option.isSome_iff_exists.1 h
  have hsize : b.size d = .error .durationAlreadySet := by rw [size, hc]
  refine ⟨hsize, ?_⟩
  rw [Buffer.apply, hsize]
  rfl

theorem change_write (b : Buffer) (bytes : Bytes) : Change b (b.write bytes).1 := by
  unfold write
  split
  · exact .none
  · next ha =>
    split
    · exact .none
    · next capacity hc =>
      dsimp only
      split
      · exact .none
      · next hcount =>
        refine .write _ (by simpa using ha) ?_
        rw [Array.size_extract, Buffer.capacity, hc, Option.getD_some]
        omega

theorem change_seekFrame (b : Buffer) (frame : Nat) : Change b (b.seekFrame frame) := by
  unfold seekFrame
  dsimp only
  split
  · exact .move _ (Nat.min_le_right ..)
  · exact .note _

theorem change_apply (b : Buffer) (op : Op) : Change b (b.apply op) := by
  cases op with
  | size d =>
    cases hc : b.capacity? with
    | none =>
      rw [Buffer.apply, size_of_unsized hc d]
      exact .size d hc
    | some capacity =>
      rw [(size_of_sized (by simp [isSized, hc]) d).2]
      exact .none
  | write bytes => exact change_write b bytes
  | read room => exact .read _ (readable_le b room)
  | seekFrame frame => exact change_seekFrame b frame
  | seek d => exact change_seekFrame b _
  | endInput =>
    rw [Buffer.apply, endInput]
    split
    · exact .none
    · next he => exact .finish (by simpa using he)
  | abort => exact .abort b.failed
  | fail => exact .abort true

/-! ### At every moment -/

/-- Every position is within its bounds. -/
structure Bounded (b : Buffer) : Prop where
  read : b.readPos ≤ b.limit
  limit : b.limit ≤ b.capacity
  written : b.writePos ≤ b.capacity

theorem capacity_of_unsized (h : ¬ b.isSized) : b.capacity = 0 := by
  rw [capacity, Option.not_isSome_iff_eq_none.1 h, Option.getD_none]

theorem Bounded.isSized (h : b.Bounded) (hread : 0 < b.readPos) : b.isSized := by
  refine Classical.byContradiction fun hs => ?_
  have hzero := capacity_of_unsized hs
  have hlimit := Nat.le_trans h.read h.limit
  omega

theorem bounded_empty (f : Format) : (empty f).Bounded :=
  ⟨Nat.le_refl _, Nat.le_refl _, Nat.le_refl _⟩

theorem Bounded.change (h : b.Bounded) (hc : Change b b') : b'.Bounded := by
  obtain ⟨hread, hlimit, hwritten⟩ := h
  cases hc with
  | none => exact ⟨hread, hlimit, hwritten⟩
  | size d hunsized =>
    refine ⟨Nat.min_le_right .., Nat.le_refl _, ?_⟩
    -- without a capacity nothing has been written
    have hnone : b.capacity = 0 := by rw [capacity, hunsized, Option.getD_none]
    rw [hnone] at hwritten
    exact Nat.le_trans hwritten (Nat.zero_le _)
  | write more ha hfits =>
    refine ⟨hread, hlimit, ?_⟩
    show (b.data ++ more).size ≤ b.capacity
    rw [Array.size_append]
    exact hfits
  | read count hthere =>
    refine ⟨?_, hlimit, hwritten⟩
    show b.readPos + count ≤ b.limit
    omega
  | note offset => exact ⟨hread, hlimit, hwritten⟩
  | move position hwithin => exact ⟨hwithin, hlimit, hwritten⟩
  | finish he =>
    refine ⟨?_, ?_, hwritten⟩
    · show min b.readPos b.writePos ≤ min b.limit b.writePos
      omega
    · show min b.limit b.writePos ≤ b.capacity
      omega
  | abort failed => exact ⟨hread, hlimit, hwritten⟩

theorem bounded_run (f : Format) (ops : List Op) : ((empty f).run ops).Bounded :=
  run_induction (P := fun _ b => b.Bounded) f (bounded_empty f)
    (fun _ op h => h.change (change_apply _ op)) ops

theorem Bounded.position_le (h : b.Bounded) : b.position.nanos ≤ b.duration.nanos :=
  Format.spanOfBytes_mono h.read

/-! ### From one moment to a later one -/

/-- What a later state of a buffer has kept of an earlier one. -/
structure Later (b b' : Buffer) : Prop where
  capacity : b.isSized → b'.capacity? = b.capacity?
  limit : b.isSized → b'.limit ≤ b.limit
  ended : b.ended → b'.ended
  settled : b.isSized → b.ended → b'.limit = b.limit
  written : b.writePos ≤ b'.writePos
  aborted : b.aborted → b'.aborted
  frozen : b.aborted → b'.data = b.data

theorem Later.refl (b : Buffer) : Later b b :=
  ⟨fun _ => rfl, fun _ => Nat.le_refl _, id, fun _ _ => rfl, Nat.le_refl _, id, fun _ => rfl⟩

theorem Later.isSized (h : Later b b') (hs : b.isSized) : b'.isSized := by
  rw [Buffer.isSized, h.capacity hs]
  exact hs

theorem Later.trans (h : Later b b') (h' : Later b' b'') : Later b b'' where
  capacity hs := (h'.capacity (h.isSized hs)).trans (h.capacity hs)
  limit hs := Nat.le_trans (h'.limit (h.isSized hs)) (h.limit hs)
  ended he := h'.ended (h.ended he)
  settled hs he := (h'.settled (h.isSized hs) (h.ended he)).trans (h.settled hs he)
  written := Nat.le_trans h.written h'.written
  aborted ha := h'.aborted (h.aborted ha)
  frozen ha := (h'.frozen (h.aborted ha)).trans (h.frozen ha)

theorem Later.of_change (hc : Change b b') : Later b b' := by
  have hself := Later.refl b
  cases hc with
  | none => exact hself
  | size d hunsized =>
    have hno : ¬ b.isSized := by simp [Buffer.isSized, hunsized]
    exact ⟨fun hs => absurd hs hno, fun hs => absurd hs hno, id, fun hs => absurd hs hno,
      Nat.le_refl _, id, fun _ => rfl⟩
  | write more ha hfits =>
    refine { hself with written := ?_, frozen := fun ha' => ?_ }
    · show b.data.size ≤ (b.data ++ more).size
      rw [Array.size_append]
      exact Nat.le_add_right ..
    · rw [ha] at ha'
      cases ha'
  | read count hthere => exact { hself with }
  | note offset => exact { hself with }
  | move position hwithin => exact { hself with }
  | finish he =>
    refine { hself with limit := fun _ => Nat.min_le_left .., ended := fun _ => rfl,
                        settled := fun _ he' => ?_ }
    rw [he] at he'
    cases he'
  | abort failed => exact { hself with aborted := fun _ => rfl }

theorem later_run (b : Buffer) (ops : List Op) : Later b (b.run ops) := by
  induction ops generalizing b with
  | nil => exact .refl b
  | cons op ops ih => exact (Later.of_change (change_apply b op)).trans (ih _)

/-- Only the end of the input lowers the limit, to what has been written. -/
theorem limit_of_change (hc : Change b b') (hs : b.isSized) (hne : b'.limit ≠ b.limit) :
    b'.ended ∧ b'.limit = b.writePos ∧ b'.writePos = b.writePos := by
  cases hc with
  | none | write | read | note | move | abort => exact absurd rfl hne
  | size d hunsized => simp [isSized, hunsized] at hs
  | finish he =>
    refine ⟨rfl, ?_, rfl⟩
    have hne : min b.limit b.writePos ≠ b.limit := hne
    show min b.limit b.writePos = b.writePos
    omega

/-! ### All of it -/

/-- The cursor never passes the limit, and neither the limit nor what has been written passes the
capacity, so no position lies after the playing time. The size is set once, and setting it again
fails and changes nothing; after that the limit never grows, and it is lowered at most once, to what
has been written. What has been written never shrinks, and an abort freezes it. As long as the size
has not saturated and only whole frames are written, all positions lie between frames. -/
theorem positions_keep_their_order (f : Format) (ops : List Op) :
    let b := (empty f).run ops
    (b.readPos ≤ b.limit ∧ b.limit ≤ b.capacity ∧ b.writePos ≤ b.capacity) ∧
      b.position.nanos ≤ b.duration.nanos ∧
      (∀ d, (b.isSized = false → ∃ b', b.size d = .ok b' ∧ b'.capacity = f.bytesOfSpan d) ∧
        (b.isSized → b.size d = .error .durationAlreadySet ∧ b.apply (.size d) = b)) ∧
      (∀ later,
        (b.isSized → (b.run later).capacity? = b.capacity? ∧ (b.run later).limit ≤ b.limit) ∧
        b.writePos ≤ (b.run later).writePos ∧
        (b.aborted → (b.run later).writePos = b.writePos ∧ (b.run later).data = b.data)) ∧
      (∀ op, b.isSized → (b.apply op).limit ≠ b.limit →
        (b.apply op).limit = b.writePos ∧ (b.apply op).writePos = b.writePos ∧
          ∀ later, ((b.apply op).run later).limit = (b.apply op).limit) ∧
      ((∀ d, ops.findSome? Op.span? = some d → f.exactBytes d ≤ Word.top) → WritesFrames f ops →
        f.bytesPerFrame ∣ b.readPos ∧ f.bytesPerFrame ∣ b.writePos ∧
          f.bytesPerFrame ∣ b.limit) := by
  intro b
  have hb : b.Bounded := bounded_run f ops
  have hformat : b.format = f := (follows_run f ops).format
  refine ⟨⟨hb.read, hb.limit, hb.written⟩, hb.position_le, fun d => ⟨fun hs => ?_, fun hs => ?_⟩,
    fun later => ?_, fun op hs hne => ?_, fun hfits hw => ?_⟩
  · refine ⟨_, size_of_unsized (by simpa [isSized] using hs) d, ?_⟩
    rw [← hformat]
    rfl
  · exact size_of_sized hs d
  · have h := later_run b later
    refine ⟨fun hs => ⟨h.capacity hs, h.limit hs⟩, h.written, fun ha => ⟨?_, h.frozen ha⟩⟩
    exact congrArg Array.size (h.frozen ha)
  · have hchange := change_apply b op
    obtain ⟨hended, hlimit, hwritten⟩ := limit_of_change hchange hs hne
    refine ⟨hlimit, hwritten, fun later => ?_⟩
    exact (later_run _ later).settled ((Later.of_change hchange).isSized hs) hended
  · have hcap : sizing? f ops ≠ some Word.top := by
      intro htop
      obtain ⟨d, hd, hsize⟩ := Option.map_eq_some_iff.1 htop
      have hover := Format.bytesOfSpan_eq_top_iff.1 hsize
      have hfit := hfits d hd
      omega
    have haligned := aligned_run hw hcap
    exact ⟨haligned.read, haligned.written, haligned.limit⟩

/-- Four frames are announced and two of them come. The cursor is ahead of them, and the end of the
input takes it back along with the limit. What is written after that does not move the limit. -/
theorem positions_keep_their_order_cutShort :
    let f : Format := ⟨1000, 1, .signed16, .little⟩
    let b := (empty f).run [.size ⟨4000000⟩, .write #[1, 2, 3, 4], .seekFrame 3]
    let b' := b.apply .endInput
    (b.isSized ∧ b'.limit ≠ b.limit ∧ b.capacity = 8 ∧ b'.readPos = 4) ∧
      (b'.limit = b.writePos ∧ (b'.run [.write #[5, 6], .abort, .write #[7, 8]]).limit = b'.limit) ∧
      (f.exactBytes ⟨4000000⟩ ≤ Word.top ∧ f.bytesPerFrame ∣ b.readPos) := by
  intro f b b'
  obtain ⟨-, -, -, -, hlowered, haligned⟩ := positions_keep_their_order f
    [.size ⟨4000000⟩, .write #[1, 2, 3, 4], .seekFrame 3]
  have hs : b.isSized ∧ b'.limit ≠ b.limit ∧ b.capacity = 8 ∧ b'.readPos = 4 := by decide
  obtain ⟨hlimit, -, hstays⟩ := hlowered .endInput hs.1 hs.2.1
  have hfits : f.exactBytes ⟨4000000⟩ ≤ Word.top := by decide
  have hw : WritesFrames f [.size ⟨4000000⟩, .write #[1, 2, 3, 4], .seekFrame 3] := by
    intro bytes hm
    simp only [List.mem_cons, Op.write.injEq, reduceCtorEq, List.not_mem_nil, or_false,
      false_or] at hm
    rw [hm]
    decide
  refine ⟨hs, ⟨hlimit, hstays _⟩, hfits, (haligned ?_ hw).1⟩
  rintro d ⟨⟩
  exact hfits

end Jukebox.Buffer
