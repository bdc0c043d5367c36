import Jukebox.Buffer

/-!
A buffer as a plain list of bytes with a cursor. The list is told from the operations alone: what
writes are given after the sizing and before the first abort, as much of it as fits. Whatever the
operations are and in whatever order, the buffer holds this list, and a read returns the whole
frames of it from the cursor on; where nobody seeks, the reads put together are its beginning.
-/

namespace Jukebox.Buffer

/-! ### What the operations say -/

def Op.isAbort : Op → Bool
  | .abort | .fail => true
  | _ => false

def Op.isSeek : Op → Bool
  | .seekFrame _ | .seek _ => true
  | _ => false

/-- The span that the buffer is sized to. -/
def Op.span? : Op → Option Span
  | .size d => some d
  | _ => none

/-- The bytes that are given to a write. -/
def Op.bytes : Op → List UInt8
  | .write bytes => bytes.toList
  | _ => []

/-- The size in bytes; the first sizing counts. -/
def sizing? (f : Format) (ops : List Op) : Option Nat :=
  (ops.findSome? Op.span?).map f.bytesOfSpan

/-- All that is given to writes after the sizing and before the first abort. -/
def offered (ops : List Op) : List UInt8 :=
  ((ops.takeWhile fun op => !op.isAbort).dropWhile fun op => op.span?.isNone).flatMap Op.bytes

/-- As much of it as fits. -/
def accepted (f : Format) (ops : List Op) : List UInt8 :=
  (offered ops).take ((sizing? f ops).getD 0)

/-- What an operation returns. -/
def Op.output (b : Buffer) : Op → List UInt8
  | .read room => (b.read room).2.toList
  | _ => []

/-- What all reads of a run return, one after the other. -/
def reads (b : Buffer) : List Op → List UInt8
  | [] => []
  | op :: ops => op.output b ++ reads (b.apply op) ops

/-- The largest number of bytes within two bounds that is made of whole frames. A frame without
bytes leaves none. -/
structure WholeFrames (frame room available n : Nat) : Prop where
  whole : frame ∣ n
  fits : n ≤ room
  there : n ≤ available
  largest : ∀ n', frame ∣ n' → n' ≤ room → n' ≤ available → n' ≤ n

/-! ### One operation more -/

variable {f : Format} {ops : List Op} {op : Op} {b : Buffer}

theorem run_concat (b : Buffer) (ops : List Op) (op : Op) :
    b.run (ops ++ [op]) = (b.run ops).apply op := by
  simp [run]

theorem reads_concat (b : Buffer) (ops : List Op) (op : Op) :
    reads b (ops ++ [op]) = reads b ops ++ op.output (b.run ops) := by
  induction ops generalizing b with
  | nil => simp [reads, run]
  | cons o ops ih => simp [reads, ih, run]

/-- What holds of a new buffer and is kept by every operation holds after every run. -/
theorem run_induction {P : List Op → Buffer → Prop} (f : Format) (hempty : P [] (empty f))
    (hstep : ∀ ops op, P ops ((empty f).run ops) → P (ops ++ [op]) (((empty f).run ops).apply op))
    (ops : List Op) : P ops ((empty f).run ops) := by
  suffices h : ∀ ops' ops, P ops ((empty f).run ops) →
      P (ops ++ ops') ((empty f).run (ops ++ ops')) from h ops [] hempty
  intro ops'
  induction ops' with
  | nil => simp
  | cons op ops' ih =>
    intro ops h
    have hnext := ih (ops ++ [op]) (by rw [run_concat]; exact hstep ops op h)
    simpa using hnext

theorem sizing?_concat (f : Format) (ops : List Op) (op : Op) :
    sizing? f (ops ++ [op]) = (sizing? f ops).or (op.span?.map f.bytesOfSpan) := by
  cases h : ops.findSome? Op.span? <;> simp [sizing?, List.findSome?_append, h]

/-- After an abort nothing counts any more. -/
theorem offered_concat_of_aborted (h : ops.any Op.isAbort) (op : Op) :
    offered (ops ++ [op]) = offered ops := by
  suffices htake : (ops ++ [op]).takeWhile (fun op => !op.isAbort) =
      ops.takeWhile fun op => !op.isAbort by rw [offered, offered, htake]
  induction ops with
  | nil => simp at h
  | cons o ops ih =>
    cases ho : o.isAbort with
    | true => simp [ho]
    | false => simp [ho, ih (by simpa [ho] using h)]

/-- Before the sizing nothing counts yet. -/
theorem offered_concat (h : ops.any Op.isAbort = false) (op : Op) :
    offered (ops ++ [op]) =
      offered ops ++ if (ops.findSome? Op.span?).isSome then op.bytes else [] := by
  have hall : ∀ o ∈ ops, (!o.isAbort) = true := by simpa using h
  have htake : ∀ more, (ops ++ more).takeWhile (fun op => !op.isAbort) =
      ops ++ more.takeWhile fun op => !op.isAbort := fun _ => List.takeWhile_append_of_pos hall
  have hself := htake []
  simp only [List.append_nil, List.takeWhile_nil] at hself
  rw [offered, offered, htake, hself]
  cases hs : ops.findSome? Op.span? with
  | none =>
    have hdrop : ∀ more, (ops ++ more).dropWhile (fun op => op.span?.isNone) =
        more.dropWhile fun op => op.span?.isNone := fun more =>
      List.dropWhile_append_of_pos fun o ho => by simp [List.findSome?_eq_none_iff.1 hs o ho]
    have hself := hdrop []
    simp only [List.append_nil, List.dropWhile_nil] at hself
    rw [hdrop, hself]
    cases op <;> rfl
  | some d =>
    obtain ⟨before, o, after, rfl, ho, hbefore⟩ := List.findSome?_eq_some_iff.1 hs
    have hdrop : ∀ more,
        (before ++ o :: more).dropWhile (fun op => op.span?.isNone) = o :: more := by
      intro more
      rw [List.dropWhile_append_of_pos fun x hx => by simp [hbefore x hx]]
      simp [ho]
    have hop : (List.takeWhile (fun op => !op.isAbort) [op]).flatMap Op.bytes = op.bytes := by
      cases op <;> simp [Op.isAbort, Op.bytes]
    rw [List.append_assoc, List.cons_append, hdrop, hdrop, ← List.cons_append, List.flatMap_append,
      hop]
    rfl

/-! ### The invariant -/

/-- The buffer holds what the operations say. -/
structure Follows (f : Format) (ops : List Op) (b : Buffer) : Prop where
  format : b.format = f
  capacity : b.capacity? = sizing? f ops
  aborted : b.aborted = ops.any Op.isAbort
  data : b.data.toList = accepted f ops

theorem sizing?_eq_none : sizing? f ops = none ↔ ops.findSome? Op.span? = none :=
  Option.map_eq_none_iff

theorem offered_of_unsized (h : sizing? f ops = none) : offered ops = [] := by
  have hnone := List.findSome?_eq_none_iff.1 (sizing?_eq_none.1 h)
  have hall : ∀ o ∈ ops.takeWhile (fun op : Op => !op.isAbort), o.span?.isNone := fun o ho => by
    simp [hnone o ((List.takeWhile_sublist _).subset ho)]
  have hdrop : (ops.takeWhile (fun op : Op => !op.isAbort) ++ []).dropWhile
      (fun op : Op => op.span?.isNone) = [].dropWhile _ := List.dropWhile_append_of_pos hall
  rw [List.append_nil] at hdrop
  rw [offered, hdrop]
  rfl

/-- An operation that writes nothing changes nothing that counts. -/
theorem accepted_concat_of_nothing (h : op.bytes = []) :
    accepted f (ops ++ [op]) = accepted f ops := by
  have hoffered : offered (ops ++ [op]) = offered ops := by
    cases ha : ops.any Op.isAbort with
    | true => exact offered_concat_of_aborted ha op
    | false => simp [offered_concat ha, h]
  rw [accepted, accepted, hoffered, sizing?_concat]
  cases hs : sizing? f ops with
  | none => simp [offered_of_unsized hs]
  | some capacity => rfl

/-- A write adds as much as still fits. -/
theorem accepted_concat_write {capacity : Nat} (hs : sizing? f ops = some capacity)
    (ha : ops.any Op.isAbort = false) (bytes : Bytes) :
    accepted f (ops ++ [.write bytes]) =
      accepted f ops ++ bytes.toList.take (capacity - (accepted f ops).length) := by
  have hsome : (ops.findSome? Op.span?).isSome := by
    rw [sizing?, Option.map_eq_some_iff] at hs
    obtain ⟨d, hd, -⟩ := hs
    simp [hd]
  have hlen : capacity - min capacity (offered ops).length = capacity - (offered ops).length := by
    omega
  rw [accepted, accepted, sizing?_concat, hs, offered_concat ha, if_pos hsome]
  simp only [Option.some_or, Option.getD_some, List.take_append, List.length_take, hlen]
  rfl

theorem Follows.apply (h : Follows f ops b) (op : Op) : Follows f (ops ++ [op]) (b.apply op) := by
  obtain ⟨hf, hc, ha, hd⟩ := h
  -- an operation that adds nothing
  have idle : ∀ {b' : Buffer}, b'.format = b.format → b'.aborted = (b.aborted || op.isAbort) →
      b'.capacity? = b.capacity?.or (op.span?.map f.bytesOfSpan) → b'.data = b.data →
      accepted f (ops ++ [op]) = accepted f ops → Follows f (ops ++ [op]) b' := by
    intro b' hf' ha' hc' hd' hacc
    refine ⟨hf'.trans hf, ?_, by simp [ha', ha], by rw [hd', hd, hacc]⟩
    rw [hc', hc, sizing?_concat]
  have same : b.capacity? = b.capacity?.or none := Option.or_none.symm
  have quiet : op.bytes = [] → accepted f (ops ++ [op]) = accepted f ops :=
    accepted_concat_of_nothing
  cases op with
  | read room => exact idle rfl (Bool.or_false _).symm same rfl (quiet rfl)
  | abort => exact idle rfl (Bool.or_true _).symm same rfl (quiet rfl)
  | fail => exact idle rfl (Bool.or_true _).symm same rfl (quiet rfl)
  | seekFrame frame =>
    unfold Buffer.apply seekFrame
    dsimp only
    split <;> exact idle rfl (Bool.or_false _).symm same rfl (quiet rfl)
  | seek d =>
    unfold Buffer.apply seek seekFrame
    dsimp only
    split <;> exact idle rfl (Bool.or_false _).symm same rfl (quiet rfl)
  | endInput =>
    unfold Buffer.apply endInput
    dsimp only
    split <;> exact idle rfl (Bool.or_false _).symm same rfl (quiet rfl)
  | size d =>
    unfold Buffer.apply size
    dsimp only
    split
    · next hs =>
      refine idle rfl (Bool.or_false _).symm ?_ rfl (quiet rfl)
      rw [hs]
      exact hs
    · next hs =>
      refine idle rfl (Bool.or_false _).symm ?_ rfl (quiet rfl)
      rw [hs, ← hf]
      rfl
  | write bytes =>
    unfold Buffer.apply write
    dsimp only
    split
    · next hab =>
      refine idle rfl (Bool.or_false _).symm same rfl ?_
      rw [accepted, accepted, offered_concat_of_aborted (ha ▸ hab), sizing?_concat]
      simp [Op.span?]
    · next hab =>
      have hno : ops.any Op.isAbort = false := by rw [← ha]; simpa using hab
      split
      · next hs =>
        refine idle rfl (Bool.or_false _).symm same rfl ?_
        have hsizing : sizing? f ops = none := hc.symm.trans hs
        rw [accepted, accepted, sizing?_concat, hsizing]
        rfl
      · next capacity hs =>
        have hacc := accepted_concat_write (hc.symm.trans hs) hno bytes
        have hlen : b.writePos = (accepted f ops).length := by rw [← hd]; rfl
        rw [← hlen] at hacc
        split
        · next hcount =>
          refine idle rfl (Bool.or_false _).symm same rfl ?_
          have hnil : bytes.toList.take (capacity - b.writePos) = [] := by
            rw [List.take_eq_nil_iff, ← List.length_eq_zero_iff, Array.length_toList]
            omega
          rw [hacc, hnil, List.append_nil]
        · refine ⟨hf, ?_, ?_, ?_⟩
          · rw [sizing?_concat, ← hc]
            exact same
          · rw [List.any_append, ← ha]
            exact (Bool.or_false _).symm
          · have hcount : bytes.toList.take (min bytes.size (capacity - b.writePos)) =
                bytes.toList.take (capacity - b.writePos) := by
              rw [List.take_eq_take_iff, Array.length_toList]
              omega
            rw [hacc, ← hcount, ← hd]
            simp

theorem follows_run (f : Format) (ops : List Op) : Follows f ops ((empty f).run ops) :=
  run_induction f ⟨rfl, rfl, rfl, rfl⟩ (fun _ op h => h.apply op) ops

/-! ### Reading -/

theorem le_sub_mod {frame n x : Nat} (hn : frame ∣ n) (h : n ≤ x) : n ≤ x - x % frame := by
  have hx := Nat.div_add_mod x frame
  obtain ⟨k, rfl⟩ := hn
  have hk : frame * k ≤ frame * (x / frame) := by
    rcases Nat.eq_zero_or_pos frame with rfl | hpos
    · simp
    · refine Nat.mul_le_mul_left _ ((Nat.le_div_iff_mul_le hpos).2 ?_)
      rwa [Nat.mul_comm]
  omega

theorem Follows.writePos_eq (h : Follows f ops b) : b.writePos = (accepted f ops).length := by
  rw [← h.data]
  rfl

/-- A read takes the largest number of whole frames. -/
theorem Follows.readable (h : Follows f ops b) (room : Nat) :
    WholeFrames f.bytesPerFrame room (min b.limit b.writePos - b.readPos) (b.readable room) := by
  unfold Buffer.readable
  rw [h.format]
  split
  · dsimp only
    generalize min b.limit b.writePos - b.readPos = available
    generalize f.bytesPerFrame = frame
    have hwhole := Nat.sub_le room (room % frame)
    generalize hcount : min available (room - room % frame) = count
    have hle := Nat.sub_le count (count % frame)
    refine ⟨Nat.dvd_sub_mod _, by omega, by omega, fun n hn hroom hthere => le_sub_mod hn ?_⟩
    have := le_sub_mod hn hroom
    omega
  · next hno =>
    refine ⟨Nat.dvd_zero _, Nat.zero_le _, Nat.zero_le _, fun n hn _ hthere => ?_⟩
    rcases Nat.eq_zero_or_pos f.bytesPerFrame with hzero | hpos
    · rw [hzero, Nat.zero_dvd] at hn
      omega
    · have hunsized : sizing? f ops = none := by
        rw [← h.capacity]
        simpa [isSized, hpos] using hno
      have hempty : b.writePos = 0 := by
        rw [h.writePos_eq, accepted, hunsized]
        simp
      omega

/-- What a read returns, and where it leaves the cursor. -/
theorem Follows.read (h : Follows f ops b) (room : Nat) :
    (b.read room).2.toList = ((accepted f ops).drop b.readPos).take (b.readable room) ∧
      (b.read room).2.size = b.readable room ∧
      (b.read room).1 = { b with readPos := b.readPos + b.readable room } := by
  have hthere := (h.readable room).there
  have hsize : b.data.size = b.writePos := rfl
  refine ⟨?_, ?_, rfl⟩
  · simp [Buffer.read, Bytes.slice, h.data, List.extract_eq_take_drop]
  · simp only [Buffer.read, Bytes.slice, Array.size_extract]
    omega

/-! ### Without seeks -/

/-- What has been accepted stays. -/
theorem accepted_prefix (f : Format) (ops : List Op) (op : Op) :
    accepted f ops <+: accepted f (ops ++ [op]) := by
  have hoffered : offered ops <+: offered (ops ++ [op]) := by
    cases ha : ops.any Op.isAbort with
    | true => exact ⟨[], by rw [List.append_nil, offered_concat_of_aborted ha]⟩
    | false =>
      rw [offered_concat ha]
      exact List.prefix_append ..
  cases hs : sizing? f ops with
  | none => simp [accepted, hs]
  | some capacity =>
    obtain ⟨more, hmore⟩ := hoffered
    rw [accepted, accepted, sizing?_concat, hs, ← hmore]
    simp [List.take_append]

theorem accepted_prefix_offered (f : Format) (ops : List Op) : accepted f ops <+: offered ops :=
  List.take_prefix ..

/-- Where nobody seeks, the cursor is behind all that has been read. -/
structure Unsought (f : Format) (ops : List Op) (b : Buffer) : Prop where
  pending : b.pendingSeek = 0
  written : b.readPos ≤ b.writePos
  read : reads (empty f) ops = (accepted f ops).take b.readPos

/-- What keeps the cursor keeps it behind. -/
theorem Unsought.still {b' : Buffer} (h : Unsought f ops b) (hb : Follows f ops b)
    (hb' : Follows f (ops ++ [op]) b') (hp : b'.pendingSeek = 0) (hr : b'.readPos = b.readPos)
    (hout : reads (empty f) (ops ++ [op]) = reads (empty f) ops) : Unsought f (ops ++ [op]) b' := by
  obtain ⟨more, hmore⟩ := accepted_prefix f ops op
  have hle : b.readPos ≤ (accepted f ops).length := hb.writePos_eq ▸ h.written
  refine ⟨hp, ?_, ?_⟩
  · rw [hr, hb'.writePos_eq, ← hmore, List.length_append]
    omega
  · rw [hout, h.read, hr, ← hmore, List.take_append_of_le_length hle]

theorem Unsought.apply (h : Unsought f ops ((empty f).run ops)) (hop : op.isSeek = false) :
    Unsought f (ops ++ [op]) (((empty f).run ops).apply op) := by
  have hb := follows_run f ops
  have hb' := hb.apply op
  have hconcat := reads_concat (empty f) ops op
  generalize (empty f).run ops = b at h hb hb' hconcat
  have quiet : op.output b = [] → reads (empty f) (ops ++ [op]) = reads (empty f) ops := by
    intro hout
    rw [hconcat, hout, List.append_nil]
  cases op with
  | seekFrame frame => cases hop
  | seek d => cases hop
  | abort => exact h.still hb hb' h.pending rfl (quiet rfl)
  | fail => exact h.still hb hb' h.pending rfl (quiet rfl)
  | endInput =>
    refine h.still hb hb' ?_ ?_ (quiet rfl)
    · unfold Buffer.apply endInput
      dsimp only
      split <;> exact h.pending
    · unfold Buffer.apply endInput
      dsimp only
      split
      · rfl
      · exact Nat.min_eq_left h.written
  | write bytes =>
    have hkeeps : (b.write bytes).1.pendingSeek = b.pendingSeek ∧
        (b.write bytes).1.readPos = b.readPos := by
      unfold write
      split
      · exact ⟨rfl, rfl⟩
      · split
        · exact ⟨rfl, rfl⟩
        · dsimp only
          split <;> exact ⟨rfl, rfl⟩
    exact h.still hb hb' (hkeeps.1.trans h.pending) hkeeps.2 (quiet rfl)
  | size d =>
    cases hs : b.capacity? with
    | some capacity =>
      have hsame : b.apply (.size d) = b := by simp [Buffer.apply, size, hs, Except.toOption]
      rw [hsame] at hb' ⊢
      exact h.still hb hb' h.pending rfl (quiet rfl)
    | none =>
      have hempty : b.writePos = 0 := by
        rw [hb.writePos_eq, accepted, ← hb.capacity, hs]
        simp
      have hwritten := h.written
      refine h.still hb hb' ?_ ?_ (quiet rfl)
      · simp [Buffer.apply, size, hs, Except.toOption, h.pending]
      · simp only [Buffer.apply, size, hs, Except.toOption, h.pending, Option.getD_some]
        omega
  | read room =>
    obtain ⟨hbytes, -, hleft⟩ := hb.read room
    have hthere := (hb.readable room).there
    have hwritten := h.written
    rw [show b.apply (.read room) = (b.read room).1 from rfl, hleft]
    refine ⟨h.pending, ?_, ?_⟩
    · show b.readPos + b.readable room ≤ b.writePos
      omega
    · rw [hconcat, h.read, accepted_concat_of_nothing rfl, List.take_add]
      exact congrArg _ hbytes

theorem unsought_run (f : Format) (ops : List Op) (h : ∀ op ∈ ops, op.isSeek = false) :
    Unsought f ops ((empty f).run ops) := by
  refine run_induction (P := fun ops b => (∀ op ∈ ops, op.isSeek = false) → Unsought f ops b) f
    (fun _ => ⟨rfl, Nat.le_refl _, rfl⟩) (fun ops op ih hseek => ?_) ops h
  have hops : ∀ o ∈ ops, o.isSeek = false := fun o ho => hseek o (List.mem_append_left _ ho)
  exact (ih hops).apply (hseek op (List.mem_append_right _ (List.mem_singleton.2 rfl)))

/-- A buffer is a list of bytes with a cursor: it holds what has been accepted, a read returns the
whole frames of it from the cursor on, and where nobody seeks the reads are its beginning. -/
theorem run_refines_bytes (f : Format) (ops : List Op) :
    let b := (empty f).run ops
    (b.data.toList = accepted f ops ∧ b.writePos = (accepted f ops).length) ∧
      (∀ room, ∃ n,
        WholeFrames f.bytesPerFrame room (min b.limit b.writePos - b.readPos) n ∧
        (b.read room).2.toList = ((accepted f ops).drop b.readPos).take n ∧
        (b.read room).2.size = n ∧ (b.read room).1 = { b with readPos := b.readPos + n }) ∧
      (sizing? f ops = none → ∀ room, (b.read room).2 = #[]) ∧
      ((∀ op ∈ ops, op.isSeek = false) →
        reads (empty f) ops = (accepted f ops).take b.readPos ∧
          reads (empty f) ops <+: offered ops) := by
  intro b
  have hb : Follows f ops b := follows_run f ops
  refine ⟨⟨hb.data, hb.writePos_eq⟩, fun room => ?_, fun hs room => ?_, fun hseek => ?_⟩
  · exact ⟨b.readable room, hb.readable room, hb.read room⟩
  · have hbytes := (hb.read room).1
    rw [accepted, hs] at hbytes
    simpa using hbytes
  · have hread := (unsought_run f ops hseek).read
    refine ⟨hread, ?_⟩
    rw [hread]
    exact (List.take_prefix ..).trans (accepted_prefix_offered f ops)

/-- A frame is read when its second byte has come, and what does not fit is lost at the end. -/
example : reads (empty ⟨1000, 1, .signed16, .little⟩)
    [.size ⟨2000000⟩, .write #[1, 2, 3], .read 3, .write #[4, 5], .read 8] = [1, 2, 3, 4] := by
  decide

end Jukebox.Buffer
