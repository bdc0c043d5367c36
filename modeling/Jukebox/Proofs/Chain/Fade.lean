import Jukebox.Proofs.Chain.Reading

/-!
What a fade-out leaves of a stream. A chain without a fade reads what its buffer reads. From a fade
on it is compared with the buffer as it would be without: the same operations, and the same reads.
The chain is heard like the buffer, up to the whole frames of the window, and falls silent there.
The one thing that can come between is the end of the input, which takes back a cursor that is ahead
of everything written; nothing is left to hear then, with the fade or without.
-/

namespace Jukebox

/-- The whole frames between the two ends of a fade, in bytes. -/
def Fade.length (fade : Fade) (frame : Nat) : Nat := (fade.last - fade.first) / frame * frame

theorem Fade.length_of_dvd {fade : Fade} {frame len : Nat} (hlast : fade.last = fade.first + len)
    (hwhole : frame ∣ len) : fade.length frame = len := by
  rw [length, hlast, Nat.add_sub_cancel_left, Nat.div_mul_cancel hwhole]

namespace Buffer

variable {b : Buffer}

/-- The buffer with its cursor held back where it would go beyond a position. -/
def held (b : Buffer) (stop : Nat) : Buffer := { b with readPos := min b.readPos stop }

theorem write_held (b : Buffer) (stop : Nat) (bytes : Bytes) :
    ((b.held stop).write bytes).1 = (b.write bytes).1.held stop := by
  cases ha : b.aborted with
  | true => simp [write, held, ha]
  | false =>
    cases hc : b.capacity? with
    | none => simp [write, held, ha, hc]
    | some capacity =>
      by_cases hcount : min bytes.size (capacity - b.data.size) = 0 <;>
        simp [write, held, writePos, ha, hc, hcount]

theorem endInput_held (b : Buffer) (stop : Nat) :
    (b.held stop).endInput = b.endInput.held stop := by
  cases he : b.ended with
  | true => simp [endInput, held, he]
  | false => simp [endInput, held, writePos, he, Nat.min_comm stop b.data.size]

theorem held_of_le {stop : Nat} (h : b.readPos ≤ stop) : b.held stop = b := by
  rw [held, Nat.min_eq_left h]

theorem Bounded.held (h : b.Bounded) (stop : Nat) : (b.held stop).Bounded :=
  ⟨Nat.le_trans (Nat.min_le_left ..) h.read, h.limit, h.written⟩

theorem Drained.isFinished (h : b.Drained) : b.isFinished := by
  cases ha : b.aborted with
  | true => simp [Buffer.isFinished, ha]
  | false => exact (isFinished_iff ha).2 h

end Buffer

namespace Chain

variable {c : Chain} {b : Buffer} {fade : Fade} {heard plain : List UInt8}

/-! ### What is heard -/

/-- What an operation on a chain returns to the consumer. -/
def Op.output (c : Chain) : Op → List UInt8
  | .buffer op => op.output c.buffer
  | .read room => (c.read room).2.toList
  | _ => []

/-- What all reads of a run return, one after the other. -/
def reads (c : Chain) : List Op → List UInt8
  | [] => []
  | op :: ops => op.output c ++ reads (c.apply op) ops

/-- What is left of an operation when there is no chain. -/
def Op.bare? : Op → Option Buffer.Op
  | .buffer op => some op
  | .read room => some (.read room)
  | _ => none

/-- What is left of a run when there is no chain. -/
def bare (ops : List Op) : List Buffer.Op := ops.filterMap Op.bare?

def Op.isFade : Op → Bool
  | .fadeOut _ => true
  | _ => false

/-- Does an operation neither size the buffer, nor seek, nor read past the chain? -/
def Op.isForward : Op → Bool
  | .buffer (.size _) | .buffer (.seekFrame _) | .buffer (.seek _) | .buffer (.read _) => false
  | _ => true

theorem buffer_fadeOut (c : Chain) (window : Span) : (c.fadeOut window).buffer = c.buffer := by
  unfold fadeOut
  split <;> rfl

theorem fadeOut_of_faded (h : c.fade = some fade) (window : Span) : c.fadeOut window = c := by
  rw [fadeOut, h]

/-- A chain does to its buffer what the buffer could have done itself. -/
theorem buffer_run (c : Chain) (ops : List Op) :
    ∃ bops, (c.run ops).buffer = c.buffer.run bops := by
  induction ops generalizing c with
  | nil => exact ⟨[], rfl⟩
  | cons op ops ih =>
    obtain ⟨bops, h⟩ := ih (c.apply op)
    cases op with
    | buffer bop => exact ⟨bop :: bops, h⟩
    | read room => exact ⟨.read (c.room room) :: bops, h⟩
    | setTempo tempo => exact ⟨bops, h⟩
    | fadeOut window => exact ⟨bops, h.trans (by rw [apply, buffer_fadeOut])⟩

/-- Without a fade a chain reads as its buffer does. -/
theorem run_of_unfaded (hfade : c.fade = none) (later : List Op)
    (hlater : ∀ op ∈ later, op.isFade = false) :
    (c.run later).fade = none ∧ (c.run later).buffer = c.buffer.run (bare later) ∧
      reads c later = Buffer.reads c.buffer (bare later) := by
  induction later generalizing c with
  | nil => exact ⟨hfade, rfl, rfl⟩
  | cons op later ih =>
    have hop := hlater op (List.mem_cons_self ..)
    have hrest : ∀ o ∈ later, o.isFade = false := fun o ho => hlater o (List.mem_cons_of_mem _ ho)
    cases op with
    | fadeOut window => cases hop
    | setTempo tempo => exact ih (c := c.setTempo tempo) hfade hrest
    | buffer bop =>
      obtain ⟨hf, hb, hr⟩ := ih (c := { c with buffer := c.buffer.apply bop }) hfade hrest
      exact ⟨hf, hb, congrArg (bop.output c.buffer ++ ·) hr⟩
    | read room =>
      have hroom : c.room room = room := by rw [Chain.room, hfade]
      obtain ⟨hf, hb, hr⟩ := ih (c := (c.read room).1) hfade hrest
      have hnext : (c.read room).1.buffer = (c.buffer.read room).1 := by
        simp only [read, hroom]
      have hout : (c.read room).2 = (c.buffer.read room).2 := by
        simp only [read, hroom]
      rw [hnext] at hb hr
      refine ⟨hf, hb, ?_⟩
      show (c.read room).2.toList ++ reads (c.read room).1 later = _
      rw [hout, hr]
      rfl

/-! ### Beside the buffer -/

/-- A chain that has been faded out is where the buffer would be without the fade, as long as this
is inside the fade, and so is what has been heard of it. -/
structure Beside (fade : Fade) (c : Chain) (b : Buffer) (heard plain : List UInt8) : Prop where
  armed : c.fade = some fade
  buffer : c.buffer = b.held (fade.first + fade.length b.format.bytesPerFrame)
  heard : heard = plain.take (fade.length b.format.bytesPerFrame)
  whole : b.format.bytesPerFrame ∣ plain.length
  written : plain = [] ∨ b.readPos ≤ b.writePos
  /-- The cursor has moved by what was read, or it was taken back before anything was. -/
  place : b.readPos = fade.first + plain.length ∨
    plain = [] ∧ b.readPos ≤ fade.first ∧ b.Drained
  bounded : b.Bounded

theorem Beside.buffer_eq (h : Beside fade c b heard plain)
    (hin : b.readPos ≤ fade.first + fade.length b.format.bytesPerFrame) : c.buffer = b :=
  h.buffer.trans (Buffer.held_of_le hin)

/-- An operation that leaves the cursor where it is leaves the two beside each other. -/
theorem Beside.still {op : Buffer.Op} (h : Beside fade c b heard plain)
    (hbuffer : (c.buffer.apply op) =
      (b.apply op).held (fade.first + fade.length b.format.bytesPerFrame))
    (hformat : (b.apply op).format = b.format) (hread : (b.apply op).readPos = b.readPos)
    (hwritten : b.writePos ≤ (b.apply op).writePos) (hdrained : b.Drained → (b.apply op).Drained) :
    Beside fade (c.apply (.buffer op)) (b.apply op) heard plain := by
  have hbounded := h.bounded.change (Buffer.change_apply b op)
  refine ⟨h.armed, by rwa [hformat], by rw [hformat]; exact h.heard, by rw [hformat]; exact h.whole,
    ?_, ?_, hbounded⟩
  · rw [hread]
    exact h.written.imp_right fun hle => Nat.le_trans hle hwritten
  · rw [hread]
    exact h.place.imp_right fun ⟨hnone, hback, hd⟩ => ⟨hnone, hback, hdrained hd⟩

theorem Beside.write (h : Beside fade c b heard plain) (bytes : Bytes) :
    Beside fade (c.apply (.buffer (.write bytes))) (b.apply (.write bytes)) heard plain := by
  have hlater := Buffer.Later.of_change (Buffer.change_apply b (.write bytes))
  obtain ⟨more, ready, hcases⟩ := Buffer.write_cases b bytes
  have hwrite : b.apply (.write bytes) = _ := hcases
  refine h.still ?_ (by rw [hwrite]) (by rw [hwrite]) hlater.written fun hd => hd.apply rfl rfl
  rw [h.buffer]
  exact Buffer.write_held ..

theorem Beside.abort {op : Buffer.Op} (h : Beside fade c b heard plain) (hop : op.isAbort) :
    Beside fade (c.apply (.buffer op)) (b.apply op) heard plain := by
  cases op with
  | abort | fail =>
    refine h.still ?_ rfl rfl (Nat.le_refl _) fun hd => ⟨hd.sized, hd.supplied, hd.behind⟩
    rw [h.buffer]
    rfl
  | _ => cases hop

theorem Beside.endInput (h : Beside fade c b heard plain) :
    Beside fade (c.apply (.buffer .endInput)) (b.apply .endInput) heard plain := by
  have hbounded := h.bounded.change (Buffer.change_apply b .endInput)
  have hdrained : b.Drained → (b.apply .endInput).Drained := fun hd => hd.apply rfl rfl
  have hnext : (c.apply (.buffer .endInput)).buffer =
      (b.apply .endInput).held (fade.first + fade.length b.format.bytesPerFrame) := by
    show c.buffer.endInput = _
    rw [h.buffer, Buffer.endInput_held]
    rfl
  cases he : b.ended with
  | true =>
    have hsame : b.apply .endInput = b := by rw [Buffer.apply, Buffer.endInput, if_pos he]
    rw [hsame] at hnext ⊢
    exact ⟨h.armed, hnext, h.heard, h.whole, h.written, h.place, h.bounded⟩
  | false =>
    have happly : b.apply .endInput = { b with
        ended := true
        limit := min b.limit b.writePos
        readPos := min b.readPos b.writePos
        released := true } := by
      rw [Buffer.apply, Buffer.endInput, if_neg (by simp [he])]
    rw [happly] at hnext hdrained hbounded ⊢
    refine ⟨h.armed, hnext, h.heard, h.whole, .inr (Nat.min_le_right ..), ?_, hbounded⟩
    rcases h.place with hplace | ⟨hnone, hback, hd⟩
    · rcases Nat.lt_or_ge b.writePos b.readPos with hahead | hin
      · -- a cursor that is ahead of everything written has not moved since the fade
        have hnone : plain = [] := h.written.resolve_right (by omega)
        rw [hnone, List.length_nil, Nat.add_zero] at hplace
        have hsized : b.isSized := h.bounded.isSized (by omega)
        refine .inr ⟨hnone, ?_, hsized, .inl rfl, ?_⟩
        · show min b.readPos b.writePos ≤ fade.first
          omega
        · show min b.limit b.writePos ≤ min b.readPos b.writePos
          omega
      · left
        show min b.readPos b.writePos = _
        rw [Nat.min_eq_left hin, hplace]
    · refine .inr ⟨hnone, ?_, hdrained hd⟩
      exact Nat.le_trans (Nat.min_le_left ..) hback

/-- Of the whole frames that a stream could yield, those that lie before the end of a fade. -/
theorem min_length (fade : Fade) {frame passed : Nat} (hwhole : frame ∣ passed) (stop room : Nat) :
    let cursor := fade.first + min passed (fade.length frame)
    min (min (stop - cursor) (fade.last - cursor)) room / frame * frame =
      min (min (stop - (fade.first + passed)) room / frame * frame)
        (fade.length frame - passed) := by
  intro cursor
  rcases Nat.le_total passed (fade.length frame) with hin | hout
  · have hcursor : cursor = fade.first + passed := by simp only [cursor, Nat.min_eq_left hin]
    have hleft : (fade.last - (fade.first + passed)) / frame * frame =
        fade.length frame - passed := by
      obtain ⟨k, rfl⟩ := hwhole
      rw [Nat.sub_add_eq, Nat.sub_mul_div, Nat.sub_mul, Nat.mul_comm k frame]
      rfl
    rw [hcursor, Nat.min_right_comm, min_div, ← Nat.mul_min_mul_right, hleft]
  · -- less than a frame of the fade is left
    have hcursor : cursor = fade.first + fade.length frame := by
      simp only [cursor, Nat.min_eq_right hout]
    rw [hcursor, Nat.sub_eq_zero_of_le hout, Nat.min_zero]
    rcases Nat.eq_zero_or_pos frame with rfl | hpos
    · rw [Nat.mul_zero]
    · have hrest : fade.last - (fade.first + fade.length frame) < frame := by
        have hdiv := Nat.div_add_mod' (fade.last - fade.first) frame
        have hmod := Nat.mod_lt (fade.last - fade.first) hpos
        unfold Fade.length
        omega
      rw [Nat.div_eq_of_lt (by omega), Nat.zero_mul]

/-- A read takes what the buffer would yield, up to the end of the fade. -/
theorem Beside.readable (h : Beside fade c b heard plain) (room : Nat) :
    c.buffer.readable (c.room room) =
      min (b.readable room) (fade.length b.format.bytesPerFrame - plain.length) := by
  rcases h.place with hplace | ⟨-, hback, hd⟩
  · have hframe : c.buffer.format.bytesPerFrame = b.format.bytesPerFrame := by rw [h.buffer]; rfl
    have hpos : c.buffer.readPos =
        fade.first + min plain.length (fade.length b.format.bytesPerFrame) := by
      rw [h.buffer, Buffer.held, hplace, Nat.add_min_add_left]
    have hc : c.available = min (min b.limit b.writePos - c.buffer.readPos)
        (fade.last - c.buffer.readPos) := by
      rw [available, h.armed]
      dsimp only
      rw [Buffer.available_eq (h.buffer ▸ h.bounded.held _), h.buffer]
      rfl
    rw [readable_eq hframe, Buffer.readable_eq, Buffer.available_eq h.bounded, hc, hpos, hplace]
    exact min_length fade h.whole ..
  · have hsame : c.buffer = b := h.buffer_eq (Nat.le_trans hback (Nat.le_add_right ..))
    rw [hsame, Buffer.readable_of_drained hd, Buffer.readable_of_drained hd, Nat.zero_min]

/-- What is heard of a read is what the buffer would yield, up to the end of the fade. -/
theorem Beside.toList_read (h : Beside fade c b heard plain) (room : Nat) :
    (c.read room).2.toList = (b.read room).2.toList.take
      (fade.length b.format.bytesPerFrame - plain.length) := by
  have hread : (c.read room).2.toList = _ := Buffer.toList_read c.buffer (c.room room)
  rw [hread, h.readable, Buffer.toList_read, List.take_take, Nat.min_comm]
  rcases Nat.le_total b.readPos (fade.first + fade.length b.format.bytesPerFrame) with hin | hout
  · rw [h.buffer_eq hin]
  · -- the fade is over
    have hnone : fade.length b.format.bytesPerFrame - plain.length = 0 := by
      rcases h.place with hplace | ⟨-, hback, -⟩ <;> omega
    rw [hnone, Nat.zero_min, List.take_zero, List.take_zero]

theorem Beside.read (h : Beside fade c b heard plain) (room : Nat) :
    Beside fade (c.apply (.read room)) (b.apply (.read room))
      (heard ++ (c.read room).2.toList) (plain ++ (b.read room).2.toList) := by
  have hbounded := h.bounded.change (Buffer.change_apply b (.read room))
  have hc := h.readable room
  have happly : b.apply (.read room) = { b with readPos := b.readPos + b.readable room } := rfl
  have hthere := Buffer.readable_le b room
  have hlength := Buffer.length_read b room
  have hnone : b.Drained → b.readable room = 0 := fun hd => Buffer.readable_of_drained hd room
  have hempty : b.readable room = 0 → (b.read room).2.toList = [] := fun hzero =>
    List.length_eq_zero_iff.1 (hlength.trans hzero)
  rw [happly] at hbounded ⊢
  refine ⟨h.armed, ?_, ?_, ?_, ?_, ?_, hbounded⟩
  · show { c.buffer with readPos := c.buffer.readPos + c.buffer.readable (c.room room) } = _
    rw [hc, h.buffer]
    simp only [Buffer.held, Buffer.mk.injEq, true_and, and_true]
    rcases h.place with hplace | ⟨-, -, hd⟩
    · omega
    · have hzero := hnone hd
      omega
  · rw [h.toList_read, h.heard, List.take_append]
  · rw [List.length_append, hlength]
    exact Nat.dvd_add h.whole (Buffer.dvd_readable b room)
  · rcases Nat.eq_zero_or_pos (b.readable room) with hzero | hsome
    · rw [hempty hzero, List.append_nil, hzero]
      exact h.written
    · right
      show b.readPos + b.readable room ≤ b.writePos
      omega
  · refine h.place.imp (fun hplace => ?_) fun ⟨hplain, hback, hd⟩ => ?_
    · rw [List.length_append, hlength, hplace, Nat.add_assoc]
    · rw [hempty (hnone hd), hnone hd, List.append_nil]
      exact ⟨hplain, hback, hd⟩

/-- From a fade on, a chain stays beside its buffer as it would be without the fade. -/
theorem Beside.run (h : Beside fade c b heard plain) (later : List Op)
    (hlater : ∀ op ∈ later, op.isForward) :
    Beside fade (c.run later) (b.run (bare later)) (heard ++ reads c later)
      (plain ++ Buffer.reads b (bare later)) := by
  induction later generalizing c b heard plain with
  | nil =>
    simpa only [run, Buffer.run, reads, Buffer.reads, bare, List.filterMap_nil, List.foldl_nil,
      List.append_nil] using h
  | cons op later ih =>
    have hop := hlater op (List.mem_cons_self ..)
    have hrest : ∀ o ∈ later, o.isForward := fun o ho => hlater o (List.mem_cons_of_mem _ ho)
    cases op with
    | setTempo tempo =>
      have hnext : Beside fade (c.setTempo tempo) b heard plain := { h with }
      exact ih hnext hrest
    | fadeOut window =>
      have hsame : c.fadeOut window = c := fadeOut_of_faded h.armed window
      exact ih (c := c.fadeOut window) (by rwa [hsame]) hrest
    | read room =>
      have hnext := ih (h.read room) hrest
      rw [List.append_assoc, List.append_assoc] at hnext
      exact hnext
    | buffer bop =>
      cases bop with
      | size d | seekFrame frame | seek d | read room => cases hop
      | write bytes => exact ih (h.write bytes) hrest
      | endInput => exact ih h.endInput hrest
      | abort | fail => exact ih (h.abort rfl) hrest

/-! ### The end of a fade -/

/-- A fade begins beside the buffer. -/
theorem beside_fadeOut (hfade : c.fade = none) (hb : c.buffer.Bounded) (window : Span) :
    ∃ fade : Fade, fade.first = c.buffer.readPos ∧
      fade.last = min (c.buffer.readPos + c.buffer.format.bytesOfSpan window) lastFadeEnd ∧
      Beside fade (c.fadeOut window) c.buffer [] [] := by
  refine ⟨⟨c.buffer.readPos, _⟩, rfl, rfl, ?_, ?_, ?_, Nat.dvd_zero _, .inl rfl, .inl rfl, hb⟩
  · rw [fadeOut, hfade]
  · rw [buffer_fadeOut, Buffer.held_of_le (Nat.le_add_right ..)]
  · rw [List.take_nil]

theorem isFinished_of_faded (h : c.fade = some fade) :
    c.isFinished ↔ fade.last ≤ c.buffer.readPos ∨ c.buffer.isFinished := by
  simp [Chain.isFinished, h]

/-- A fade over no more than so many bytes bounds what is heard, and its end is an end. -/
theorem Beside.within {len : Nat} (h : Beside fade c b heard plain)
    (hlast : fade.last ≤ fade.first + len) :
    heard <+: plain ∧ heard.length ≤ len ∧
      (heard.length = len ∨ c.buffer.isFinished → c.isFinished) := by
  have hlength : fade.length b.format.bytesPerFrame ≤ fade.last - fade.first :=
    Nat.div_mul_le_self ..
  have hheard := congrArg List.length h.heard
  rw [List.length_take] at hheard
  refine ⟨h.heard ▸ List.take_prefix .., by omega, fun hend => ?_⟩
  rw [isFinished_of_faded h.armed]
  rcases hend with hall | hend
  · rcases h.place with hplace | ⟨-, hback, hd⟩
    · left
      rw [h.buffer]
      show fade.last ≤ min b.readPos _
      omega
    · -- the input ended before the fade began
      right
      rw [h.buffer_eq (Nat.le_trans hback (Nat.le_add_right ..))]
      exact hd.isFinished
  · exact .inr hend

/-- A fade over so many bytes, all of them in whole frames, lets exactly these be heard. -/
theorem Beside.exact {len : Nat} (h : Beside fade c b heard plain)
    (hlast : fade.last = fade.first + len) (hwhole : b.format.bytesPerFrame ∣ len) :
    heard = plain.take len ∧ (c.isFinished ↔ heard.length = len ∨ c.buffer.isFinished) ∧
      (b.isFinished → c.isFinished) := by
  have hlength := Fade.length_of_dvd hlast hwhole
  have hheard : heard = plain.take len := h.heard.trans (by rw [hlength])
  have hread : c.buffer.readPos = min b.readPos (fade.first + len) := by
    rw [h.buffer, hlength]
    rfl
  have hfaded := isFinished_of_faded h.armed
  refine ⟨hheard, ⟨fun hfin => (hfaded.1 hfin).imp_left fun hend => ?_, ?_⟩, fun hb => ?_⟩
  · rw [hheard, List.length_take]
    rcases h.place with hplace | ⟨-, hback, -⟩ <;> omega
  · exact (h.within (Nat.le_of_eq hlast)).2.2
  · -- inside the fade the chain is where its buffer would be, and behind it at the end
    rw [hfaded]
    rcases Nat.le_total b.readPos (fade.first + len) with hin | hout
    · right
      rwa [h.buffer_eq (by rwa [hlength])]
    · left
      omega

/-- What a fade leaves of a stream. Until there is one, a chain reads as its buffer does. From then
on what is heard is what the buffer would have yielded without the fade, but no more of it than the
window holds, and exactly that much unless the window reaches beyond the largest position. The chain
is finished when the window has been heard or its buffer is finished, and a second fade changes
nothing. -/
theorem fade_bounds_what_is_heard (f : Format) (ops : List Op) :
    let c := (ofBuffer (.empty f)).run ops
    c.fade = none →
      (∀ later, (∀ op ∈ later, op.isFade = false) →
        reads c later = Buffer.reads c.buffer (bare later) ∧
          (c.run later).buffer = c.buffer.run (bare later) ∧
          (c.run later).isFinished = (c.buffer.run (bare later)).isFinished) ∧
      ∀ window later, (∀ op ∈ later, op.isForward) →
        let len := f.bytesOfSpan window
        let faded := (c.fadeOut window).run later
        let heard := reads (c.fadeOut window) later
        let plain := Buffer.reads c.buffer (bare later)
        heard <+: plain ∧ heard.length ≤ len ∧
          (heard.length = len ∨ faded.buffer.isFinished → faded.isFinished) ∧
          (c.buffer.readPos + len ≤ lastFadeEnd → heard = plain.take len ∧
            (faded.isFinished ↔ heard.length = len ∨ faded.buffer.isFinished) ∧
            ((c.buffer.run (bare later)).isFinished → faded.isFinished)) ∧
          ∀ again, faded.fadeOut again = faded := by
  intro c hfade
  obtain ⟨bops, hbops⟩ := buffer_run (ofBuffer (.empty f)) ops
  have hc : c.buffer = (Buffer.empty f).run bops := hbops
  have hformat : c.buffer.format = f := by
    rw [hc]
    exact (Buffer.follows_run f bops).format
  have hbounded : c.buffer.Bounded := hc ▸ Buffer.bounded_run f bops
  refine ⟨fun later hlater => ?_, fun window later hlater => ?_⟩
  · obtain ⟨hfade', hbuffer, hreads⟩ := run_of_unfaded hfade later hlater
    refine ⟨hreads, hbuffer, ?_⟩
    rw [Chain.isFinished, hfade', ← hbuffer]
  · intro len faded heard plain
    have hnext : (c.buffer.run (bare later)).format = f := by
      rw [hc, Buffer.run, Buffer.run, ← List.foldl_append]
      exact (Buffer.follows_run f (bops ++ bare later)).format
    obtain ⟨fade, hfirst, hlast, hbegin⟩ := beside_fadeOut hfade hbounded window
    have h : Beside fade faded (c.buffer.run (bare later)) heard plain := hbegin.run later hlater
    rw [hformat, show f.bytesOfSpan window = len from rfl] at hlast
    have hwindow : fade.last ≤ fade.first + len := by omega
    obtain ⟨hstart, hle, hdone⟩ := h.within hwindow
    refine ⟨hstart, hle, hdone, fun hfits => ?_, fadeOut_of_faded h.armed⟩
    -- a window that does not saturate is made of whole frames
    have hunsaturated : len ≠ Word.top := by
      have htop : lastFadeEnd < Word.top := by decide
      omega
    refine h.exact (by omega) ?_
    rw [hnext]
    exact Buffer.dvd_bytesOfSpan hunsaturated

/-- Four frames, three of them written and one of them read. -/
def threeWritten : List Op :=
  [.buffer (.size ⟨4000000⟩), .buffer (.write #[1, 2, 3, 4, 5, 6]), .read 2]

/-- Reads that do not fit frames, a second fade, and the fourth frame. -/
def secondFade : List Op :=
  [.read 3, .fadeOut ⟨9000000⟩, .buffer (.write #[7, 8]), .read 8, .buffer .endInput]

/-- A window of two frames. -/
theorem fade_bounds_what_is_heard_twoFrames :
    let c := (ofBuffer (.empty ⟨1000, 1, .signed16, .little⟩)).run threeWritten
    let heard := reads (c.fadeOut ⟨2000000⟩) secondFade
    (c.fade = none ∧ (∀ op ∈ [Op.read 3], op.isFade = false) ∧ ∀ op ∈ secondFade, op.isForward) ∧
      reads c [.read 3] = [3, 4] ∧
      Buffer.reads c.buffer (bare secondFade) = [3, 4, 5, 6, 7, 8] ∧ heard = [3, 4, 5, 6] ∧
      ((c.fadeOut ⟨2000000⟩).run secondFade).isFinished := by
  intro c heard
  have hfade : c.fade = none := by decide
  have hread : ∀ op ∈ [Op.read 3], op.isFade = false := by decide
  have hforward : ∀ op ∈ secondFade, op.isForward := by decide
  obtain ⟨hbefore, hafter⟩ := fade_bounds_what_is_heard _ threeWritten hfade
  obtain ⟨-, -, hdone, hexact, -⟩ := hafter ⟨2000000⟩ secondFade hforward
  have hheard : heard = [3, 4, 5, 6] := (hexact (by decide)).1.trans (by decide)
  refine ⟨⟨hfade, hread, hforward⟩, (hbefore _ hread).1.trans (by decide), by decide, hheard, ?_⟩
  exact hdone (.inl ((congrArg List.length hheard).trans (by decide)))

end Chain

end Jukebox
