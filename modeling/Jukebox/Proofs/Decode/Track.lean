import Jukebox.Decode
import Jukebox.Proofs.Buffer.Ending
import Jukebox.Proofs.Rate.Conversion

/-!
What decoding leaves in a buffer. The frames that a file holds for its stream are told from the
packets alone: those of other streams, and those without audio, count for nothing. Where the rate
need not be changed, a buffer whose decoding was neither aborted nor at fault holds the beginning of
these frames, each with its channels mapped and its samples encoded, as much as fits, and its limit
is the end of that.
-/

namespace Jukebox.Media.Session

/-- The frames with audio that the decoder gives of a stream before its input ends. -/
def sounding (stream : Nat) : List Packet → List Frame
  | [] => []
  | p :: rest =>
    if p.stream ≠ stream then sounding stream rest
    else match p.decoded with
      | .endOfInput | .malformed => []
      | .frame f => if f.frames = 0 then sounding stream rest else f :: sounding stream rest

/-- The input of a stream ends without a fault. -/
def endsWell (stream : Nat) (ending : Ending) : List Packet → Prop
  | [] => ending ≠ .malformed
  | p :: rest =>
    if p.stream ≠ stream then endsWell stream ending rest
    else match p.decoded with
      | .endOfInput => True
      | .malformed => False
      | .frame _ => endsWell stream ending rest

/-- The audio of a session: its frames of one sample for every channel. -/
def audio (s : Session) : List (List Float32) :=
  (sounding s.stream.id s.packets).flatMap fun f => Rate.rows f.layout.channels f.samples.toList

/-- A packet of another stream, or without audio. -/
def PassedOver (stream : Nat) (p : Packet) : Prop :=
  p.stream ≠ stream ∨ ∃ f, p.decoded = .frame f ∧ f.frames = 0

section

variable {σ : Type} {reading : Nat → σ → σ} {receive : Nat → σ → Frame → σ × Verdict} {s : Session}
  {p : Packet} {packets : List Packet} {taken stream : Nat} {ending : Ending} {w : σ}

attribute [local simp] sounding endsWell go

theorem sounding_passedOver (h : PassedOver stream p) :
    sounding stream (p :: packets) = sounding stream packets := by
  rcases h with h | ⟨f, hf, hframes⟩
  · simp [h]
  · simp [hf, hframes]

theorem sounding_frame {f : Frame} (hstream : p.stream = stream) (hp : p.decoded = .frame f)
    (hframes : f.frames ≠ 0) :
    sounding stream (p :: packets) = f :: sounding stream packets := by
  simp [hstream, hp, hframes]

theorem endsWell_frame {f : Frame} (hstream : p.stream = stream) (hp : p.decoded = .frame f) :
    endsWell stream ending (p :: packets) ↔ endsWell stream ending packets := by
  simp [hstream, hp]

theorem endsWell_passedOver (h : PassedOver stream p) :
    endsWell stream ending (p :: packets) ↔ endsWell stream ending packets := by
  rcases h with h | ⟨f, hf, hframes⟩
  · simp [h]
  · simp [hf]

theorem go_passedOver (hs : s.cancelled = false) (h : PassedOver s.stream.id p) :
    s.go reading receive (p :: packets) taken w =
      s.go reading receive packets (taken + 1) (reading taken w) := by
  rcases h with h | ⟨f, hf, hframes⟩
  · simp [hs, h]
  · simp [hs, hf, hframes]

theorem go_endOfInput (hs : s.cancelled = false) (hstream : p.stream = s.stream.id)
    (hp : p.decoded = .endOfInput) :
    s.go reading receive (p :: packets) taken w =
      ({ s with packets }, reading taken w, .ok .endOfStream) := by
  simp [hs, hstream, hp]

theorem go_malformed (hs : s.cancelled = false) (hstream : p.stream = s.stream.id)
    (hp : p.decoded = .malformed) :
    s.go reading receive (p :: packets) taken w =
      ({ s with packets }, reading taken w, .error .badPacket) := by
  simp [hs, hstream, hp]

theorem go_more {f : Frame} {w' : σ} (hs : s.cancelled = false) (hstream : p.stream = s.stream.id)
    (hp : p.decoded = .frame f) (hframes : f.frames ≠ 0)
    (hreceive : receive taken (reading taken w) f = (w', .more)) :
    s.go reading receive (p :: packets) taken w = s.go reading receive packets (taken + 1) w' := by
  simp [hs, hstream, hp, hframes, hreceive]

theorem go_enough {f : Frame} {w' : σ} (hs : s.cancelled = false) (hstream : p.stream = s.stream.id)
    (hp : p.decoded = .frame f) (hframes : f.frames ≠ 0)
    (hreceive : receive taken (reading taken w) f = (w', .enough)) :
    s.go reading receive (p :: packets) taken w =
      ({ s with packets, cancelled := true }, w', .ok .cancelled) := by
  simp [hs, hstream, hp, hframes, hreceive]

theorem go_cancel {f : Frame} {w' : σ} (hs : s.cancelled = false) (hstream : p.stream = s.stream.id)
    (hp : p.decoded = .frame f) (hframes : f.frames ≠ 0)
    (hreceive : receive taken (reading taken w) f = (w', .cancel)) :
    s.go reading receive (p :: packets) taken w =
      { s with cancelled := true }.go reading receive packets (taken + 1) w' := by
  simp [hs, hstream, hp, hframes, hreceive]

theorem go_fault {f : Frame} {w' : σ} {e : Fault} (hs : s.cancelled = false)
    (hstream : p.stream = s.stream.id) (hp : p.decoded = .frame f) (hframes : f.frames ≠ 0)
    (hreceive : receive taken (reading taken w) f = (w', .fault e)) :
    s.go reading receive (p :: packets) taken w = ({ s with packets }, w', .error e) := by
  simp [hs, hstream, hp, hframes, hreceive]

end

end Jukebox.Media.Session

namespace Jukebox.Decode

open Media (Session)

/-- Frames of any layout as the bytes of a format. -/
def encoded (f : Format) (frames : List (List Float32)) : List UInt8 :=
  frames.flatMap fun row => (Rate.remix f.channels row).flatMap f.encode

/-- A buffer that was given some bytes, and nothing else, after it got its capacity. -/
def stored (f : Format) (start capacity : Nat) (bytes : List UInt8) : Buffer :=
  { Buffer.empty f with
    capacity? := some capacity
    limit := capacity
    readPos := min start capacity
    pendingSeek := min start capacity
    data := (bytes.take capacity).toArray
    dataReady := decide (0 < min capacity bytes.length) }

variable {f : Format} {start capacity : Nat} {bytes : List UInt8} {aborts : Moment → Bool}
  {o : Options} {w : Work}

theorem stored_write (f : Format) (start capacity : Nat) (bytes : List UInt8) (more : Bytes) :
    (stored f start capacity bytes).write more =
      (stored f start capacity (bytes ++ more.toList), true) := by
  have hlen : (stored f start capacity bytes).writePos = min capacity bytes.length := by
    simp [stored, Buffer.writePos]
  have hcount : min more.size (capacity - min capacity bytes.length) =
      min more.size (capacity - bytes.length) := by omega
  unfold Buffer.write
  rw [hlen]
  simp only [stored, Buffer.empty, Bool.false_eq_true, if_false, List.take_append,
    List.length_append, Array.length_toList, hcount]
  generalize hn : min more.size (capacity - bytes.length) = count
  by_cases hnone : count = 0
  · -- either nothing comes or nothing fits
    have hmore : more.toList.length = more.size := Array.length_toList
    have htake : more.toList.take (capacity - bytes.length) = [] := by
      rw [List.take_eq_nil_iff, ← List.length_eq_zero_iff, hmore]
      omega
    have hready : min capacity (bytes.length + more.size) = min capacity bytes.length := by omega
    rw [if_pos hnone, htake, List.append_nil, hready]
  · have htake : more.toList.take (capacity - bytes.length) = (more.extract 0 count).toList := by
      rw [Array.toList_extract, List.extract_eq_take_drop, List.drop_zero, Nat.sub_zero, ← hn,
        ← Array.length_toList, Nat.min_comm, ← List.take_take, List.take_length]
    have hready : decide (0 < min capacity (bytes.length + more.size)) = true := by
      rw [decide_eq_true_iff]
      omega
    rw [if_neg hnone, htake, hready, ← List.append_toArray, Array.toArray_toList]

/-! ### The work -/

/-- A work without a filter: unless its buffer is aborted, it was given just these bytes. -/
structure Plain (f : Format) (start capacity : Nat) (bytes : List UInt8) (w : Work) : Prop where
  format : w.buffer.format = f
  target : ∀ r, w.converter = some r → r.rate = none ∧ r.target = f
  buffer : w.buffer.aborted = false → w.buffer = stored f start capacity bytes

theorem Plain.meanwhile (h : Plain f start capacity bytes w) (aborts : Moment → Bool) (m : Moment) :
    Plain f start capacity bytes (w.meanwhile aborts m) := by
  rw [Work.meanwhile]
  split
  · exact ⟨h.format, h.target, fun ha => Bool.noConfusion ha⟩
  · exact h

theorem Plain.write (h : Plain f start capacity bytes w) (c : Rate.Converted) :
    Plain f start capacity (bytes ++ c.bytes.toList) (w.write c).1 := by
  cases ha : w.buffer.aborted with
  | true =>
    have hsame : (w.write c).1 = w := by simp [Work.write, Buffer.write, ha]
    rw [hsame]
    exact ⟨h.format, h.target, fun h' => absurd (ha.symm.trans h') (by decide)⟩
  | false =>
    have hbuffer : (w.write c).1.buffer = stored f start capacity (bytes ++ c.bytes.toList) := by
      rw [Work.write, h.buffer ha, stored_write]
    refine ⟨?_, h.target, fun _ => hbuffer⟩
    rw [hbuffer]
    rfl

theorem Plain.flush (h : Plain f start capacity bytes w) :
    Plain f start capacity bytes w.flush := by
  unfold Work.flush
  split
  · exact h
  · next r hr =>
    obtain ⟨hrate, htarget⟩ := h.target r hr
    rw [Rate.Resampler.flush_none hrate]
    have hnext : Plain f start capacity bytes
        { w with converter := some { r with generation := r.generation + 1 } } := by
      refine ⟨h.format, ?_, h.buffer⟩
      rintro _ ⟨⟩
      exact ⟨hrate, htarget⟩
    have hwrite := hnext.write ⟨#[], 0, r.generation + 1⟩
    rwa [List.append_nil] at hwrite

/-- A converter that is kept is for the layout of the frame. -/
theorem Plain.adapt (h : Plain f start capacity bytes w) (layout : Media.Layout) :
    Plain f start capacity bytes (w.adapt layout) ∧
      ∀ r, (w.adapt layout).converter = some r → r.source = layout := by
  unfold Work.adapt
  split
  · next r hr =>
    split
    · next hsource =>
      refine ⟨h, fun r' hr' => ?_⟩
      rw [hr] at hr'
      cases hr'
      exact hsource
    · exact ⟨⟨h.flush.format, nofun, h.flush.buffer⟩, nofun⟩
  · next hnone =>
    rw [hnone]
    exact ⟨h, nofun⟩

/-- The converter for a frame whose rate need not be changed. -/
theorem Plain.converterFor (h : Plain f start capacity bytes w) {layout : Media.Layout}
    (hlayout : ∀ r, w.converter = some r → r.source = layout) (hrate : layout.rate = f.rate) :
    ∃ r, w.converterFor o layout = .ok r ∧ r.source = layout ∧ r.rate = none ∧ r.target = f := by
  unfold Work.converterFor
  split
  · next r hr => exact ⟨r, rfl, hlayout r hr, h.target r hr⟩
  · rw [h.format, Rate.Resampler.create, if_pos hrate]
    exact ⟨_, rfl, rfl, rfl, rfl⟩

theorem aborted_of_write {b : Buffer} {bytes : Bytes} (h : (b.write bytes).2 = false) :
    b.aborted = true := by
  unfold Buffer.write at h
  split at h
  · assumption
  · split at h
    · cases h
    · dsimp only at h
      split at h <;> cases h

theorem aborted_meanwhile (m : Moment) (h : w.buffer.aborted = true) :
    (w.meanwhile aborts m).buffer.aborted = true := by
  rw [Work.meanwhile]
  split
  · rfl
  · exact h

/-- The verdict after a write: only a full or aborted buffer ends the work. -/
theorem Plain.verdict (h : Plain f start capacity bytes w) (aborts : Moment → Bool)
    (c : Rate.Converted) (m : Moment) :
    let w' := (w.write c).1.meanwhile aborts m
    let v := if (w.write c).2 && !w'.buffer.isFull then Media.Verdict.more else .enough
    Plain f start capacity (bytes ++ c.bytes.toList) w' ∧
      (v = .more ∨ v = .enough ∧ (w'.buffer.aborted = false → w'.buffer.isFull)) := by
  intro w' v
  refine ⟨(h.write c).meanwhile aborts m, ?_⟩
  cases hwrite : (w.write c).2 with
  | false =>
    have haborted : w'.buffer.aborted = true := by
      refine aborted_meanwhile m ?_
      have hkeep : (w.buffer.apply (.write c.bytes)).aborted = w.buffer.aborted :=
        Buffer.aborted_apply rfl
      exact hkeep.trans (aborted_of_write hwrite)
    refine .inr ⟨by simp [v, hwrite], fun h' => ?_⟩
    rw [haborted] at h'
    cases h'
  | true =>
    cases hfull : w'.buffer.isFull with
    | false => exact .inl (by simp [v, hwrite, hfull])
    | true => exact .inr ⟨by simp [v, hwrite, hfull], fun _ => rfl⟩

/-- A frame is converted and written. Only a full or aborted buffer ends the work. -/
theorem Plain.receive (h : Plain f start capacity bytes w) (aborts : Moment → Bool) (o : Options)
    (packet : Nat) {x : Media.Frame} (hrate : x.layout.rate = f.rate) (hframes : x.frames ≠ 0) :
    ∃ w' v, w.receive aborts o packet x = (w', v) ∧
      Plain f start capacity
        (bytes ++ encoded f (Rate.rows x.layout.channels x.samples.toList)) w' ∧
      (v = .more ∨ v = .enough ∧ (w'.buffer.aborted = false → w'.buffer.isFull)) := by
  obtain ⟨hadapt, hlayout⟩ := h.adapt x.layout
  obtain ⟨r, hr, hsource, hnone, htarget⟩ := hadapt.converterFor (o := o) hlayout hrate
  obtain ⟨scratch, frames, hconvert⟩ := Rate.Resampler.convert_none hnone hsource.symm hframes
  have hbytes : (r.target.encodeAll (Rate.mapChannels r.source.channels r.target.channels
      x.samples)).toList = encoded f (Rate.rows x.layout.channels x.samples.toList) := by
    rw [Format.toList_encodeAll, Rate.toList_mapChannels, List.flatMap_assoc, htarget, hsource]
    rfl
  unfold Work.receive
  dsimp only
  rw [hr]
  simp only [hconvert]
  have hnext : Plain f start capacity bytes { w.adapt x.layout with
      converter := some { r with scratch, generation := r.generation + 1 } } := by
    refine ⟨hadapt.format, ?_, hadapt.buffer⟩
    rintro _ ⟨⟩
    exact ⟨hnone, htarget⟩
  obtain ⟨hplain, hverdict⟩ := (hnext.meanwhile aborts (.writing packet)).verdict
    aborts ⟨_, frames, r.generation + 1⟩ (.checking packet)
  rw [hbytes] at hplain
  exact ⟨_, _, rfl, hplain, hverdict⟩

theorem Plain.endInput (h : Plain f start capacity bytes w)
    (ha : w.buffer.endInput.aborted = false) :
    w.buffer.endInput = (stored f start capacity bytes).endInput := by
  have hkeep : (w.buffer.apply .endInput).aborted = w.buffer.aborted := Buffer.aborted_apply rfl
  rw [h.buffer (hkeep.symm.trans ha)]

/-- The end of the work: unless it is aborted, the end of the input is declared. -/
theorem Plain.finish (h : Plain f start capacity bytes w) (outcome : Media.Outcome)
    (ha : (w.finish aborts outcome).buffer.aborted = false) :
    (w.finish aborts outcome).buffer = (stored f start capacity bytes).endInput := by
  unfold Work.finish at ha ⊢
  dsimp only at ha ⊢
  split at ha
  · next haborted =>
    rw [haborted] at ha
    cases ha
  · next haborted =>
    rw [if_neg haborted]
    have hlast := h.meanwhile aborts .finishing
    cases outcome with
    | endOfStream => exact ((hlast.meanwhile aborts .flushing).flush.meanwhile ..).endInput ha
    | cancelled => exact (hlast.meanwhile ..).endInput ha

/-! ### The packets -/

/-- The bytes that the packets of a stream come to. -/
def track (f : Format) (stream : Nat) (packets : List Media.Packet) : List UInt8 :=
  encoded f ((Session.sounding stream packets).flatMap fun x =>
    Rate.rows x.layout.channels x.samples.toList)

theorem track_nil (stream : Nat) : track f stream [] = [] := rfl

theorem track_frame {stream : Nat} {p : Media.Packet} {packets : List Media.Packet}
    {x : Media.Frame} (hstream : p.stream = stream) (hp : p.decoded = .frame x)
    (hframes : x.frames ≠ 0) :
    track f stream (p :: packets) =
      encoded f (Rate.rows x.layout.channels x.samples.toList) ++ track f stream packets := by
  rw [track, Session.sounding_frame hstream hp hframes, List.flatMap_cons, encoded,
    List.flatMap_append]
  rfl

/-- What comes when the buffer is full is lost. -/
theorem Plain.append_of_full (h : Plain f start capacity bytes w)
    (hfull : w.buffer.aborted = false → w.buffer.isFull) (more : List UInt8) :
    Plain f start capacity (bytes ++ more) w := by
  refine ⟨h.format, h.target, fun ha => ?_⟩
  have hcapacity : capacity ≤ bytes.length := by
    have := hfull ha
    rw [h.buffer ha] at this
    simp [stored, Buffer.isFull, Buffer.isSized, Buffer.capacity, Buffer.writePos] at this
    omega
  have hlen : min capacity (bytes.length + more.length) = min capacity bytes.length := by omega
  rw [h.buffer ha]
  simp only [stored, List.take_append_of_le_length hcapacity, List.length_append, hlen]

/-- Going through packets without a fault, all of them are written as far as they fit; there is no
fault if their input ends well. -/
theorem Plain.go (aborts : Moment → Bool) (o : Options) (packets : List Media.Packet)
    (taken : Nat) {s : Session} {bytes : List UInt8} {w : Work}
    (h : Plain f start capacity bytes w) (hs : s.cancelled = false)
    (hrate : ∀ x ∈ Session.sounding s.stream.id packets, x.layout.rate = f.rate) :
    let r := s.go (fun k => Work.meanwhile aborts (.reading k)) (Work.receive aborts o) packets
      taken w
    (∀ outcome, r.2.2 = .ok outcome →
      Plain f start capacity (bytes ++ track f s.stream.id packets) r.2.1) ∧
      (Session.endsWell s.stream.id s.ending packets → ∃ outcome, r.2.2 = .ok outcome) := by
  induction packets generalizing taken bytes w with
  | nil =>
    simp only [Session.go, hs, Bool.false_eq_true, if_false, Session.endsWell]
    refine ⟨fun outcome _ => ?_, fun hwell => ?_⟩
    · rw [track_nil, List.append_nil]
      exact h.meanwhile aborts (.reading taken)
    · unfold Session.finish
      split
      · exact ⟨_, rfl⟩
      · exact ⟨_, rfl⟩
      · next hbad => exact absurd hbad hwell
  | cons p packets ih =>
    have hread := h.meanwhile aborts (.reading taken)
    by_cases hpass : Session.PassedOver s.stream.id p
    · rw [track, Session.sounding_passedOver hpass] at *
      rw [Session.go_passedOver hs hpass, Session.endsWell_passedOver hpass]
      exact ih (taken + 1) hread hrate
    · obtain ⟨hstream, hsounds⟩ := not_or.1 hpass
      replace hstream := Decidable.of_not_not hstream
      cases hp : p.decoded with
      | endOfInput =>
        have hnone : Session.sounding s.stream.id (p :: packets) = [] := by
          simp [Session.sounding, hstream, hp]
        rw [Session.go_endOfInput hs hstream hp, track, hnone]
        refine ⟨fun _ _ => ?_, fun _ => ⟨_, rfl⟩⟩
        rw [List.flatMap_nil, encoded, List.flatMap_nil, List.append_nil]
        exact hread
      | malformed =>
        rw [Session.go_malformed hs hstream hp]
        refine ⟨fun _ hok => ?_, fun hwell => ?_⟩
        · cases hok
        · simp [Session.endsWell, hstream, hp] at hwell
      | frame x =>
        have hframes : x.frames ≠ 0 := fun h0 => hsounds ⟨x, hp, h0⟩
        rw [Session.sounding_frame hstream hp hframes] at hrate
        obtain ⟨hx, hrest⟩ := List.forall_mem_cons.1 hrate
        obtain ⟨w', v, hreceive, hw', hv⟩ := hread.receive aborts o taken hx hframes
        rw [track_frame hstream hp hframes, ← List.append_assoc,
          Session.endsWell_frame hstream hp]
        rcases hv with rfl | ⟨rfl, hfull⟩
        · rw [Session.go_more hs hstream hp hframes hreceive]
          exact ih (taken + 1) hw' hrest
        · rw [Session.go_enough hs hstream hp hframes hreceive]
          exact ⟨fun _ _ => hw'.append_of_full hfull _, fun _ => ⟨_, rfl⟩⟩

/-- A buffer that is given its capacity has no bytes yet. -/
theorem stored_nil (f : Format) (start capacity : Nat) :
    stored f start capacity [] =
      { Buffer.empty f with
        capacity? := some capacity
        limit := capacity
        readPos := min start capacity
        pendingSeek := min start capacity } := by
  simp [stored, Buffer.empty]

/-- The work begins with a buffer that has got its capacity. -/
theorem plain_of_size (aborts : Moment → Bool) (f : Format) (start : Nat) (time : Span) :
    let w := ({ buffer := { Buffer.empty f with pendingSeek := start } } : Work).meanwhile aborts
      .sizing
    ∃ b, w.buffer.size time = .ok b ∧
      Plain f start (f.bytesOfSpan time) [] { w with buffer := b } := by
  unfold Work.meanwhile
  split
  · exact ⟨_, rfl, rfl, nofun, nofun⟩
  · exact ⟨_, rfl, rfl, nofun, fun _ => (stored_nil ..).symm⟩

/-- What a decoding without a fault leaves: all packets are in the buffer, as far as they fit. -/
theorem fill_eq (aborts : Moment → Bool) (start : Nat) {s : Session} {time : Span}
    (htime : playingTime o s.stream = some time)
    (hs : s.cancelled = false)
    (hrate : ∀ x ∈ Session.sounding s.stream.id s.packets, x.layout.rate = f.rate) :
    let r := fill aborts o s { Buffer.empty f with pendingSeek := start }
    (r.2 = none → r.1.aborted = false →
      r.1 = (stored f start (f.bytesOfSpan time) (encoded f s.audio)).endInput) ∧
      (Session.endsWell s.stream.id s.ending s.packets → r.2 = none) := by
  obtain ⟨b, hsize, hplain⟩ := plain_of_size aborts f start time
  obtain ⟨hdone, hwell⟩ := hplain.go aborts o s.packets 0 hs hrate
  rw [List.nil_append] at hdone
  unfold fill
  rw [htime]
  dsimp only
  rw [hsize]
  unfold Session.run
  dsimp only
  generalize s.go _ _ _ _ _ = r at hdone hwell ⊢
  cases hr : r.2.2 with
  | error e =>
    refine ⟨fun hok _ => ?_, fun h => ?_⟩
    · cases hok
    · obtain ⟨outcome, hok⟩ := hwell h
      rw [hr] at hok
      cases hok
  | ok outcome => exact ⟨fun _ ha => (hdone outcome hr).finish outcome ha, fun _ => rfl⟩

theorem playingTime_eq_some {stream : Media.Stream} {time : Span} :
    playingTime o stream = some time ↔
      ∃ total, (stream.duration <|> o.hint) = some total ∧
        o.limit.elim total (min total) = time := by
  rw [playingTime, Option.map_eq_some_iff]
  cases o.limit <;> rfl

/-- The buffer of a decoding that was neither aborted nor at fault. -/
theorem buffer_of_fill {s : Session} {b' : Buffer} (hs : s.cancelled = false)
    (hrate : ∀ x ∈ Session.sounding s.stream.id s.packets, x.layout.rate = f.rate)
    (h : fill aborts o s { Buffer.empty f with pendingSeek := start } = (b', none))
    (ha : b'.aborted = false) :
    ∃ total, (s.stream.duration <|> o.hint) = some total ∧
      b' = (stored f start (f.bytesOfSpan (o.limit.elim total (min total)))
        (encoded f s.audio)).endInput := by
  cases htime : playingTime o s.stream with
  | none =>
    unfold fill at h
    rw [htime] at h
    cases h
  | some time =>
    obtain ⟨total, htotal, hlimit⟩ := playingTime_eq_some.1 htime
    obtain ⟨hstored, -⟩ := fill_eq aborts start htime hs hrate
    rw [h] at hstored
    exact ⟨total, htotal, hlimit.symm ▸ hstored rfl ha⟩

/-- The limit is lowered to what was written. -/
theorem stored_endInput (f : Format) (start capacity : Nat) (bytes : List UInt8) :
    let b := (stored f start capacity bytes).endInput
    b.capacity? = some capacity ∧ b.data.toList = bytes.take capacity ∧ b.limit = b.writePos ∧
      b.writePos = min capacity bytes.length := by
  have hpos : (stored f start capacity bytes).endInput.writePos = min capacity bytes.length := by
    simp [stored, Buffer.endInput, Buffer.empty, Buffer.writePos]
  refine ⟨rfl, by simp [stored, Buffer.endInput, Buffer.empty], ?_, hpos⟩
  rw [hpos]
  simp [stored, Buffer.endInput, Buffer.empty, Buffer.writePos]

/-- Where the rate need not be changed, a decoding that is neither aborted nor at fault leaves the
whole track in the buffer, as much of it as fits, and nothing else; all sessions with the same audio
leave the same. It has no fault if the playing time is known and the input ends well. -/
theorem fill_stores_track (aborts : Moment → Bool) (o : Options) {s : Session} {f : Format}
    (start : Nat) (hs : s.cancelled = false)
    (hrate : ∀ x ∈ Session.sounding s.stream.id s.packets, x.layout.rate = f.rate) :
    let b := { Buffer.empty f with pendingSeek := start }
    (∀ b', fill aborts o s b = (b', none) → b'.aborted = false →
      ∃ total, (s.stream.duration <|> o.hint) = some total ∧
        b'.capacity? = some (f.bytesOfSpan (o.limit.elim total (min total))) ∧
        b'.data.toList = (encoded f s.audio).take b'.capacity ∧
        b'.limit = b'.writePos ∧ b'.writePos = min b'.capacity (encoded f s.audio).length) ∧
      (∀ aborts' (s' : Session) b' b'', s'.cancelled = false →
        (∀ x ∈ Session.sounding s'.stream.id s'.packets, x.layout.rate = f.rate) →
        s'.stream.duration = s.stream.duration → s'.audio = s.audio →
        fill aborts o s b = (b', none) → b'.aborted = false →
        fill aborts' o s' b = (b'', none) → b''.aborted = false → b' = b'') ∧
      ((s.stream.duration <|> o.hint).isSome →
        Session.endsWell s.stream.id s.ending s.packets → (fill aborts o s b).2 = none) := by
  intro b
  refine ⟨?_, ?_, ?_⟩
  · intro b' h ha
    obtain ⟨total, htotal, rfl⟩ := buffer_of_fill hs hrate h ha
    obtain ⟨hcapacity, hdata, hlimit, hpos⟩ := stored_endInput f start
      (f.bytesOfSpan (o.limit.elim total (min total))) (encoded f s.audio)
    exact ⟨total, htotal, hcapacity, hdata, hlimit, hpos⟩
  · intro aborts' s' b' b'' hs' hrate' hduration haudio h ha h' ha'
    obtain ⟨total, htotal, rfl⟩ := buffer_of_fill hs hrate h ha
    obtain ⟨total', htotal', rfl⟩ := buffer_of_fill hs' hrate' h' ha'
    rw [hduration, htotal] at htotal'
    cases htotal'
    rw [haudio]
  · intro hsome hwell
    obtain ⟨total, htotal⟩ := Option.isSome_iff_exists.1 hsome
    exact (fill_eq aborts start (playingTime_eq_some.2 ⟨total, htotal, rfl⟩) hs hrate).2 hwell

/-- A packet of a stereo stream. -/
def stereo (stream : Nat) (samples : List Float32) : Media.Packet :=
  ⟨stream, .frame ⟨⟨1000, 3⟩, samples.length / 2, samples.toArray⟩, 0⟩

/-- Packets around a stereo stream that is announced with five frames. -/
def announced (packets : List Media.Packet) : Session where
  stream := { id := 1, codec := .pcmS16le, rate := some 1000, channels := some 2, frames := some 5 }
  packets := packets
  ending := .reset

theorem fill_stores_track_in_pieces :
    let f : Format := ⟨1000, 1, .signed16, .little⟩
    let s := announced [stereo 0 [1, 1], stereo 1 [1, 0, 0, 1], stereo 1 [], stereo 1 [1, 1]]
    let s' := announced [stereo 1 [1, 0, 0, 1, 1, 1]]
    let b := { Buffer.empty f with pendingSeek := 4 }
    let b' := (fill (fun _ => false) {} s b).1
    let b'' := (fill (fun _ => false) {} s' b).1
    (s.cancelled = false ∧ b'.aborted = false ∧ b''.aborted = false) ∧
      fill (fun _ => false) {} s b = (b', none) ∧
      b'.data.toList = (encoded f s.audio).take b'.capacity ∧ b'.limit = 6 ∧ b'.writePos = 6 ∧
      b' = b'' := by
  intro f s s' b b' b''
  have hrate : ∀ x ∈ Session.sounding s.stream.id s.packets, x.layout.rate = f.rate := by
    simp [s, f, announced, stereo, Session.sounding]
  have hrate' : ∀ x ∈ Session.sounding s'.stream.id s'.packets, x.layout.rate = f.rate := by
    simp [s', f, announced, stereo, Session.sounding]
  have ha : b'.aborted = false := by decide +kernel
  have ha' : b''.aborted = false := by decide +kernel
  have hsome : (s.stream.duration <|> ({} : Options).hint).isSome := by decide
  have hwell : Session.endsWell s.stream.id s.ending s.packets := by
    simp [s, announced, stereo, Session.endsWell]
  have hwell' : Session.endsWell s'.stream.id s'.ending s'.packets := by
    simp [s', announced, stereo, Session.endsWell]
  obtain ⟨hstores, hsame, hgood⟩ := fill_stores_track (fun _ => false) {} 4 (s := s) rfl hrate
  obtain ⟨-, -, hgood'⟩ := fill_stores_track (fun _ => false) {} 4 (s := s') rfl hrate'
  have h : fill (fun _ => false) {} s b = (b', none) :=
    (Prod.eta _).symm.trans (congrArg (Prod.mk b') (hgood hsome hwell))
  have h' : fill (fun _ => false) {} s' b = (b'', none) :=
    (Prod.eta _).symm.trans (congrArg (Prod.mk b'') (hgood' hsome hwell'))
  obtain ⟨total, htotal, hcapacity, hdata, hlimit, hpos⟩ := hstores b' h ha
  have hsix : b'.writePos = 6 := by
    cases htotal
    rw [hpos, Buffer.capacity, hcapacity]
    decide +kernel
  have haudio : s'.audio = s.audio := by decide +kernel
  exact ⟨⟨rfl, ha, ha'⟩, h, hdata, hlimit.trans hsix, hsix,
    hsame _ s' b' b'' rfl hrate' rfl haudio h ha h' ha'⟩

end Jukebox.Decode
