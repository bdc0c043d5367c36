import Jukebox.Proofs.Chain.Reading
import Jukebox.Proofs.Playback.Run

/-!
One callback of the card. It pulls its frames in pieces, but the pieces put together are what a
single read takes, so their size makes no difference: the card gets the next frames of the chain, as
many as it asked for or as there are, and silence for the rest. Only when frames are missing is
anything else told: the end, where the chain is finished, or an underrun.
-/

namespace Jukebox.Renderer

variable {c : Chain} {f : Format} {frame chunk need : Nat}

/-! ### Pulling -/

/-- Frames that are pulled in pieces are those that a single read takes. -/
theorem pull_eq_read (hframe : c.buffer.format.bytesPerFrame = frame) (hf : 0 < frame)
    (hchunk : 0 < chunk) : pull chunk c need = c.read (need * frame) := by
  induction need using Nat.strongRecOn generalizing c with
  | ind need ih =>
    unfold pull
    by_cases hneed : need = 0
    · rw [if_pos (.inl hneed), hneed, Chain.read_frames hframe hf]
      simp [Chain.taken, Chain.skip, Chain.ahead, Bytes.slice]
    · rw [if_neg (by omega), hframe]
      dsimp only
      have hpos : 0 < min need chunk := by omega
      have hle : min need chunk ≤ need := Nat.min_le_left ..
      generalize min need chunk = want at hpos hle
      rw [Chain.read_frames hframe hf want]
      dsimp only
      rw [Chain.size_ahead_taken, Nat.mul_div_cancel _ hf]
      split
      · -- a short piece is all there is
        next hshort =>
        have hall : c.taken frame want = c.taken frame need := by
          unfold Chain.taken at hshort ⊢
          omega
        rw [hall, Chain.read_frames hframe hf]
      · next hfull =>
        have hthere : want ≤ c.available / frame := by
          unfold Chain.taken at hfull
          omega
        have hwant : c.taken frame want = want := Nat.min_eq_left hthere
        have hrest := Chain.taken_skip hthere (need - want)
        rw [Nat.add_sub_cancel' hle] at hrest
        have hnext : (c.skip (want * frame)).buffer.format.bytesPerFrame = frame := hframe
        have hmore := ih (need - want) (by omega) hnext
        rw [Chain.read_frames hnext hf] at hmore
        rw [hwant, hmore, Chain.read_frames hframe hf, ← hrest, Nat.add_mul]
        simp only [Chain.skip_skip, Chain.ahead_append]

theorem chunk_pos (r : Renderer) (hf : 0 < f.bytesPerFrame) : 0 < r.chunk f := by
  unfold chunk
  rw [if_neg (Nat.ne_of_gt hf)]
  omega

theorem size_decodeAll_frames {bytes : Bytes} {n : Nat} (h : bytes.size = n * f.bytesPerFrame) :
    (f.decodeAll bytes).size = n * f.channels := by
  rw [Format.size_decodeAll, h, Format.bytesPerFrame, Nat.mul_left_comm,
    Nat.mul_div_cancel_left _ f.bytesPerSample_pos]

/-- What a callback works with is the result of a single read. -/
theorem render_eq_deliver (r : Renderer) (volume : Float32) (p : Playback) (card : Array Nat)
    (hch : 1 ≤ p.chain.buffer.format.channels) : r.render volume p card =
      r.deliver volume p card (p.chain.read
        (card.size / p.chain.buffer.format.channels * p.chain.buffer.format.bytesPerFrame)) := by
  have hf := Format.bytesPerFrame_pos hch
  have hpull : pull (r.chunk p.chain.buffer.format) p.chain
      (card.size / max p.chain.buffer.format.channels 1) = _ := pull_eq_read rfl hf (r.chunk_pos hf)
  rw [Nat.max_eq_left hch] at hpull
  rw [← hpull, ← callback_nil, callback, pullAmid, Nat.max_eq_left hch]

/-- What a callback leaves behind. -/
theorem deliver_eq_record (r : Renderer) (volume : Float32) (p : Playback) (card : Array Nat)
    (chain : Chain) (bytes : Bytes) {frames filled : Nat}
    (hframes : card.size / max p.chain.buffer.format.channels 1 = frames)
    (hfilled : bytes.size / p.chain.buffer.format.bytesPerFrame = filled) :
    let samples := (p.chain.buffer.format.decodeAll bytes).map fun x => r.kind.bits (x * volume)
    let told := if filled < frames ∧ chain.isFinished then p.idle.fire else (p.idle, [])
    r.deliver volume p card (chain, bytes) =
      { playback :=
          { chain
            counters :=
              { playedFrames := p.counters.playedFrames + filled
                underrunFrames :=
                  p.counters.underrunFrames + (if chain.isFinished then 0 else frames - filled)
                underrunEvents := p.counters.underrunEvents +
                  (if filled < frames ∧ ¬ chain.isFinished then 1 else 0) }
            idle := told.1 }
        card := samples ++
          if filled < frames then Array.replicate (card.size - samples.size) r.kind.silence
          else card.extract samples.size card.size
        posted := told.2 } := by
  intro samples told
  simp only [told, samples, deliver, hframes, hfilled]
  by_cases hshort : filled < frames
  · cases hover : chain.isFinished <;> simp [hshort]
  · have hnone : frames - filled = 0 := Nat.sub_eq_zero_of_le (Nat.le_of_not_lt hshort)
    simp [hshort, hnone]

/-! ### One callback -/

/-- What a callback does is what a single read gives, whatever the size of its pieces. The card gets
the frames that are taken, converted, and silence for those that are missing; the frames that are
taken are counted. Where frames are missing, the idle signal is fired if the chain is finished, and
otherwise an underrun is counted, with the missing frames. Nothing else changes. -/
theorem callback_is_one_read (r : Renderer) (volume : Float32) (p : Playback) (card : Array Nat)
    (hch : 1 ≤ p.chain.buffer.format.channels)
    (hcard : p.chain.buffer.format.channels ∣ card.size) :
    let f := p.chain.buffer.format
    let asked := card.size / f.channels
    let k := min asked (p.chain.available / f.bytesPerFrame)
    let heard := p.chain.ahead (k * f.bytesPerFrame)
    let after := p.chain.skip (k * f.bytesPerFrame)
    let out := r.render volume p card
    p.chain.read (asked * f.bytesPerFrame) = (after, heard) ∧
      (f.decodeAll heard).size = k * f.channels ∧
      out.card = ((f.decodeAll heard).map fun x => r.kind.bits (x * volume)) ++
        Array.replicate ((asked - k) * f.channels) r.kind.silence ∧
      out.playback.chain = after ∧
      out.playback.counters =
        { playedFrames := p.counters.playedFrames + k
          underrunFrames :=
            p.counters.underrunFrames + (if after.isFinished then 0 else asked - k)
          underrunEvents :=
            p.counters.underrunEvents + (if k < asked ∧ ¬ after.isFinished then 1 else 0) } ∧
      (out.playback.idle, out.posted) =
        (if k < asked ∧ after.isFinished then p.idle.fire else (p.idle, [])) ∧
      ∀ refill, Renderer.render ⟨r.kind, refill⟩ volume p card = out := by
  intro f asked k heard after out
  have hf : 0 < f.bytesPerFrame := Format.bytesPerFrame_pos hch
  have hread : p.chain.read (asked * f.bytesPerFrame) = (after, heard) :=
    Chain.read_frames rfl hf asked
  have hsize : heard.size = k * f.bytesPerFrame := p.chain.size_ahead_taken f.bytesPerFrame asked
  have hsamples : (f.decodeAll heard).size = k * f.channels := size_decodeAll_frames hsize
  have hrender : ∀ refill, Renderer.render ⟨r.kind, refill⟩ volume p card =
      r.deliver volume p card (after, heard) := by
    intro refill
    rw [render_eq_deliver _ volume p card hch, hread]
    rfl
  have hout : out = r.deliver volume p card (after, heard) := hrender r.refill
  have hle : k ≤ asked := Nat.min_le_left ..
  have hfilled : heard.size / f.bytesPerFrame = k := by rw [hsize, Nat.mul_div_cancel _ hf]
  have hasked : card.size = asked * f.channels := (Nat.div_mul_cancel hcard).symm
  have hrest : card.size - k * f.channels = (asked - k) * f.channels := by
    rw [hasked, Nat.sub_mul]
  have hmax : card.size / max f.channels 1 = asked := by rw [Nat.max_eq_left hch]
  have hrecord := deliver_eq_record r volume p card after heard hmax hfilled
  refine ⟨hread, hsamples, ?_, ?_, ?_, ?_, fun refill => (hrender refill).trans hout.symm⟩ <;>
    rw [hout, hrecord]
  dsimp only
  rw [Array.size_map, hsamples]
  split
  · rw [hrest]
  · next hfull =>
    -- nothing is left of the card
    have hk : k = asked := Nat.le_antisymm hle (Nat.le_of_not_lt hfull)
    rw [hk, Nat.sub_self, Nat.zero_mul, ← hasked, Array.replicate_zero,
      Array.extract_empty_of_stop_le_start (Nat.le_refl _)]

/-- A chain that fades out after two of its three frames. -/
def fadingPlayback : Playback where
  chain :=
    { fade := some ⟨0, 4⟩
      buffer := (Buffer.empty ⟨1000, 1, .signed16, .little⟩).run
        [.size ⟨3000000⟩, .write #[1, 2, 3, 4, 5, 6]] }
  idle := { session := 7 }

/-- Pieces of one frame, and a card that asks for four. -/
theorem callback_is_one_read_of_fading :
    let r : Renderer := ⟨.i16, 0⟩
    let f := fadingPlayback.chain.buffer.format
    let out := r.render 0.5 fadingPlayback #[0, 0, 0, 0]
    (1 ≤ f.channels ∧ f.channels ∣ 4) ∧
      out.card = ((f.decodeAll #[1, 2, 3, 4]).map fun x => r.kind.bits (x * 0.5)) ++ #[0, 0] ∧
      out.playback.chain.buffer.readPos = 4 ∧ out.playback.counters = ⟨2, 0, 0⟩ ∧
      out.posted = [7] := by
  intro r f out
  have hch : 1 ≤ f.channels ∧ f.channels ∣ 4 := by decide
  obtain ⟨-, -, hcard, hchain, hcounters, hidle, -⟩ :=
    callback_is_one_read r 0.5 fadingPlayback #[0, 0, 0, 0] hch.1 hch.2
  refine ⟨hch, hcard, ?_, ?_, ?_⟩
  · rw [show out.playback.chain = _ from hchain]
    decide
  · rw [show out.playback.counters = _ from hcounters]
    decide
  · exact congrArg Prod.snd hidle

end Jukebox.Renderer
