import Jukebox.Proofs.Playback.Stock
import Jukebox.Render
import Mathlib.Algebra.Order.Ring.Nat

/-!
A track from its first callback to its last. Callbacks of any length take turns with the producer,
which can also act in the middle of one: before each read, and between the last read and the decision
whether the track is over. Each callback is given a piece of the audio, and the pieces put together
are its beginning: nothing is lost, repeated or reordered. All frames that were asked for are counted
once, as played or as missing, or are silence after the end. The idle signal is posted at most once,
at the end, and the first callback that asks for more than there is left finds the end.
-/

namespace Jukebox

/-! ### Samples -/

namespace Bytes

variable {a b : Bytes} {start count : Nat}

theorem getD_append_left (h : start < a.size) : (a ++ b).getD start 0 = a.getD start 0 := by
  simp [Array.getD_eq_getD_getElem?, Array.getElem?_append_left h]

theorem getD_append_right (start : Nat) : (a ++ b).getD (a.size + start) 0 = b.getD start 0 := by
  simp [Array.getD_eq_getD_getElem?, Array.getElem?_append_right]

theorem read_append_left (order : ByteOrder) (h : start + count ≤ a.size) :
    order.read (a ++ b) start count = order.read a start count := by
  cases order with
  | little =>
    show (a ++ b).little start count = a.little start count
    induction count generalizing start with
    | zero => rfl
    | succ count ih => rw [little, little, getD_append_left (by omega), ih (by omega)]
  | big =>
    show (a ++ b).big start count = a.big start count
    induction count with
    | zero => rfl
    | succ count ih => rw [big, big, getD_append_left (by omega), ih (by omega)]

theorem read_append_right (order : ByteOrder) (start count : Nat) :
    order.read (a ++ b) (a.size + start) count = order.read b start count := by
  cases order with
  | little =>
    show (a ++ b).little (a.size + start) count = b.little start count
    induction count generalizing start with
    | zero => rfl
    | succ count ih => rw [little, little, getD_append_right, Nat.add_assoc, ih]
  | big =>
    show (a ++ b).big (a.size + start) count = b.big start count
    induction count with
    | zero => rfl
    | succ count ih => rw [big, big, Nat.add_assoc, getD_append_right, ih]

end Bytes

namespace Format

variable {f : Format} {a b : Bytes} {start : Nat}

theorem decodeAt_append_left (h : start + f.bytesPerSample ≤ a.size) :
    f.decodeAt (a ++ b) start = f.decodeAt a start := by
  unfold decodeAt
  rw [bytesPerSample] at h
  cases he : f.encoding <;> rw [he, Encoding.size] at h <;> dsimp only <;>
    rw [Bytes.read_append_left _ h]

theorem decodeAt_append_right (start : Nat) :
    f.decodeAt (a ++ b) (a.size + start) = f.decodeAt b start := by
  unfold decodeAt
  cases f.encoding <;> dsimp only <;> rw [Bytes.read_append_right]

theorem size_decodeAll (a : Bytes) : (f.decodeAll a).size = a.size / f.bytesPerSample := by
  simp [decodeAll]

/-- Samples can be read piece by piece, wherever the pieces are cut between two of them. -/
theorem decodeAll_append (h : f.bytesPerSample ∣ a.size) :
    f.decodeAll (a ++ b) = f.decodeAll a ++ f.decodeAll b := by
  have hpos := f.bytesPerSample_pos
  obtain ⟨k, hk⟩ := h
  have hleft : a.size / f.bytesPerSample = k := by rw [hk, Nat.mul_div_cancel_left k hpos]
  have hsize : (a ++ b).size / f.bytesPerSample = k + b.size / f.bytesPerSample := by
    rw [Array.size_append, hk, Nat.mul_add_div hpos]
  rw [← Array.toList_inj]
  simp only [decodeAll, hsize, hleft, Array.toList_map, Array.toList_range, Array.toList_append,
    List.range_add, List.map_append, List.map_map]
  congr 1
  · refine List.map_congr_left fun i hi => decodeAt_append_left ?_
    rw [hk, ← Nat.succ_mul, Nat.mul_comm]
    exact Nat.mul_le_mul_left _ (List.mem_range.1 hi)
  · refine List.map_congr_left fun i _ => ?_
    have hstart : (k + i) * f.bytesPerSample = a.size + i * f.bytesPerSample := by
      rw [Nat.add_mul, hk, Nat.mul_comm k]
    simp only [Function.comp_apply, hstart, decodeAt_append_right]

end Format

/-! ### One callback -/

namespace Chain

/-- The producer has done these things. -/
def supply (c : Chain) (ss : List Supply) : Chain := { c with buffer := c.buffer.supply ss }

variable {f : Format} {capacity need chunk : Nat} {stock more more' l l' : List UInt8}
  {c c' c'' : Chain} {ss : List Supply}

/-- A chain without a fade is given more, and these bytes are read from it. -/
structure Goes (f : Format) (capacity : Nat) (stock more : List UInt8) (c : Chain) (l : List UInt8)
    (c' : Chain) : Prop where
  effects : c'.toEffects = c.toEffects
  buffer : c.buffer.Goes f capacity stock more l c'.buffer

theorem Goes.trans (h : Goes f capacity stock more c l c')
    (h' : Goes f capacity (stock ++ more) more' c' l' c'') :
    Goes f capacity stock (more ++ more') c (l ++ l') c'' :=
  ⟨h'.effects.trans h.effects, h.buffer.trans h'.buffer⟩

theorem goes_supply (h : c.buffer.Stocked f capacity stock) (hss : GivesFrames f ss) :
    Goes f capacity stock (given ss) c [] (c.supply ss) := ⟨rfl, h.supply hss⟩

end Chain

namespace Renderer

/-- Pulls frames like `pull`. The producer does the first of these lists of things before the first
read, the second before the second one, and what is left over after the last. -/
def pullAmid (chunk : Nat) : List (List Supply) → Chain → Nat → Chain × Bytes
  | [], c, need => pull chunk c need
  | ss :: amid, c, need =>
    let c := c.supply ss
    if need = 0 ∨ chunk = 0 then (c.supply amid.flatten, #[])
    else
      let want := min need chunk
      let frame := c.buffer.format.bytesPerFrame
      let (c', bytes) := c.read (want * frame)
      if bytes.size / frame < want then (c'.supply amid.flatten, bytes)
      else
        let (c'', more) := pullAmid chunk amid c' (need - want)
        (c'', bytes ++ more)

/-- What has been pulled from a chain: whole frames, no more than were needed; and all that were
needed and are left before the limit, if all of those are there. -/
structure Pulled (f : Format) (capacity : Nat) (stock more : List UInt8) (need : Nat) (c : Chain)
    (r : Chain × Bytes) : Prop where
  goes : c.Goes f capacity stock more r.2.toList r.1
  whole : ∃ n, n ≤ need ∧ r.2.size = n * f.bytesPerFrame
  all : c.buffer.IsSupplied → r.2.size =
    min need ((c.buffer.limit - c.buffer.readPos) / f.bytesPerFrame) * f.bytesPerFrame

namespace Pulled

variable {f : Format} {capacity need want chunk : Nat} {stock more : List UInt8}
  {c : Chain} {r : Chain × Bytes} {ss : List Supply}

theorem nothing (h : c.buffer.Stocked f capacity stock) :
    Pulled f capacity stock [] 0 c (c, #[]) :=
  ⟨⟨rfl, h.goes⟩, ⟨0, Nat.le_refl _, (Nat.zero_mul _).symm⟩, fun _ => by simp⟩

/-- The producer acts after the last read. -/
theorem supply (h : Pulled f capacity stock more need c r) (hss : GivesFrames f ss) :
    Pulled f capacity stock (more ++ given ss) need c (r.1.supply ss, r.2) := by
  have hgoes := h.goes.trans (Chain.goes_supply h.goes.buffer.stocked hss)
  rw [List.append_nil] at hgoes
  exact ⟨hgoes, h.whole, h.all⟩

/-- The producer acts before the first read. -/
theorem of_supply (hc : c.buffer.Stocked f capacity stock) (hss : GivesFrames f ss)
    (h : Pulled f capacity (stock ++ given ss) more need (c.supply ss) r) :
    Pulled f capacity stock (given ss ++ more) need c r := by
  have hgoes := Chain.goes_supply hc hss
  refine ⟨hgoes.trans h.goes, h.whole, fun hs => ?_⟩
  obtain ⟨hlimit, hs'⟩ := hgoes.buffer.settled hs
  rw [h.all hs', hlimit, hgoes.buffer.readPos]
  rfl

theorem chain_read (hfade : c.fade = none) (room : Nat) : c.read room =
    ({ c with buffer := (c.buffer.read room).1 }, (c.buffer.read room).2) := by
  simp [Chain.read, Chain.room, hfade]

/-- A read that comes back short is the last one. -/
theorem short (hc : c.buffer.Stocked f capacity stock) (hfade : c.fade = none)
    (hf : 0 < f.bytesPerFrame) (hwant : want ≤ need)
    (hshort : (c.read (want * f.bytesPerFrame)).2.size / f.bytesPerFrame < want) :
    Pulled f capacity stock [] need c (c.read (want * f.bytesPerFrame)) := by
  obtain ⟨hgoes, hsize⟩ := hc.read hf want
  rw [chain_read hfade] at hshort ⊢
  dsimp only at hshort ⊢
  rw [hsize, Nat.mul_div_cancel _ hf] at hshort
  refine ⟨⟨rfl, hgoes⟩, ⟨_, Nat.le_trans (Nat.min_le_left ..) hwant, hsize⟩, fun hs => ?_⟩
  rw [Nat.min_eq_left hs] at hsize hshort
  rw [hsize]
  congr 1
  omega

/-- A read that is not short is followed by others. -/
theorem step (hc : c.buffer.Stocked f capacity stock) (hfade : c.fade = none)
    (hf : 0 < f.bytesPerFrame) (hwant : want ≤ need)
    (hfull : ¬ (c.read (want * f.bytesPerFrame)).2.size / f.bytesPerFrame < want)
    (h : (c.read (want * f.bytesPerFrame)).1.buffer.Stocked f capacity stock →
      Pulled f capacity stock more (need - want) (c.read (want * f.bytesPerFrame)).1 r) :
    Pulled f capacity stock more need c (r.1, (c.read (want * f.bytesPerFrame)).2 ++ r.2) := by
  obtain ⟨hgoes, hsize⟩ := hc.read hf want
  have hread : c.Goes f capacity stock [] (c.read (want * f.bytesPerFrame)).2.toList
      (c.read (want * f.bytesPerFrame)).1 := by
    rw [chain_read hfade]
    exact ⟨rfl, hgoes⟩
  have hstocked := hread.buffer.stocked
  have hsize' : (c.read (want * f.bytesPerFrame)).2.size = want * f.bytesPerFrame := by
    rw [chain_read hfade] at hfull ⊢
    dsimp only at hfull ⊢
    rw [hsize, Nat.mul_div_cancel _ hf] at hfull
    rw [hsize]
    congr 1
    omega
  rw [List.append_nil] at hstocked
  have hrest := h hstocked
  obtain ⟨n, hn, hmore⟩ := hrest.whole
  refine ⟨?_, ⟨want + n, by omega, ?_⟩, fun hs => ?_⟩
  · have hboth := hrest.goes
    rw [← List.append_nil stock] at hboth
    rw [Array.toList_append]
    exact hread.trans hboth
  · rw [Array.size_append, hsize', hmore, Nat.add_mul]
  · obtain ⟨hlimit, hs'⟩ := hread.buffer.settled hs
    have hreadPos := hread.buffer.readPos
    rw [Array.length_toList, hsize'] at hreadPos
    have hthere : want ≤ (c.buffer.limit - c.buffer.readPos) / f.bytesPerFrame := by
      rw [Nat.le_div_iff_mul_le hf]
      have hbehind := hstocked.behind.1
      omega
    rw [Array.size_append, hsize', hrest.all hs', hlimit, hreadPos, ← Nat.add_mul, Nat.sub_add_eq,
      Nat.mul_comm want, Nat.sub_mul_div]
    congr 1
    omega

theorem of_pull (hc : c.buffer.Stocked f capacity stock) (hfade : c.fade = none)
    (hf : 0 < f.bytesPerFrame) (hchunk : 0 < chunk) :
    Pulled f capacity stock [] need c (pull chunk c need) := by
  induction need using Nat.strongRecOn generalizing c with
  | ind need ih =>
    unfold pull
    by_cases hneed : need = 0
    · rw [if_pos (.inl hneed), hneed]
      exact .nothing hc
    · have hwant : min need chunk ≤ need := Nat.min_le_left ..
      rw [if_neg (by omega), hc.format]
      dsimp only
      split
      · next hshort => exact .short hc hfade hf hwant hshort
      · next hfull =>
        exact .step hc hfade hf hwant hfull fun hnext => ih _ (by omega) hnext hfade

theorem of_pullAmid {amid : List (List Supply)} (hc : c.buffer.Stocked f capacity stock)
    (hfade : c.fade = none) (hf : 0 < f.bytesPerFrame) (hchunk : 0 < chunk)
    (hamid : GivesFrames f amid.flatten) :
    Pulled f capacity stock (given amid.flatten) need c (pullAmid chunk amid c need) := by
  induction amid generalizing c need stock with
  | nil => exact of_pull hc hfade hf hchunk
  | cons ss amid ih =>
    obtain ⟨hss, hrest⟩ := givesFrames_append.1 hamid
    have hnext : (c.supply ss).buffer.Stocked f capacity (stock ++ given ss) :=
      (hc.supply hss).stocked
    rw [List.flatten_cons, given_append]
    refine .of_supply hc hss ?_
    unfold pullAmid
    dsimp only
    by_cases hneed : need = 0
    · rw [if_pos (.inl hneed), hneed]
      exact (nothing hnext).supply hrest
    · have hwant : min need chunk ≤ need := Nat.min_le_left ..
      rw [if_neg (by omega), hnext.format]
      split
      · next hshort => exact (short hnext hfade hf hwant hshort).supply hrest
      · next hfull =>
        exact step hnext hfade hf hwant hfull fun hread => ih hread hfade hrest

end Pulled

/-- What a callback does with what has been pulled. -/
def deliver (r : Renderer) (volume : Float32) (p : Playback) (card : Array Nat)
    (pulled : Chain × Bytes) : Rendered :=
  let format := p.chain.buffer.format
  let frames := card.size / max format.channels 1
  let (chain, bytes) := pulled
  let filled := bytes.size / format.bytesPerFrame
  let samples := (format.decodeAll bytes).map fun x => r.kind.bits (x * volume)
  let counters := { p.counters with playedFrames := p.counters.playedFrames + filled }
  if filled < frames then
    let card := samples ++ Array.replicate (card.size - samples.size) r.kind.silence
    if chain.isFinished then
      let (idle, posted) := p.idle.fire
      ⟨{ chain, counters, idle }, card, posted⟩
    else
      let counters :=
        { counters with
          underrunEvents := counters.underrunEvents + 1
          underrunFrames := counters.underrunFrames + (frames - filled) }
      ⟨{ p with chain, counters }, card, []⟩
  else
    ⟨{ p with chain, counters }, samples ++ card.extract samples.size card.size, []⟩

/-- What a callback leaves behind, but for the samples. -/
theorem deliver_eq (r : Renderer) (volume : Float32) (p : Playback) (card : Array Nat)
    (chain : Chain) (bytes : Bytes) {frames filled : Nat}
    (hframes : card.size / max p.chain.buffer.format.channels 1 = frames)
    (hfilled : bytes.size / p.chain.buffer.format.bytesPerFrame = filled) :
    let out := r.deliver volume p card (chain, bytes)
    out.playback.chain = chain ∧
      out.playback.counters.playedFrames = p.counters.playedFrames + filled ∧
      out.playback.counters.underrunFrames =
        p.counters.underrunFrames + (if chain.isFinished then 0 else frames - filled) ∧
      out.playback.idle =
        { p.idle with fired := p.idle.fired || decide (filled < frames) && chain.isFinished } ∧
      out.posted =
        if p.idle.fired = false ∧ filled < frames ∧ chain.isFinished then [p.idle.session] else [] := by
  intro out
  simp only [out, deliver, hframes, hfilled]
  by_cases hshort : filled < frames
  · cases hover : chain.isFinished with
    | true =>
      cases hfired : p.idle.fired with
      | true =>
        simp [hshort, IdleSignal.fire, hfired]
        rw [← hfired]
      | false => simp [hshort, IdleSignal.fire, hfired]
    | false => simp [hshort]
  · have hnone : frames - filled = 0 := Nat.sub_eq_zero_of_le (Nat.le_of_not_lt hshort)
    simp [hshort, hnone]

end Renderer

/-- A callback that has taken place. -/
structure Callback where
  volume : Float32
  /-- The frames that the card asked for. -/
  asked : Nat
  /-- What was pulled. -/
  bytes : Bytes
  rendered : Rendered

namespace Callback

/-- The frames of it that were played. -/
def filled (f : Format) (call : Callback) : Nat := call.bytes.size / f.bytesPerFrame

/-- The frames of it that are silence after the end. -/
def silence (f : Format) (call : Callback) : Nat :=
  if call.rendered.playback.chain.isFinished then call.asked - call.filled f else 0

/-- The card has got what was pulled, whole frames of it, converted, and then silence. -/
structure Sounds (r : Renderer) (f : Format) (call : Callback) : Prop where
  whole : f.bytesPerFrame ∣ call.bytes.size
  card : call.rendered.card =
    ((f.decodeAll call.bytes).map fun x => r.kind.bits (x * call.volume)) ++
      Array.replicate ((call.asked - call.filled f) * f.channels) r.kind.silence

end Callback

/-- A callback in the middle of which the producer acts. -/
def Renderer.callback (r : Renderer) (volume : Float32) (p : Playback) (card : Array Nat)
    (amid : List (List Supply)) : Callback :=
  let format := p.chain.buffer.format
  let asked := card.size / max format.channels 1
  let pulled := pullAmid (r.chunk format) amid p.chain asked
  ⟨volume, asked, pulled.2, r.deliver volume p card pulled⟩

/-- Where the producer does not act it is the callback of the card. -/
theorem Renderer.callback_nil (r : Renderer) (volume : Float32) (p : Playback) (card : Array Nat) :
    (r.callback volume p card []).rendered = r.render volume p card := rfl

namespace Playback

/-- The producer acts, or the card calls back. -/
inductive Step where
  | supply (s : Supply)
  | callback (volume : Float32) (card : Array Nat) (amid : List (List Supply))

/-- What the producer does in a step. -/
def Step.supplies : Step → List Supply
  | .supply s => [s]
  | .callback _ _ amid => amid.flatten

/-- What the producer does in a run. -/
def supplies (steps : List Step) : List Supply := steps.flatMap Step.supplies

/-- The playback after a run, and its callbacks. -/
def play (r : Renderer) : Playback → List Step → Playback × List Callback
  | p, [] => (p, [])
  | p, .supply s :: steps => play r { p with chain := p.chain.supply [s] } steps
  | p, .callback volume card amid :: steps =>
    let call := r.callback volume p card amid
    let (p', calls) := play r call.rendered.playback steps
    (p', call :: calls)

variable {r : Renderer} {f : Format} {capacity : Nat} {stock : List UInt8} {p p' p'' : Playback}
  {calls calls' : List Callback} {volume : Float32} {card : Array Nat} {amid : List (List Supply)}
  {steps : List Step}

/-! ### Counting -/

/-- What callbacks count and post on the way from one playback to another. -/
structure Counts (f : Format) (p : Playback) (calls : List Callback) (p' : Playback) : Prop where
  session : p'.idle.session = p.idle.session
  played : p'.counters.playedFrames = p.counters.playedFrames + (calls.map (·.filled f)).sum
  asked : (calls.map (·.asked)).sum + p.counters.underrunFrames =
    (calls.map (·.filled f)).sum + p'.counters.underrunFrames + (calls.map (·.silence f)).sum
  fired : p.idle.fired = true → p'.idle.fired = true
  posted : calls.flatMap (·.rendered.posted) =
    if p.idle.fired = false ∧ p'.idle.fired = true then [p.idle.session] else []

theorem Counts.refl (f : Format) (p : Playback) : Counts f p [] p :=
  ⟨rfl, rfl, by simp, id, by cases p.idle.fired <;> rfl⟩

theorem Counts.trans (h : Counts f p calls p') (h' : Counts f p' calls' p'') :
    Counts f p (calls ++ calls') p'' := by
  have hplayed := h.played
  have hplayed' := h'.played
  have hasked := h.asked
  have hasked' := h'.asked
  refine ⟨h'.session.trans h.session, ?_, ?_, fun hf => h'.fired (h.fired hf), ?_⟩
  · rw [List.map_append, List.sum_append]
    omega
  · simp only [List.map_append, List.sum_append]
    omega
  · rw [List.flatMap_append, h.posted, h'.posted, h.session]
    have hfired := h.fired
    have hfired' := h'.fired
    cases hp : p.idle.fired <;> cases hp' : p'.idle.fired <;> cases hp'' : p''.idle.fired <;>
      simp_all

/-- A callback counts every frame that was asked for once. -/
theorem counts_deliver (r : Renderer) (volume : Float32) (chain : Chain) {bytes : Bytes}
    {asked : Nat} (hasked : card.size / max p.chain.buffer.format.channels 1 = asked)
    (hfew : bytes.size / p.chain.buffer.format.bytesPerFrame ≤ asked) :
    Counts p.chain.buffer.format p [⟨volume, asked, bytes, r.deliver volume p card (chain, bytes)⟩]
      (r.deliver volume p card (chain, bytes)).playback := by
  obtain ⟨hchain, hplayed, hmissed, hidle, hposted⟩ :=
    r.deliver_eq volume p card chain bytes hasked rfl
  refine ⟨by rw [hidle], ?_, ?_, fun hfired => by simp [hidle, hfired], ?_⟩
  · simpa [Callback.filled] using hplayed
  · simp only [List.map_cons, List.map_nil, List.sum_cons, List.sum_nil, Callback.filled,
      Callback.silence, hchain, hmissed]
    split <;> omega
  · simp only [List.flatMap_cons, List.flatMap_nil, List.append_nil, hposted, hidle]
    cases p.idle.fired <;> simp

/-! ### Playing -/

/-- A playback without a fade, of a buffer that has been given these bytes. Once the signal has been
posted everything up to the limit has been read. -/
structure Playing (f : Format) (capacity : Nat) (stock : List UInt8) (p : Playback) : Prop where
  stocked : p.chain.buffer.Stocked f capacity stock
  fade : p.chain.fade = none
  spent : p.idle.fired = true → p.chain.buffer.IsSupplied ∧
    p.chain.buffer.readPos = p.chain.buffer.limit

namespace Playing

/-- A stream that is finished has been read up to its limit. -/
theorem spent_of_isFinished {c : Chain} (hc : c.buffer.Stocked f capacity stock)
    (hfade : c.fade = none) (h : c.isFinished = true) :
    c.buffer.IsSupplied ∧ c.buffer.readPos = c.buffer.limit := by
  have hfinished : c.buffer.isFinished := by
    unfold Chain.isFinished at h
    rwa [hfade] at h
  have hdrained := (Buffer.isFinished_iff hc.unaborted).1 hfinished
  exact ⟨hdrained.supplied.elim hc.ended id, Nat.le_antisymm hc.behind.1 hdrained.behind⟩

theorem supply (h : Playing f capacity stock p) {ss : List Supply} (hss : GivesFrames f ss) :
    Playing f capacity (stock ++ given ss) { p with chain := p.chain.supply ss } := by
  have hgoes := h.stocked.supply hss
  refine ⟨hgoes.stocked, h.fade, fun hfired => ?_⟩
  obtain ⟨hs, hspent⟩ := h.spent hfired
  obtain ⟨hlimit, hs'⟩ := hgoes.settled hs
  exact ⟨hs', hgoes.readPos.trans (hspent.trans hlimit.symm)⟩

/-- What a callback pulls. -/
theorem pulled (h : Playing f capacity stock p) (hf : 0 < f.bytesPerFrame)
    (hamid : GivesFrames f amid.flatten) (r : Renderer) (volume : Float32) (card : Array Nat) :
    ∃ chain bytes, r.callback volume p card amid = ⟨volume, card.size / max f.channels 1, bytes,
        r.deliver volume p card (chain, bytes)⟩ ∧
      Renderer.Pulled f capacity stock (given amid.flatten) (card.size / max f.channels 1) p.chain
        (chain, bytes) := by
  have hchunk : 0 < r.chunk f := by
    unfold Renderer.chunk
    rw [if_neg (Nat.ne_of_gt hf)]
    omega
  refine ⟨_, _, ?_, .of_pullAmid h.stocked h.fade hf hchunk hamid⟩
  rw [Renderer.callback, h.stocked.format]

/-- Whole frames have been pulled, no more than were asked for. -/
theorem filled_le {more : List UInt8} {need : Nat} {c : Chain} {out : Chain × Bytes}
    (hf : 0 < f.bytesPerFrame) (h : Renderer.Pulled f capacity stock more need c out) :
    out.2.size / f.bytesPerFrame ≤ need := by
  obtain ⟨n, hn, hsize⟩ := h.whole
  rwa [hsize, Nat.mul_div_cancel _ hf]

/-- A callback goes on with the audio and counts what it gets. -/
theorem callback (h : Playing f capacity stock p) (hf : 0 < f.bytesPerFrame)
    (hamid : GivesFrames f amid.flatten) (r : Renderer) (volume : Float32) (card : Array Nat) :
    let call := r.callback volume p card amid
    let p' := call.rendered.playback
    Playing f capacity (stock ++ given amid.flatten) p' ∧ Counts f p [call] p' ∧
      p.chain.Goes f capacity stock (given amid.flatten) call.bytes.toList p'.chain := by
  obtain ⟨chain, bytes, hcall, hpulled⟩ := h.pulled hf hamid r volume card
  have hformat := h.stocked.format
  have hasked : card.size / max p.chain.buffer.format.channels 1 = card.size / max f.channels 1 := by
    rw [hformat]
  have hfew : bytes.size / p.chain.buffer.format.bytesPerFrame ≤ card.size / max f.channels 1 := by
    rw [hformat]
    exact filled_le hf hpulled
  have hcounts := counts_deliver r volume chain hasked hfew
  obtain ⟨hchain, -, -, hidle, -⟩ := r.deliver_eq volume p card chain bytes hasked rfl
  rw [hformat] at hcounts
  rw [hcall]
  dsimp only
  refine ⟨⟨?_, ?_, fun hfired => ?_⟩, hcounts, ?_⟩
  · rw [hchain]
    exact hpulled.goes.buffer.stocked
  · rw [hchain]
    exact (congrArg Effects.fade hpulled.goes.effects).trans h.fade
  · rw [hchain]
    simp only [hidle, Bool.or_eq_true, Bool.and_eq_true] at hfired
    rcases hfired with hfired | ⟨-, hfinished⟩
    · -- nothing is left, so nothing is read
      obtain ⟨hs, hspent⟩ := h.spent hfired
      obtain ⟨hlimit, hs'⟩ := hpulled.goes.buffer.settled hs
      have hnone : bytes.size = 0 := by
        have hall := hpulled.all hs
        simpa [hspent] using hall
      have hreadPos := hpulled.goes.buffer.readPos
      rw [Array.length_toList, hnone] at hreadPos
      exact ⟨hs', hreadPos.trans (hspent.trans hlimit.symm)⟩
    · exact spent_of_isFinished hpulled.goes.buffer.stocked
        ((congrArg Effects.fade hpulled.goes.effects).trans h.fade) hfinished
  · rw [hchain]
    exact hpulled.goes

/-- A callback fills the card. -/
theorem sounds (h : Playing f capacity stock p) (hch : 1 ≤ f.channels)
    (hamid : GivesFrames f amid.flatten) (r : Renderer) (volume : Float32)
    (hcard : f.channels ∣ card.size) : (r.callback volume p card amid).Sounds r f := by
  have hf := Format.bytesPerFrame_pos hch
  obtain ⟨chain, bytes, hcall, hpulled⟩ := h.pulled hf hamid r volume card
  obtain ⟨n, hn, hsize⟩ := hpulled.whole
  obtain ⟨frames, hframes⟩ := hcard
  have hsize : bytes.size = n * f.bytesPerFrame := hsize
  have hmax : max f.channels 1 = f.channels := Nat.max_eq_left hch
  have hasked : card.size / f.channels = frames := by rw [hframes, Nat.mul_div_cancel_left _ hch]
  have hfilled : bytes.size / f.bytesPerFrame = n := by rw [hsize, Nat.mul_div_cancel _ hf]
  have hsamples : (f.decodeAll bytes).size = n * f.channels := by
    rw [Format.size_decodeAll, hsize, Format.bytesPerFrame, Nat.mul_left_comm,
      Nat.mul_div_cancel_left _ f.bytesPerSample_pos]
  have hrest : card.size - n * f.channels = (frames - n) * f.channels := by
    rw [hframes, Nat.mul_comm, ← Nat.sub_mul]
  rw [hmax, hasked] at hcall hn
  rw [hcall]
  refine ⟨⟨n, by rw [hsize, Nat.mul_comm]⟩, ?_⟩
  simp only [Callback.filled, hfilled, Renderer.deliver, h.stocked.format, hmax, hasked]
  split
  · split <;> simp only [Array.size_map, hsamples, hrest]
  · next hfull =>
    have heq : n = frames := Nat.le_antisymm hn (Nat.le_of_not_lt hfull)
    have hall : card.size ≤ frames * f.channels :=
      Nat.le_of_eq (hframes.trans (Nat.mul_comm ..))
    simp [hsamples, heq, hall]

/-- A run goes on with the audio and counts what the callbacks get. -/
theorem play (h : Playing f capacity stock p) (hch : 1 ≤ f.channels) (r : Renderer)
    (hss : GivesFrames f (supplies steps))
    (hcards : ∀ volume card amid, .callback volume card amid ∈ steps → f.channels ∣ card.size) :
    let out := Playback.play r p steps
    Playing f capacity (stock ++ given (supplies steps)) out.1 ∧ Counts f p out.2 out.1 ∧
      p.chain.Goes f capacity stock (given (supplies steps)) (out.2.flatMap (·.bytes.toList))
        out.1.chain ∧ ∀ call ∈ out.2, call.Sounds r f := by
  have hf := Format.bytesPerFrame_pos hch
  induction steps generalizing p stock with
  | nil =>
    rw [supplies, List.flatMap_nil, given, List.flatMap_nil, List.append_nil]
    exact ⟨h, .refl f p, ⟨rfl, h.stocked.goes⟩, fun _ hm => absurd hm List.not_mem_nil⟩
  | cons step steps ih =>
    rw [supplies, List.flatMap_cons, givesFrames_append] at hss
    obtain ⟨hfirst, hlater⟩ := hss
    have hcards' : ∀ volume card amid, .callback volume card amid ∈ steps →
        f.channels ∣ card.size := fun volume card amid hm =>
      hcards volume card amid (List.mem_cons_of_mem _ hm)
    have hgiven : given (supplies (step :: steps)) =
        given step.supplies ++ given (supplies steps) := by
      rw [supplies, List.flatMap_cons, given_append, supplies]
    rw [hgiven, ← List.append_assoc]
    cases step with
    | supply s =>
      obtain ⟨hplaying, hcounts, hgoes, hsounds⟩ := ih (h.supply hfirst) hlater hcards'
      refine ⟨hplaying, ⟨hcounts.session, hcounts.played, hcounts.asked, hcounts.fired,
        hcounts.posted⟩, ?_, hsounds⟩
      exact (Chain.goes_supply h.stocked hfirst).trans hgoes
    | callback volume card amid =>
      obtain ⟨hnext, hcall, hpiece⟩ := h.callback hf hfirst r volume card
      obtain ⟨hplaying, hcounts, hgoes, hsounds⟩ := ih hnext hlater hcards'
      refine ⟨hplaying, hcall.trans hcounts, ?_, fun call hm => ?_⟩
      · have hboth := hpiece.trans hgoes
        exact hboth
      · rcases List.mem_cons.1 hm with rfl | hm
        · exact h.sounds hch hfirst r volume (hcards _ _ _ (List.mem_cons_self ..))
        · exact hsounds call hm

/-- Once the input has ended or the buffer is full, a callback that asks for more frames than are
left posts the signal, or it has been posted. -/
theorem fired_of_asked (h : Playing f capacity stock p) (hch : 1 ≤ f.channels)
    (hamid : GivesFrames f amid.flatten) (hend : p.chain.buffer.ended ∨ p.chain.buffer.isFull)
    (htop : p.chain.buffer.writePos ≠ Word.top) (r : Renderer) (volume : Float32)
    (hmore : (p.chain.buffer.limit - p.chain.buffer.readPos) / f.bytesPerFrame <
      card.size / f.channels) :
    (r.callback volume p card amid).rendered.playback.idle.fired = true := by
  have hf := Format.bytesPerFrame_pos hch
  have hstocked := h.stocked
  have hsupplied : p.chain.buffer.IsSupplied := by
    rcases hend with he | hfull
    · exact hstocked.ended he
    · simp only [Buffer.isFull, Buffer.capacity, hstocked.sized, Bool.and_eq_true, Option.getD_some,
        decide_eq_true_eq] at hfull
      exact Nat.le_trans hstocked.limit hfull.2
  -- a limit that has been reached lies between frames
  have hlimit : f.bytesPerFrame ∣ p.chain.buffer.limit := by
    refine hstocked.between.2.2.resolve_right fun he => htop ?_
    have hle : p.chain.buffer.limit ≤ p.chain.buffer.writePos := hsupplied
    have htop' := hstocked.between_writePos.1
    omega
  obtain ⟨chain, bytes, hcall, hpulled⟩ := h.pulled hf hamid r volume card
  rw [Nat.max_eq_left hch] at hcall hpulled
  obtain ⟨left, hleft⟩ := Nat.dvd_sub hlimit hstocked.frames
  have hsize : bytes.size = left * f.bytesPerFrame := by
    have hall := hpulled.all hsupplied
    rw [hleft, Nat.mul_div_cancel_left _ hf] at hall hmore
    rw [hall, Nat.min_eq_right (Nat.le_of_lt hmore)]
  have hfinished : chain.isFinished = true := by
    have hstocked' := hpulled.goes.buffer.stocked
    have hreadPos := hpulled.goes.buffer.readPos
    obtain ⟨hlimit', hs'⟩ := hpulled.goes.buffer.settled hsupplied
    have hbehind := hstocked.behind.1
    dsimp only at hstocked' hreadPos hlimit' hs'
    rw [Array.length_toList, hsize, Nat.mul_comm, ← hleft] at hreadPos
    have hdrained : chain.buffer.Drained :=
      ⟨by simp [Buffer.isSized, hstocked'.sized], .inr hs', by omega⟩
    have hfade : chain.fade = none :=
      (congrArg Effects.fade hpulled.goes.effects).trans h.fade
    rw [Chain.isFinished, hfade]
    exact (Buffer.isFinished_iff hstocked'.unaborted).2 hdrained
  have hfilled : bytes.size / p.chain.buffer.format.bytesPerFrame = left := by
    rw [hstocked.format, hsize, Nat.mul_div_cancel _ hf]
  have hasked : card.size / max p.chain.buffer.format.channels 1 = card.size / f.channels := by
    rw [hstocked.format, Nat.max_eq_left hch]
  obtain ⟨-, -, -, hidle, -⟩ := r.deliver_eq volume p card chain bytes hasked hfilled
  rw [hleft, Nat.mul_div_cancel_left _ hf] at hmore
  rw [hcall]
  simp [hidle, hfinished, hmore]

end Playing

/-- Samples of pieces that are cut between frames. -/
theorem decodeAll_pieces (hsounds : ∀ call ∈ calls, call.Sounds r f) :
    (f.decodeAll (calls.flatMap (·.bytes.toList)).toArray).toList =
      calls.flatMap fun call => (f.decodeAll call.bytes).toList := by
  induction calls with
  | nil => simp [Format.decodeAll]
  | cons call calls ih =>
    have hwhole : f.bytesPerSample ∣ call.bytes.size :=
      Nat.dvd_trans (Nat.dvd_mul_right ..) (hsounds call (List.mem_cons_self ..)).whole
    have hrest := ih fun call hm => hsounds call (List.mem_cons_of_mem _ hm)
    rw [List.flatMap_cons, List.flatMap_cons, ← List.append_toArray, Array.toArray_toList,
      Format.decodeAll_append hwhole, Array.toList_append, hrest]

/-- The frames played are those of the pieces. -/
theorem sum_filled (hsounds : ∀ call ∈ calls, call.Sounds r f) :
    (calls.map (·.filled f)).sum * f.bytesPerFrame =
      (calls.flatMap (·.bytes.toList)).length := by
  induction calls with
  | nil => exact Nat.zero_mul _
  | cons call calls ih =>
    have hwhole := Nat.div_mul_cancel (hsounds call (List.mem_cons_self ..)).whole
    have hrest := ih fun call hm => hsounds call (List.mem_cons_of_mem _ hm)
    have hsize : call.bytes.toList.length = call.bytes.size := Array.length_toList
    rw [List.flatMap_cons, List.length_append, hsize, ← hrest, List.map_cons, List.sum_cons,
      Nat.add_mul, Callback.filled, hwhole]

/-- A playback of a new buffer without a fade. -/
def fresh (f : Format) (d : Span) (tempo : Float32) (session : Nat) : Playback where
  chain := { tempo, buffer := Buffer.sized f d }
  idle := { session }

/-- Whatever the producer and the card do in turns, as long as whole frames are written and asked
for, the pieces that the callbacks get are the beginning of what has been written, in order; each is
converted for the card, which gets silence after it. The frames played are those of that beginning.
Every frame asked for is played, or missing, or silence after the end. The signal is posted at most
once, and only when everything up to the limit has been played; and once the input has ended or the
buffer is full, unless it is so full that the count of its bytes has saturated, a callback that asks
for more than is left posts it or finds it posted. -/
theorem whole_run_plays_in_order (r : Renderer) {f : Format} (hch : 1 ≤ f.channels) (d : Span)
    (tempo : Float32) (session : Nat) {steps : List Step} (hss : GivesFrames f (supplies steps))
    (hcards : ∀ volume card amid, .callback volume card amid ∈ steps → f.channels ∣ card.size) :
    let p := (play r (fresh f d tempo session) steps).1
    let calls := (play r (fresh f d tempo session) steps).2
    let b := p.chain.buffer
    let heard := (given (supplies steps)).take b.readPos
    calls.flatMap (·.bytes.toList) = heard ∧
      calls.flatMap (fun call => (f.decodeAll call.bytes).toList) =
        (f.decodeAll heard.toArray).toList ∧
      (∀ call ∈ calls, call.Sounds r f) ∧
      heard.length = b.readPos ∧ b.readPos = p.counters.playedFrames * f.bytesPerFrame ∧
      (calls.map (·.asked)).sum =
        p.counters.playedFrames + p.counters.underrunFrames + (calls.map (·.silence f)).sum ∧
      calls.flatMap (·.rendered.posted) = (if p.idle.fired then [session] else []) ∧
      (p.idle.fired → b.readPos = b.limit) ∧
      ∀ volume card amid, GivesFrames f amid.flatten → b.ended ∨ b.isFull → b.writePos ≠ Word.top →
        (b.limit - b.readPos) / f.bytesPerFrame < card.size / f.channels →
          (r.callback volume p card amid).rendered.playback.idle.fired := by
  intro p calls b heard
  have hfresh : Playing f (f.bytesOfSpan d) [] (fresh f d tempo session) :=
    ⟨Buffer.stocked_sized f d, rfl, nofun⟩
  obtain ⟨hplaying, hcounts, ⟨-, hgoes⟩, hsounds⟩ := hfresh.play hch r hss hcards
  have hstart : (fresh f d tempo session).chain.buffer.readPos = 0 := Nat.zero_min _
  have hpieces : calls.flatMap (·.bytes.toList) = heard := by
    have hdata := hgoes.data
    have hfit : b.readPos ≤ f.bytesOfSpan d :=
      Nat.le_trans hplaying.stocked.behind.1 hplaying.stocked.limit
    rw [hstart, List.take_zero, List.nil_append, hplaying.stocked.data, List.take_take,
      Nat.min_eq_left hfit] at hdata
    exact hdata.symm
  have hlength : heard.length = b.readPos := by
    have hbehind : b.readPos ≤ b.writePos := hplaying.stocked.behind.2
    have hwritten : b.writePos = min (given (supplies steps)).length (f.bytesOfSpan d) :=
      hplaying.stocked.writePos_eq
    rw [List.length_take]
    omega
  have hsum : p.counters.playedFrames = (calls.map (·.filled f)).sum := by
    have hplayed := hcounts.played
    rwa [show (fresh f d tempo session).counters.playedFrames = 0 from rfl, Nat.zero_add] at hplayed
  have hplayed : b.readPos = p.counters.playedFrames * f.bytesPerFrame := by
    rw [hsum, sum_filled hsounds, hpieces, hlength]
  refine ⟨hpieces, ?_, hsounds, hlength, hplayed, ?_, ?_, fun hfired => (hplaying.spent hfired).2, ?_⟩
  · rw [← hpieces]
    exact (decodeAll_pieces hsounds).symm
  · rw [hsum]
    exact hcounts.asked
  · rw [hcounts.posted]
    show (if false = false ∧ p.idle.fired = true then [session] else []) = _
    simp
  · intro volume card amid hamid hend htop hmore
    exact hplaying.fired_of_asked hch hamid hend htop r volume hmore

/-- Two frames are written one by one. The card asks for one, and then for more than there is left,
while the input ends between two reads. -/
def twoFrames : List Step :=
  [.supply (.write #[1, 2]), .callback 1.0 #[0] [], .supply (.write #[3, 4]),
    .callback 0.5 #[0, 0, 0] [[], [.endInput]]]

theorem two_frames_play_in_order :
    let f : Format := ⟨1000, 1, .signed16, .little⟩
    let out := play ⟨.i16, 1⟩ (fresh f ⟨2000000⟩ 1.0 7) twoFrames
    GivesFrames f (supplies twoFrames) ∧ out.2.flatMap (·.bytes.toList) = [1, 2, 3, 4] ∧
      out.1.counters.playedFrames = 2 ∧ (out.2.map (·.silence f)).sum = 2 ∧
      out.2.flatMap (·.rendered.posted) = [7] := by
  intro f out
  have hgives : GivesFrames f (supplies twoFrames) := by
    unfold GivesFrames
    decide
  have hends : out.1.chain.buffer.readPos = 4 ∧ out.1.counters.underrunFrames = 0 ∧
      (out.2.map (·.asked)).sum = 4 ∧ out.1.idle.fired = true := by decide +kernel
  obtain ⟨hread, hmissed, hasked, hfired⟩ := hends
  obtain ⟨hpieces, -, -, -, hplayed, hcount, hposted, -⟩ :=
    whole_run_plays_in_order ⟨.i16, 1⟩ (f := f) (Nat.le_refl 1) ⟨2000000⟩ 1.0 7 hgives fun _ _ _ _ =>
      Nat.one_dvd _
  have hframes : 4 = out.1.counters.playedFrames * 2 := hread.symm.trans hplayed
  have hsum : 4 = out.1.counters.playedFrames + 0 + (out.2.map (·.silence f)).sum :=
    hasked.symm.trans (hmissed ▸ hcount)
  have hheard : (given (supplies twoFrames)).take 4 = [1, 2, 3, 4] := by decide
  rw [hread, hheard] at hpieces
  exact ⟨hgives, hpieces, by omega, by omega, hposted.trans (if_pos hfired)⟩

end Playback

end Jukebox
