import Jukebox.Decode
import Jukebox.Proofs.Buffer.Ending

/-!
The worker that decodes a track, one step at a time. Opening the file, sizing the buffer, taking a
packet, decoding it, making, using and emptying a converter, writing and declaring the end are steps
of their own; between any two of them the reader of the buffer may act on it, and may abort it. A
step that ends in a fault is the last one but for the mark of an error. A converter is anything that
turns frames into bytes, and each of its operations may fail.

Every way out leaves the buffer in a final state: released, with the mark of an error just if there
was a fault, and else either aborted or with the end declared.
-/

namespace Jukebox.Decode

open Media (Session)

/-- What turns frames of one layout into bytes. -/
structure Converter (ρ : Type) where
  layout : ρ → Media.Layout
  create : Media.Layout → Format → (chunk : Nat) → Except Fault ρ
  convert : ρ → Media.Frame → Except Fault (ρ × Bytes)
  /-- What is left in it at the end. -/
  flush : ρ → Except Fault (ρ × Bytes)

namespace Worker

/-- What a worker does next. A session is what is left of it: its packets are those to come. -/
inductive Phase (ρ : Type) where
  | opening (opened : Except Fault Session)
  | measuring (s : Session)
  | sizing (s : Session) (time : Span)
  | reading (s : Session)
  | decoding (s : Session) (d : Media.Decoded)
  /-- A converter for another layout has to go. -/
  | adapting (s : Session) (f : Media.Frame)
  | replacing (s : Session) (f : Media.Frame) (tail : Bytes)
  | creating (s : Session) (f : Media.Frame)
  | converting (s : Session) (f : Media.Frame) (r : ρ)
  | writing (s : Session) (bytes : Bytes)
  | checking (s : Session)
  | finishing (outcome : Media.Outcome)
  | flushing
  | draining (tail : Bytes)
  | ending
  | failing (e : Fault)
  | returned (result : Option Fault)

namespace Phase

variable {ρ : Type}

/-- The result of a worker that has returned: the fault, if there was one. -/
def result? : Phase ρ → Option (Option Fault)
  | .returned result => some result
  | _ => none

/-- The fault that there was. -/
def fault? : Phase ρ → Option Fault
  | .failing e => some e
  | .returned result => result
  | _ => none

/-- There is work to do, and there was no fault. -/
structure Busy (p : Phase ρ) : Prop where
  result : p.result? = none
  fault : p.fault? = none

theorem Busy.ite {p p' : Phase ρ} {c : Prop} [Decidable c] (h : p.Busy) (h' : p'.Busy) :
    (if c then p else p').Busy := by
  split
  · exact h
  · exact h'

/-- The most steps that are to come, by the packets that are left. -/
def ahead : Phase ρ → Nat
  | .opening (.ok s) => 8 * s.packets.length + 8
  | .opening (.error _) => 2
  | .measuring s => 8 * s.packets.length + 7
  | .sizing s _ => 8 * s.packets.length + 6
  | .reading s => 8 * s.packets.length + 5
  | .decoding s _ => 8 * s.packets.length + 12
  | .adapting s _ => 8 * s.packets.length + 11
  | .replacing s _ _ => 8 * s.packets.length + 10
  | .creating s _ => 8 * s.packets.length + 9
  | .converting s _ _ => 8 * s.packets.length + 8
  | .writing s _ => 8 * s.packets.length + 7
  | .checking s => 8 * s.packets.length + 6
  | .finishing _ => 4
  | .flushing => 3
  | .draining _ => 2
  | .ending => 1
  | .failing _ => 1
  | .returned _ => 0

theorem fault_of_result {p : Phase ρ} {result : Option Fault} (h : p.result? = some result) :
    p.fault? = result := by
  cases p with
  | returned result' => exact Option.some.inj h
  | _ => cases h

theorem result_of_ahead {p : Phase ρ} (h : p.ahead = 0) : p.result?.isSome := by
  cases p with
  | returned result => rfl
  | opening opened => cases opened <;> cases h
  | _ => cases h

end Phase

end Worker

/-- A worker, with its buffer and its converter. -/
structure Worker (ρ : Type) where
  buffer : Buffer
  converter : Option ρ := none
  phase : Worker.Phase ρ

namespace Worker

variable {ρ : Type}

/-- A worker that begins. -/
def start (opened : Except Fault Session) (format : Format) : Worker ρ :=
  { buffer := .empty format, phase := .opening opened }

/-- The same worker in another phase. -/
def goto (w : Worker ρ) (phase : Phase ρ) : Worker ρ := { w with phase }

/-- The next step. It may end in a fault. -/
def attempt (k : Converter ρ) (o : Options) (w : Worker ρ) : Except Fault (Worker ρ) :=
  match w.phase with
  | .opening opened => opened.map fun s => w.goto (.measuring s)
  | .measuring s =>
    match playingTime o s.stream with
    | none => .error .unknownDuration
    | some time => .ok (w.goto (.sizing s time))
  | .sizing s time => (w.buffer.size time).map fun buffer => { w with buffer, phase := .reading s }
  | .reading s =>
    if s.cancelled then .ok (w.goto (.finishing .cancelled))
    else match s.packets with
      | [] => s.finish.map fun outcome => w.goto (.finishing outcome)
      | p :: rest =>
        let s := { s with packets := rest }
        .ok (w.goto (if p.stream ≠ s.stream.id then .reading s else .decoding s p.decoded))
  | .decoding s d =>
    match d with
    | .endOfInput => .ok (w.goto (.finishing .endOfStream))
    | .malformed => .error .badPacket
    | .frame f => .ok (w.goto (if f.frames = 0 then .reading s else .adapting s f))
  | .adapting s f =>
    match w.converter with
    | none => .ok (w.goto (.creating s f))
    | some r =>
      if k.layout r = f.layout then .ok (w.goto (.converting s f r))
      else (k.flush r).map fun (_, tail) =>
        { w with converter := none, phase := .replacing s f tail }
  | .replacing s f tail => .ok { w with buffer := (w.buffer.write tail).1, phase := .creating s f }
  | .creating s f =>
    (k.create f.layout w.buffer.format o.chunk).map fun r =>
      { w with converter := some r, phase := .converting s f r }
  | .converting s f r =>
    (k.convert r f).map fun (r, bytes) => { w with converter := some r, phase := .writing s bytes }
  | .writing s bytes =>
    let (buffer, goOn) := w.buffer.write bytes
    .ok { w with buffer, phase := if goOn then .checking s else .finishing .cancelled }
  | .checking s => .ok (w.goto (if w.buffer.isFull then .finishing .cancelled else .reading s))
  | .finishing outcome =>
    .ok (w.goto (if w.buffer.aborted then .returned none
      else match outcome with
        | .endOfStream => .flushing
        | .cancelled => .ending))
  | .flushing =>
    match w.converter with
    | none => .ok (w.goto .ending)
    | some r =>
      (k.flush r).map fun (r, tail) => { w with converter := some r, phase := .draining tail }
  | .draining tail => .ok { w with buffer := (w.buffer.write tail).1, phase := .ending }
  | .ending => .ok { w with buffer := w.buffer.endInput, phase := .returned none }
  | .failing e => .ok { w with buffer := w.buffer.fail, phase := .returned (some e) }
  | .returned _ => .ok w

/-- The worker after its next step. -/
def step (k : Converter ρ) (o : Options) (w : Worker ρ) : Worker ρ :=
  match w.attempt k o with
  | .ok w' => w'
  | .error e => w.goto (.failing e)

/-- The fault in which the next step ends. -/
def fault? (k : Converter ρ) (o : Options) (w : Worker ρ) : Option Fault :=
  match w.attempt k o with
  | .ok _ => none
  | .error e => some e

/-- What the reader of a buffer does with it. -/
inductive Reader where
  | read (room : Nat)
  | seekFrame (frame : Nat)
  | seek (d : Span)
  | abort

def Reader.op : Reader → Buffer.Op
  | .read room => .read room
  | .seekFrame frame => .seekFrame frame
  | .seek d => .seek d
  | .abort => .abort

/-- A step of the worker, or one of the reader in between. -/
inductive Move where
  | work
  | reader (r : Reader)

def Move.isWork : Move → Bool
  | .work => true
  | .reader _ => false

/-- The worker after a move. -/
def move (k : Converter ρ) (o : Options) (w : Worker ρ) : Move → Worker ρ
  | .work => w.step k o
  | .reader r => { w with buffer := w.buffer.apply r.op }

/-- The worker after a run. -/
def run (k : Converter ρ) (o : Options) (w : Worker ρ) (moves : List Move) : Worker ρ :=
  moves.foldl (move k o) w

/-- The faults in which steps of a run end. -/
def faults (k : Converter ρ) (o : Options) (w : Worker ρ) : List Move → List Fault
  | [] => []
  | .work :: moves => (w.fault? k o).toList ++ faults k o (w.step k o) moves
  | .reader r :: moves => faults k o (w.move k o (.reader r)) moves

/-! ### A step -/

/-- What a step does to the phase and the buffer, and the fault in which it ends. -/
inductive Effect (b : Buffer) : Phase ρ → Buffer → Phase ρ → Option Fault → Prop
  | keep {p p' : Phase ρ} (h : p.Busy) (h' : p'.Busy) : Effect b p b p' none
  | size {p p' : Phase ρ} {d : Span} {b' : Buffer} (h : p.Busy) (h' : p'.Busy)
    (hsize : b.size d = .ok b') : Effect b p b' p' none
  | write {p p' : Phase ρ} (h : p.Busy) (h' : p'.Busy) (bytes : Bytes) :
    Effect b p (b.write bytes).1 p' none
  | fault {p : Phase ρ} (h : p.Busy) (e : Fault) : Effect b p b (.failing e) (some e)
  /-- An aborted buffer is left as it is. -/
  | stop {p : Phase ρ} (h : p.Busy) (ha : b.aborted) : Effect b p b (.returned none) none
  | finish {p : Phase ρ} (h : p.Busy) : Effect b p b.endInput (.returned none) none
  | fail (e : Fault) : Effect b (.failing e) b.fail (.returned (some e)) none
  | rest (result : Option Fault) : Effect b (.returned result) b (.returned result) none

variable {k : Converter ρ} {o : Options} {w : Worker ρ} {b : Buffer} {moves : List Move}

theorem step_of_ok {w' : Worker ρ} (h : w.attempt k o = .ok w') : w.step k o = w' := by
  rw [step, h]

theorem step_of_error {e : Fault} (h : w.attempt k o = .error e) :
    w.step k o = w.goto (.failing e) := by
  rw [step, h]

/-- A step that depends on whether something fails. -/
theorem step_of_map {α : Type} {P : Worker ρ → Option Fault → Prop} {x : Except Fault α}
    {next : α → Worker ρ} (hattempt : w.attempt k o = x.map next)
    (hfault : ∀ e, P (w.goto (.failing e)) (some e)) (hnext : ∀ a, x = .ok a → P (next a) none) :
    P (w.step k o) (w.fault? k o) := by
  unfold step fault?
  rw [hattempt]
  cases x with
  | error e => exact hfault e
  | ok a => exact hnext a rfl

theorem effect_of_ok {w' : Worker ρ} (hattempt : w.attempt k o = .ok w')
    (h : Effect w.buffer w.phase w'.buffer w'.phase none) :
    Effect w.buffer w.phase (w.step k o).buffer (w.step k o).phase (w.fault? k o) := by
  unfold step fault?
  rw [hattempt]
  exact h

theorem effect_of_map {α : Type} {x : Except Fault α} {next : α → Worker ρ}
    (hattempt : w.attempt k o = x.map next) (hbusy : w.phase.Busy)
    (hnext : ∀ a, x = .ok a → Effect w.buffer w.phase (next a).buffer (next a).phase none) :
    Effect w.buffer w.phase (w.step k o).buffer (w.step k o).phase (w.fault? k o) :=
  step_of_map (P := fun w' e? => Effect w.buffer w.phase w'.buffer w'.phase e?) hattempt
    (fun e => .fault hbusy e) hnext

/-- Every step has one of these effects. -/
theorem effect_step (k : Converter ρ) (o : Options) (w : Worker ρ) :
    Effect w.buffer w.phase (w.step k o).buffer (w.step k o).phase (w.fault? k o) := by
  obtain ⟨b, converter, p⟩ := w
  cases p with
  | opening opened => exact effect_of_map rfl ⟨rfl, rfl⟩ fun s _ => .keep ⟨rfl, rfl⟩ ⟨rfl, rfl⟩
  | measuring s =>
    unfold step fault? attempt
    dsimp only
    cases playingTime o s.stream with
    | none => exact .fault ⟨rfl, rfl⟩ _
    | some time => exact .keep ⟨rfl, rfl⟩ ⟨rfl, rfl⟩
  | sizing s time => exact effect_of_map rfl ⟨rfl, rfl⟩ fun b' h => .size ⟨rfl, rfl⟩ ⟨rfl, rfl⟩ h
  | reading s =>
    obtain ⟨stream, packets, ending, cancelled⟩ := s
    cases cancelled with
    | true => exact .keep ⟨rfl, rfl⟩ ⟨rfl, rfl⟩
    | false =>
      cases packets with
      | nil => exact effect_of_map rfl ⟨rfl, rfl⟩ fun outcome _ => .keep ⟨rfl, rfl⟩ ⟨rfl, rfl⟩
      | cons packet rest => exact .keep ⟨rfl, rfl⟩ (.ite ⟨rfl, rfl⟩ ⟨rfl, rfl⟩)
  | decoding s d =>
    cases d with
    | endOfInput => exact .keep ⟨rfl, rfl⟩ ⟨rfl, rfl⟩
    | malformed => exact .fault ⟨rfl, rfl⟩ _
    | frame f => exact .keep ⟨rfl, rfl⟩ (.ite ⟨rfl, rfl⟩ ⟨rfl, rfl⟩)
  | adapting s f =>
    cases converter with
    | none => exact .keep ⟨rfl, rfl⟩ ⟨rfl, rfl⟩
    | some r =>
      by_cases hlayout : k.layout r = f.layout
      · exact effect_of_ok (if_pos hlayout) (.keep ⟨rfl, rfl⟩ ⟨rfl, rfl⟩)
      · exact effect_of_map (if_neg hlayout) ⟨rfl, rfl⟩ fun _ _ => .keep ⟨rfl, rfl⟩ ⟨rfl, rfl⟩
  | replacing s f tail => exact .write ⟨rfl, rfl⟩ ⟨rfl, rfl⟩ tail
  | creating s f => exact effect_of_map rfl ⟨rfl, rfl⟩ fun r _ => .keep ⟨rfl, rfl⟩ ⟨rfl, rfl⟩
  | converting s f r => exact effect_of_map rfl ⟨rfl, rfl⟩ fun _ _ => .keep ⟨rfl, rfl⟩ ⟨rfl, rfl⟩
  | writing s bytes => exact .write ⟨rfl, rfl⟩ (.ite ⟨rfl, rfl⟩ ⟨rfl, rfl⟩) bytes
  | checking s => exact .keep ⟨rfl, rfl⟩ (.ite ⟨rfl, rfl⟩ ⟨rfl, rfl⟩)
  | finishing outcome =>
    by_cases ha : b.aborted
    · exact effect_of_ok (congrArg (fun p => Except.ok (goto _ p)) (if_pos ha))
        (.stop ⟨rfl, rfl⟩ ha)
    · refine effect_of_ok (congrArg (fun p => Except.ok (goto _ p)) (if_neg ha))
        (.keep ⟨rfl, rfl⟩ ?_)
      cases outcome <;> exact ⟨rfl, rfl⟩
  | flushing =>
    cases converter with
    | none => exact .keep ⟨rfl, rfl⟩ ⟨rfl, rfl⟩
    | some r => exact effect_of_map rfl ⟨rfl, rfl⟩ fun _ _ => .keep ⟨rfl, rfl⟩ ⟨rfl, rfl⟩
  | draining tail => exact .write ⟨rfl, rfl⟩ ⟨rfl, rfl⟩ tail
  | ending => exact .finish ⟨rfl, rfl⟩
  | failing e => exact .fail e
  | returned result => exact .rest result

theorem ahead_of_map {α : Type} {x : Except Fault α} {next : α → Worker ρ} {n : Nat}
    (hattempt : w.attempt k o = x.map next) (hpos : 1 ≤ n)
    (hnext : ∀ a, x = .ok a → (next a).phase.ahead ≤ n) : (w.step k o).phase.ahead ≤ n :=
  step_of_map (P := fun w' _ => w'.phase.ahead ≤ n) hattempt (fun _ => hpos) hnext

theorem Phase.ahead_ite {p p' : Phase ρ} {c : Prop} [Decidable c] {n : Nat} (h : p.ahead ≤ n)
    (h' : p'.ahead ≤ n) : (if c then p else p').ahead ≤ n := by
  split
  · exact h
  · exact h'

/-- A step leaves fewer to come. -/
theorem ahead_step (k : Converter ρ) (o : Options) (w : Worker ρ) :
    (w.step k o).phase.ahead ≤ w.phase.ahead - 1 := by
  obtain ⟨b, converter, p⟩ := w
  cases p with
  | opening opened =>
    cases opened with
    | error e => exact Nat.le_refl 1
    | ok s => exact Nat.le_refl _
  | measuring s =>
    unfold step attempt
    dsimp only
    cases playingTime o s.stream with
    | none => exact Nat.le_add_left 1 _
    | some time => exact Nat.le_refl _
  | sizing s time => exact ahead_of_map rfl (Nat.le_add_left 1 _) fun _ _ => Nat.le_refl _
  | reading s =>
    obtain ⟨stream, packets, ending, cancelled⟩ := s
    cases cancelled with
    | true => exact Nat.le_add_left 4 _
    | false =>
      cases packets with
      | nil => exact ahead_of_map rfl (Nat.le_add_left 1 3) fun _ _ => Nat.le_refl 4
      | cons packet rest =>
        refine Phase.ahead_ite ?_ ?_ <;> simp only [Phase.ahead, List.length_cons] <;> omega
  | decoding s d =>
    cases d with
    | endOfInput => exact Nat.le_add_left 4 _
    | malformed => exact Nat.le_add_left 1 _
    | frame f => refine Phase.ahead_ite ?_ ?_ <;> simp only [Phase.ahead] <;> omega
  | adapting s f =>
    cases converter with
    | none => exact Nat.le_succ _
    | some r =>
      by_cases hlayout : k.layout r = f.layout
      · have hstep : step k o ⟨b, some r, .adapting s f⟩ = ⟨b, some r, .converting s f r⟩ :=
          step_of_ok (if_pos hlayout)
        rw [hstep]
        simp only [Phase.ahead]
        omega
      · exact ahead_of_map (if_neg hlayout) (Nat.le_add_left 1 _) fun _ _ => Nat.le_refl _
  | replacing s f tail => exact Nat.le_refl _
  | creating s f => exact ahead_of_map rfl (Nat.le_add_left 1 _) fun _ _ => Nat.le_refl _
  | converting s f r => exact ahead_of_map rfl (Nat.le_add_left 1 _) fun _ _ => Nat.le_refl _
  | writing s bytes => refine Phase.ahead_ite ?_ ?_ <;> simp only [Phase.ahead] <;> omega
  | checking s => refine Phase.ahead_ite ?_ ?_ <;> simp only [Phase.ahead] <;> omega
  | finishing outcome =>
    refine Phase.ahead_ite (Nat.zero_le _) ?_
    cases outcome with
    | endOfStream => exact Nat.le_refl 3
    | cancelled => exact Nat.le_add_left 1 2
  | flushing =>
    cases converter with
    | none => exact Nat.le_succ 1
    | some r => exact ahead_of_map rfl (Nat.le_succ 1) fun _ _ => Nat.le_refl 2
  | draining tail => exact Nat.le_refl 1
  | ending | failing e | returned result => exact Nat.le_refl 0

/-! ### What a run keeps -/

theorem run_cons (m : Move) (moves : List Move) :
    w.run k o (m :: moves) = (w.move k o m).run k o moves := rfl

/-- What holds between a buffer and the phase of its worker at all times. -/
structure Sound (b : Buffer) (p : Phase ρ) : Prop where
  fits : b.writePos ≤ b.capacity
  limit : b.limit = if b.ended then b.writePos else b.capacity
  released : b.released = (b.ended || b.aborted)
  ended : b.ended → p.result? = some none
  failed : b.failed ↔ ∃ e, p.result? = some (some e)
  aborted : b.failed → b.aborted
  final : p.result? = some none → b.ended ∨ b.aborted

/-- While the worker has not returned, neither the end nor an error is declared. -/
theorem Sound.unended {p : Phase ρ} (h : Sound b p) (hp : p.result? = none) :
    b.ended = false ∧ b.failed = false := by
  refine ⟨Bool.eq_false_iff.2 fun he => ?_, Bool.eq_false_iff.2 fun hf => ?_⟩
  · have := h.ended he
    rw [hp] at this
    cases this
  · obtain ⟨e, he⟩ := h.failed.1 hf
    rw [hp] at he
    cases he

/-- The phase can change to another before the return. -/
theorem Sound.goto {p p' : Phase ρ} (h : Sound b p) (hp : p.result? = none)
    (hp' : p'.result? = none) : Sound b p' := by
  obtain ⟨hended, hfailed⟩ := h.unended hp
  refine ⟨h.fits, h.limit, h.released, ?_, ?_, h.aborted, ?_⟩
  · simp [hended]
  · simp [hfailed, hp']
  · simp [hp']

theorem Sound.write {p : Phase ρ} (h : Sound b p) (hp : p.result? = none) (bytes : Bytes) :
    Sound (b.write bytes).1 p := by
  obtain ⟨hended, -⟩ := h.unended hp
  have hlimit := h.limit
  unfold Buffer.write
  split
  · exact h
  · split
    · exact h
    · next capacity hc =>
      dsimp only
      split
      · exact h
      · refine ⟨?_, ?_, h.released, h.ended, h.failed, h.aborted, h.final⟩
        · have hfits := h.fits
          simp only [Buffer.capacity, hc, Option.getD_some] at hfits ⊢
          show (b.data ++ bytes.extract 0 _).size ≤ capacity
          rw [Array.size_append, Array.size_extract]
          simp only [Buffer.writePos] at hfits ⊢
          omega
        · rw [hended] at hlimit ⊢
          exact hlimit

theorem Sound.size {p : Phase ρ} {d : Span} {b' : Buffer} (h : Sound b p) (hp : p.result? = none)
    (hsize : b.size d = .ok b') : Sound b' p := by
  obtain ⟨hended, -⟩ := h.unended hp
  obtain ⟨hc, capacity, start, rfl⟩ := Buffer.size_eq_ok hsize
  have hfits := h.fits
  simp only [Buffer.capacity, hc, Option.getD_none, Nat.le_zero] at hfits
  refine ⟨?_, ?_, h.released, h.ended, h.failed, h.aborted, h.final⟩
  · exact Nat.le_trans (Nat.le_of_eq hfits) (Nat.zero_le _)
  · rw [hended]
    rfl

theorem Sound.endInput {p : Phase ρ} (h : Sound b p) (hp : p.result? = none) :
    Sound b.endInput (.returned none : Phase ρ) := by
  obtain ⟨hended, hfailed⟩ := h.unended hp
  have hlimit := h.limit
  have hfits := h.fits
  rw [hended] at hlimit
  unfold Buffer.endInput
  rw [hended]
  refine ⟨hfits, ?_, rfl, fun _ => rfl, ?_, h.aborted, fun _ => .inl rfl⟩
  · show min b.limit b.writePos = b.writePos
    rw [hlimit]
    exact Nat.min_eq_right hfits
  · simp [hfailed, Phase.result?]

theorem Sound.fail {p : Phase ρ} (h : Sound b p) (hp : p.result? = none) (e : Fault) :
    Sound b.fail (.returned (some e) : Phase ρ) := by
  obtain ⟨hended, -⟩ := h.unended hp
  have hlimit := h.limit
  refine ⟨h.fits, hlimit, ?_, ?_, ?_, fun _ => rfl, fun _ => .inr rfl⟩
  · simp [Buffer.fail, Buffer.abort]
  · simp [Buffer.fail, Buffer.abort, hended]
  · simp [Buffer.fail, Buffer.abort, Phase.result?]

/-- The reader aborts the buffer or moves its cursor, now or for later. -/
theorem Sound.reader {p : Phase ρ} (h : Sound b p) (r : Reader) : Sound (b.apply r.op) p := by
  have moved : ∀ readPos pendingSeek, Sound { b with readPos, pendingSeek } p := fun _ _ =>
    ⟨h.fits, h.limit, h.released, h.ended, h.failed, h.aborted, h.final⟩
  cases r with
  | read room => exact moved _ _
  | seekFrame frame | seek d =>
    simp only [Reader.op, Buffer.apply, Buffer.seek, Buffer.seekFrame]
    split <;> exact moved _ _
  | abort =>
    refine ⟨h.fits, h.limit, ?_, h.ended, h.failed, fun _ => rfl, fun _ => .inr rfl⟩
    simp [Reader.op, Buffer.apply, Buffer.abort]

theorem Sound.effect {p p' : Phase ρ} {b' : Buffer} {e? : Option Fault} (h : Sound b p)
    (heffect : Effect b p b' p' e?) : Sound b' p' := by
  cases heffect with
  | keep hp hp' => exact h.goto hp.result hp'.result
  | size hp hp' hsize => exact (h.size hp.result hsize).goto hp.result hp'.result
  | write hp hp' bytes => exact (h.write hp.result bytes).goto hp.result hp'.result
  | fault hp e => exact h.goto hp.result rfl
  | stop hp ha =>
    obtain ⟨hended, hfailed⟩ := h.unended hp.result
    refine ⟨h.fits, h.limit, h.released, fun _ => rfl, ?_, h.aborted, fun _ => .inr ha⟩
    simp [hfailed, Phase.result?]
  | finish hp => exact h.endInput hp.result
  | fail e => exact h.fail rfl e
  | rest result => exact h

theorem Sound.run (h : Sound w.buffer w.phase) (k : Converter ρ) (o : Options)
    (moves : List Move) : Sound (w.run k o moves).buffer (w.run k o moves).phase := by
  induction moves generalizing w with
  | nil => exact h
  | cons m moves ih =>
    cases m with
    | work => exact ih (h.effect (effect_step k o w))
    | reader r => exact ih (h.reader r)

theorem sound_start (opened : Except Fault Session) (format : Format) :
    Sound (start opened format : Worker ρ).buffer (start opened format : Worker ρ).phase := by
  refine ⟨Nat.le_refl _, rfl, rfl, ?_, ?_, ?_, ?_⟩ <;>
    simp [start, Buffer.empty, Phase.result?]

/-! ### Faults, aborts and the return -/

theorem Effect.faults {p p' : Phase ρ} {b' : Buffer} {e? : Option Fault}
    (h : Effect b p b' p' e?) : p.fault?.toList ++ e?.toList = p'.fault?.toList := by
  cases h with
  | keep hp hp' | size hp hp' | write hp hp' => rw [hp.fault, hp'.fault]; rfl
  | fault hp e | stop hp | finish hp => rw [hp.fault]; rfl
  | fail e => rfl
  | rest result => exact List.append_nil _

/-- The fault of a worker is the one in which a step ended. -/
theorem faults_run (k : Converter ρ) (o : Options) (w : Worker ρ) (moves : List Move) :
    w.phase.fault?.toList ++ w.faults k o moves = (w.run k o moves).phase.fault?.toList := by
  induction moves generalizing w with
  | nil => exact List.append_nil _
  | cons m moves ih =>
    cases m with
    | work =>
      rw [run_cons, faults, ← List.append_assoc, (effect_step k o w).faults]
      exact ih _
    | reader r => exact ih (w.move k o (.reader r))

theorem faults_start (k : Converter ρ) (o : Options) (opened : Except Fault Session)
    (format : Format) (moves : List Move) :
    (start opened format).faults k o moves =
      ((start opened format).run k o moves).phase.fault?.toList :=
  faults_run k o (start opened format) moves

theorem Effect.unaborted {p p' : Phase ρ} {b' : Buffer} {e? : Option Fault}
    (h : Effect b p b' p' e?) (ha : b.aborted = false) (hfault : p'.fault? = none) :
    b'.aborted = false := by
  cases h with
  | keep | stop | rest => exact ha
  | size hp hp' hsize =>
    obtain ⟨-, capacity, start, rfl⟩ := Buffer.size_eq_ok hsize
    exact ha
  | write hp hp' bytes =>
    obtain ⟨more, ready, hw⟩ := Buffer.write_cases b bytes
    rw [hw]
    exact ha
  | finish hp =>
    have hkeep : (b.apply .endInput).aborted = b.aborted := Buffer.aborted_apply rfl
    exact hkeep.trans ha
  | fault hp e | fail e => cases hfault

/-- A buffer is aborted by its reader or after a fault only. -/
theorem unaborted_run (ha : w.buffer.aborted = false) (habort : .reader .abort ∉ moves)
    (hfault : (w.run k o moves).phase.fault? = none) : (w.run k o moves).buffer.aborted = false := by
  induction moves generalizing w with
  | nil => exact ha
  | cons m moves ih =>
    obtain ⟨hm, hmoves⟩ := not_or.1 fun h => habort (List.mem_cons.2 h)
    refine ih ?_ hmoves hfault
    cases m with
    | work =>
      refine (effect_step k o w).unaborted ha (Option.toList_eq_nil_iff.1 ?_)
      have hrest := faults_run k o (w.step k o) moves
      rw [show (w.step k o).run k o moves = w.run k o (.work :: moves) from rfl, hfault] at hrest
      exact (List.append_eq_nil_iff.1 hrest).1
    | reader r =>
      refine (Buffer.aborted_apply ?_).trans ha
      cases r with
      | abort => exact absurd rfl hm
      | read room | seekFrame frame | seek d => rfl

theorem Effect.data {p p' : Phase ρ} {b' : Buffer} {e? : Option Fault}
    (h : Effect b p b' p' e?) (ha : b.aborted) : b'.data = b.data ∧ b'.aborted := by
  cases h with
  | keep | fault | stop | rest => exact ⟨rfl, ha⟩
  | size hp hp' hsize =>
    obtain ⟨-, capacity, start, rfl⟩ := Buffer.size_eq_ok hsize
    exact ⟨rfl, ha⟩
  | write hp hp' bytes =>
    rw [Buffer.write_of_aborted ha]
    exact ⟨rfl, ha⟩
  | finish hp =>
    unfold Buffer.endInput
    split <;> exact ⟨rfl, ha⟩
  | fail e => exact ⟨rfl, rfl⟩

theorem data_reader (r : Reader) (ha : b.aborted) :
    (b.apply r.op).data = b.data ∧ (b.apply r.op).aborted := by
  cases r with
  | read room => exact ⟨rfl, ha⟩
  | seekFrame frame | seek d =>
    simp only [Reader.op, Buffer.apply, Buffer.seek, Buffer.seekFrame]
    split <;> exact ⟨rfl, ha⟩
  | abort => exact ⟨rfl, rfl⟩

/-- Nothing is written to a buffer once it is aborted. -/
theorem data_run (ha : w.buffer.aborted) : (w.run k o moves).buffer.data = w.buffer.data := by
  induction moves generalizing w with
  | nil => rfl
  | cons m moves ih =>
    have hmove : (w.move k o m).buffer.data = w.buffer.data ∧ (w.move k o m).buffer.aborted := by
      cases m with
      | work => exact (effect_step k o w).data ha
      | reader r => exact data_reader r ha
    exact (ih hmove.2).trans hmove.1

theorem ahead_run (k : Converter ρ) (o : Options) (w : Worker ρ) (moves : List Move) :
    (w.run k o moves).phase.ahead ≤ w.phase.ahead - moves.countP Move.isWork := by
  induction moves generalizing w with
  | nil => exact Nat.le_refl _
  | cons m moves ih =>
    have hrest := ih (w.move k o m)
    cases m with
    | work =>
      have hstep : (w.move k o .work).phase.ahead ≤ w.phase.ahead - 1 := ahead_step k o w
      rw [List.countP_cons_of_pos rfl, run_cons]
      omega
    | reader r =>
      rw [List.countP_cons_of_neg Bool.false_ne_true]
      exact hrest

/-- What a worker leaves when it returns. -/
theorem Sound.settled {p : Phase ρ} {result : Option Fault} (h : Sound b p)
    (hp : p.result? = some result) :
    (∃ answer, b.wait? = some answer) ∧ (b.failed ↔ result ≠ none) ∧
      (result ≠ none → b.wait? = some false ∧ b.ended = false) ∧
      (result = none → b.aborted = false →
        b.ended ∧ b.limit = b.writePos ∧ b.writePos ≤ b.capacity) := by
  have hfailed : b.failed ↔ result ≠ none := by
    rw [h.failed, Option.ne_none_iff_exists', hp]
    simp
  have hfinal : b.ended ∨ b.aborted := by
    cases result with
    | none => exact h.final hp
    | some e => exact .inr (h.aborted (h.failed.2 ⟨e, hp⟩))
  have hreleased : b.released := by
    rw [h.released, Bool.or_eq_true]
    exact hfinal
  have hwait : b.wait? = some (!b.failed && !b.aborted && decide (0 < b.writePos)) := by
    rw [Buffer.wait?, hreleased, Bool.or_true, if_pos rfl]
  refine ⟨⟨_, hwait⟩, hfailed, fun hresult => ⟨?_, ?_⟩, fun hresult ha => ?_⟩
  · rw [hwait, hfailed.2 hresult]
    rfl
  · refine Bool.eq_false_iff.2 fun he => hresult ?_
    exact Option.some.inj (hp.symm.trans (h.ended he))
  · have hended : b.ended := hfinal.resolve_right (by simp [ha])
    have hlimit := h.limit
    rw [if_pos hended] at hlimit
    exact ⟨hended, hlimit, h.fits⟩

end Worker

end Jukebox.Decode
