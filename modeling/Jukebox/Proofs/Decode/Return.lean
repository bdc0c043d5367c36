import Jukebox.Proofs.Decode.Track
import Jukebox.Proofs.Decode.Worker

/-!
The return of a decode worker. Whatever is to be decoded, whatever converts it and whatever the
reader does meanwhile, a worker that is given enough steps returns and leaves its buffer in a final
state. Decoding into a buffer is a run of such a worker: the moments at which the buffer may be
aborted are moves of the reader between two of its steps.
-/

namespace Jukebox.Decode

open Media (Session)
open Worker (Phase Move)

/-- A resampler with the filter that is in use. -/
abbrev SincResampler := Rate.Resampler Rate.Sinc.State

/-- Resampling as a converter. Its operations fail only where a frame is refused or no filter is
there. -/
def resampling : Converter SincResampler where
  layout r := r.source
  create := Rate.Resampler.create
  convert r f :=
    match r.convert f with
    | (r, .ok c) => .ok (r, c.bytes)
    | (_, .error e) => .error e
  flush r := .ok (r.flush.1, r.flush.2.bytes)

theorem resampling_ok {r r' : SincResampler} {f : Media.Frame}
    {c : Rate.Converted} (h : r.convert f = (r', .ok c)) :
    resampling.convert r f = .ok (r', c.bytes) := by
  unfold resampling
  dsimp only
  rw [h]

/-- A converter that refuses a frame stays as it is. -/
theorem resampling_error {r r' : SincResampler} {f : Media.Frame} {e : Fault}
    (h : r.convert f = (r', .error e)) : r' = r ∧ resampling.convert r f = .error e := by
  constructor
  · unfold Rate.Resampler.convert at h
    split at h
    · exact (congrArg Prod.fst h).symm
    · split at h <;> cases congrArg Prod.snd h
  · unfold resampling
    dsimp only
    rw [h]

/-- The worker that does a work, in a phase of it. -/
def Work.inPhase (w : Work) (p : Phase SincResampler) : Worker SincResampler :=
  ⟨w.buffer, w.converter, p⟩

/-- A run in which the reader does nothing but abort the buffer, at moments when it may. -/
def Leads (aborts : Moment → Bool) (o : Options) (w w' : Worker SincResampler) : Prop :=
  ∃ moves, (∀ m ∈ moves, m = .work ∨ m = .reader .abort ∧ ∃ t, aborts t) ∧
    w.run resampling o moves = w'

namespace Leads

variable {aborts : Moment → Bool} {o : Options} {w : Work}
  {u v x : Worker SincResampler} {p : Phase SincResampler}

theorem refl (u : Worker SincResampler) : Leads aborts o u u :=
  ⟨[], fun _ h => absurd h List.not_mem_nil, rfl⟩

theorem trans (h : Leads aborts o u v) (h' : Leads aborts o v x) : Leads aborts o u x := by
  obtain ⟨moves, hmoves, rfl⟩ := h
  obtain ⟨moves', hmoves', rfl⟩ := h'
  exact ⟨moves ++ moves', List.forall_mem_append.2 ⟨hmoves, hmoves'⟩, List.foldl_append⟩

/-- A step of the worker and what follows. -/
theorem ok (hattempt : u.attempt resampling o = .ok v) (h : Leads aborts o v x) :
    Leads aborts o u x := by
  rw [← Worker.step_of_ok hattempt] at h
  exact trans ⟨[.work], by simp, rfl⟩ h

theorem fault {e : Fault} (hattempt : u.attempt resampling o = .error e) :
    Leads aborts o u (u.goto (.failing e)) :=
  ⟨[.work], by simp, Worker.step_of_error hattempt⟩

theorem meanwhile (t : Moment) (h : Leads aborts o ((w.meanwhile aborts t).inPhase p) v) :
    Leads aborts o (w.inPhase p) v := by
  unfold Work.meanwhile at h
  split at h
  · next ht =>
    exact trans ⟨[.reader .abort], fun m hm => .inr ⟨List.mem_singleton.1 hm, t, ht⟩, rfl⟩ h
  · exact h

end Leads

variable {aborts : Moment → Bool} {o : Options}

/-! ### A frame -/

/-- What follows when a converter for another layout is gone. -/
def adapted (s : Session) (f : Media.Frame) :
    Option SincResampler → Phase SincResampler
  | some r => .converting s f r
  | none => .creating s f

theorem leads_adapt (aborts : Moment → Bool) (o : Options) (s : Session) (f : Media.Frame)
    (w : Work) : Leads aborts o (w.inPhase (.adapting s f))
      ((w.adapt f.layout).inPhase (adapted s f (w.adapt f.layout).converter)) := by
  obtain ⟨b, converter⟩ := w
  cases converter with
  | none => exact .ok rfl (.refl _)
  | some r =>
    by_cases hlayout : r.source = f.layout
    · have hsame : Work.adapt ⟨b, some r⟩ f.layout = ⟨b, some r⟩ := if_pos hlayout
      rw [hsame]
      exact .ok (if_pos hlayout) (.refl _)
    · have hgone : Work.adapt ⟨b, some r⟩ f.layout = ⟨(b.write r.flush.2.bytes).1, none⟩ :=
        if_neg hlayout
      rw [hgone]
      exact .ok (if_neg hlayout) (.ok rfl (.refl _))

/-- What follows the making of a converter. -/
def created (s : Session) (f : Media.Frame) (w : Work) :
    Except Fault SincResampler → Worker SincResampler
  | .ok r => { w with converter := some r }.inPhase (.converting s f r)
  | .error e => w.inPhase (.failing e)

theorem leads_create (aborts : Moment → Bool) (o : Options) (s : Session) (f : Media.Frame)
    (w : Work) : Leads aborts o (w.inPhase (adapted s f w.converter))
      (created s f w (w.converterFor o f.layout)) := by
  obtain ⟨b, converter⟩ := w
  cases converter with
  | some r => exact .refl _
  | none =>
    show Leads aborts o _ (created s f ⟨b, none⟩ (Rate.Resampler.create f.layout b.format o.chunk))
    cases hcreate : Rate.Resampler.create f.layout b.format o.chunk with
    | error e => exact .fault (congrArg (Except.map _) hcreate)
    | ok r => exact .ok (congrArg (Except.map _) hcreate) (.refl _)

/-- What follows a verdict on a frame. -/
def judged (s : Session) : Media.Verdict → Phase SincResampler
  | .more => .reading s
  | .enough => .finishing .cancelled
  | .cancel => .reading { s with cancelled := true }
  | .fault e => .failing e

/-- A converted frame is written, and the worker goes on unless the buffer is aborted or full. -/
theorem leads_write (aborts : Moment → Bool) (o : Options) (s : Session) (packet : Nat) (w : Work)
    (c : Rate.Converted) :
    let written := (w.meanwhile aborts (.writing packet)).write c
    let w' := written.1.meanwhile aborts (.checking packet)
    Leads aborts o (w.inPhase (.writing s c.bytes))
      (w'.inPhase (judged s (if written.2 && !w'.buffer.isFull then .more else .enough))) := by
  intro written w'
  refine .meanwhile (.writing packet) (.ok rfl ?_)
  show Leads aborts o
    (written.1.inPhase (if written.2 then .checking s else .finishing .cancelled)) _
  cases written.2 with
  | false => exact .meanwhile (.checking packet) (.refl _)
  | true =>
    refine .meanwhile (.checking packet) (.ok rfl ?_)
    show Leads aborts o (w'.inPhase (if w'.buffer.isFull then _ else _)) _
    cases w'.buffer.isFull <;> exact .refl _

/-- The step on a frame, from the adapting of the converter to the verdict. -/
theorem leads_receive (aborts : Moment → Bool) (o : Options) (s : Session) (packet : Nat)
    (w : Work) (f : Media.Frame) :
    let r := w.receive aborts o packet f
    Leads aborts o (w.inPhase (.adapting s f)) (r.1.inPhase (judged s r.2)) := by
  refine (leads_adapt aborts o s f w).trans ((leads_create aborts o s f _).trans ?_)
  unfold Work.receive
  dsimp only
  generalize w.adapt f.layout = v
  cases hr : v.converterFor o f.layout with
  | error e => exact .refl _
  | ok r =>
    dsimp only [created]
    rcases hconvert : r.convert f with ⟨r', e | c⟩
    · obtain ⟨rfl, hfault⟩ := resampling_error hconvert
      exact .fault (congrArg (Except.map _) hfault)
    · exact .ok (congrArg (Except.map _) (resampling_ok hconvert))
        (leads_write aborts o s packet { v with converter := some r' } c)

/-! ### The packets -/

/-- What follows the last packet that is wanted. -/
def exhausted : Except Fault Media.Outcome → Phase SincResampler
  | .ok outcome => .finishing outcome
  | .error e => .failing e

/-- A packet is taken: it is passed over, or else it goes to the decoder. -/
theorem leads_read {s : Session} (hs : s.cancelled = false) (taken : Nat) (p : Media.Packet)
    (packets : List Media.Packet) (w : Work) :
    Leads aborts o (w.inPhase (.reading { s with packets := p :: packets }))
      ((w.meanwhile aborts (.reading taken)).inPhase
        (if p.stream ≠ s.stream.id then .reading { s with packets }
        else .decoding { s with packets } p.decoded)) :=
  .meanwhile (.reading taken) (.ok (if_neg (Bool.eq_false_iff.1 hs)) (.refl _))

theorem attempt_decode_none {s : Session} {f : Media.Frame} (h : f.frames = 0) (w : Work) :
    (w.inPhase (.decoding s (.frame f))).attempt resampling o = .ok (w.inPhase (.reading s)) :=
  congrArg (fun p => Except.ok (w.inPhase p)) (if_pos h)

theorem attempt_decode_some {s : Session} {f : Media.Frame} (h : f.frames ≠ 0) (w : Work) :
    (w.inPhase (.decoding s (.frame f))).attempt resampling o = .ok (w.inPhase (.adapting s f)) :=
  congrArg (fun p => Except.ok (w.inPhase p)) (if_neg h)

/-- The worker goes through packets as a session does. -/
theorem leads_go (aborts : Moment → Bool) (o : Options) (packets : List Media.Packet)
    (taken : Nat) (s : Session) (w : Work) :
    let r := s.go (fun k => Work.meanwhile aborts (.reading k)) (Work.receive aborts o) packets
      taken w
    Leads aborts o (w.inPhase (.reading { s with packets })) (r.2.1.inPhase (exhausted r.2.2)) := by
  induction packets generalizing taken s w with
  | nil =>
    obtain ⟨stream, old, ending, cancelled⟩ := s
    cases cancelled with
    | true => exact .ok rfl (.refl _)
    | false =>
      refine .meanwhile (.reading taken) ?_
      cases ending with
      | malformed => exact .fault rfl
      | endOfInput | reset => exact .ok rfl (.refl _)
  | cons p packets ih =>
    rcases Bool.eq_false_or_eq_true s.cancelled with hs | hs
    · unfold Session.go
      rw [if_pos hs]
      exact .ok (if_pos hs) (.refl _)
    have hread : Leads aborts o _ _ := leads_read hs taken p packets w
    by_cases hstream : p.stream = s.stream.id
    · rw [if_neg fun hne => hne hstream] at hread
      cases hp : p.decoded with
      | endOfInput =>
        rw [Session.go_endOfInput hs hstream hp]
        rw [hp] at hread
        exact hread.trans (.ok rfl (.refl _))
      | malformed =>
        rw [Session.go_malformed hs hstream hp]
        rw [hp] at hread
        exact hread.trans (.fault rfl)
      | frame f =>
        rw [hp] at hread
        by_cases hframes : f.frames = 0
        · rw [Session.go_passedOver hs (.inr ⟨f, hp, hframes⟩)]
          exact hread.trans (.ok (attempt_decode_none hframes _) (ih (taken + 1) s _))
        · have hreceive := leads_receive aborts o { s with packets } taken
            (w.meanwhile aborts (.reading taken)) f
          have hframe := hread.trans (.ok (attempt_decode_some hframes _) hreceive)
          rcases hr : (w.meanwhile aborts (.reading taken)).receive aborts o taken f with ⟨w', v⟩
          rw [hr] at hframe
          cases v with
          | more =>
            rw [Session.go_more hs hstream hp hframes hr]
            exact hframe.trans (ih (taken + 1) s w')
          | enough =>
            rw [Session.go_enough hs hstream hp hframes hr]
            exact hframe
          | cancel =>
            rw [Session.go_cancel hs hstream hp hframes hr]
            exact hframe.trans (ih (taken + 1) { s with cancelled := true } w')
          | fault e =>
            rw [Session.go_fault hs hstream hp hframes hr]
            exact hframe
    · rw [if_pos hstream] at hread
      rw [Session.go_passedOver hs (.inl hstream)]
      exact hread.trans (ih (taken + 1) s _)

/-! ### From start to end -/

theorem leads_flush (aborts : Moment → Bool) (o : Options) (w : Work) :
    Leads aborts o (w.inPhase .flushing) (w.flush.inPhase .ending) := by
  obtain ⟨b, converter⟩ := w
  cases converter with
  | none => exact .ok rfl (.refl _)
  | some r => exact .ok rfl (.ok rfl (.refl _))

theorem leads_finish (aborts : Moment → Bool) (o : Options) (outcome : Media.Outcome) (w : Work) :
    Leads aborts o (w.inPhase (.finishing outcome))
      ((w.finish aborts outcome).inPhase (.returned none)) := by
  refine .meanwhile .finishing ?_
  unfold Work.finish
  dsimp only
  generalize w.meanwhile aborts .finishing = v
  rcases Bool.eq_false_or_eq_true v.buffer.aborted with ha | ha
  · rw [if_pos ha]
    exact .ok (congrArg (fun p => Except.ok (v.inPhase p)) (if_pos ha)) (.refl _)
  · have hnot : ¬v.buffer.aborted := Bool.eq_false_iff.1 ha
    rw [if_neg hnot]
    refine .ok (congrArg (fun p => Except.ok (v.inPhase p)) (if_neg hnot)) ?_
    have last : ∀ u : Work, Leads aborts o (u.inPhase .ending)
        (Work.inPhase { u.meanwhile aborts .ending with
          buffer := (u.meanwhile aborts .ending).buffer.endInput } (.returned none)) :=
      fun u => .meanwhile .ending (.ok rfl (.refl _))
    cases outcome with
    | endOfStream => exact .meanwhile .flushing ((leads_flush aborts o _).trans (last _))
    | cancelled => exact last v

/-- A worker whose last step ended in a fault leaves the mark of an error. -/
theorem leads_fail (aborts : Moment → Bool) (o : Options) (w : Work) (e : Fault) :
    Leads aborts o (w.inPhase (.failing e))
      ({ w with buffer := w.buffer.fail }.inPhase (.returned (some e))) :=
  .ok rfl (.refl _)

/-- Filling a buffer is a run of a worker that has opened the file. -/
theorem leads_fill (aborts : Moment → Bool) (o : Options) (s : Session) (b : Buffer) :
    let r := fill aborts o s b
    ∃ converter, Leads aborts o (Work.inPhase { buffer := b } (.measuring s))
      ⟨settle r, converter, .returned r.2⟩ := by
  unfold fill
  cases htime : playingTime o s.stream with
  | none =>
    have hattempt : (Work.inPhase { buffer := b } (.measuring s)).attempt resampling o =
        .error .unknownDuration := by
      unfold Worker.attempt Work.inPhase
      dsimp only
      rw [htime]
    exact ⟨none, (Leads.fault hattempt).trans (leads_fail aborts o { buffer := b } _)⟩
  | some time =>
    have hattempt : (Work.inPhase { buffer := b } (.measuring s)).attempt resampling o =
        .ok (Work.inPhase { buffer := b } (.sizing s time)) := by
      unfold Worker.attempt Work.inPhase
      dsimp only
      rw [htime]
      rfl
    have hsizing : Leads aborts o (Work.inPhase { buffer := b } (.measuring s))
        ((Work.meanwhile aborts .sizing { buffer := b }).inPhase (.sizing s time)) :=
      .ok hattempt (.meanwhile .sizing (.refl _))
    dsimp only
    generalize Work.meanwhile aborts .sizing { buffer := b } = w at hsizing
    cases hsize : w.buffer.size time with
    | error e =>
      exact ⟨w.converter, hsizing.trans (.trans (.fault (congrArg (Except.map _) hsize))
        (leads_fail aborts o w e))⟩
    | ok b' =>
      have hgo := hsizing.trans (.ok (congrArg (Except.map _) hsize)
        (leads_go aborts o s.packets 0 s { w with buffer := b' }))
      unfold Session.run
      dsimp only
      generalize s.go _ _ _ _ _ = out at hgo
      obtain ⟨s', w', outcome⟩ := out
      cases outcome with
      | error e => exact ⟨w'.converter, hgo.trans (leads_fail aborts o w' e)⟩
      | ok outcome => exact ⟨_, hgo.trans (leads_finish aborts o outcome w')⟩

/-- The reader may abort the buffer after the return. -/
theorem leads_done (aborts : Moment → Bool) (o : Options) (b : Buffer)
    (converter : Option SincResampler) (p : Phase SincResampler) :
    Leads aborts o ⟨b, converter, p⟩
      ⟨(Work.meanwhile aborts .done { buffer := b }).buffer, converter, p⟩ := by
  refine .meanwhile (w := ⟨b, converter⟩) .done ?_
  unfold Work.meanwhile
  split <;> exact .refl _

/-- Decoding into a buffer is a run of a worker from its start to its return. -/
theorem leads_intoBuffer (aborts : Moment → Bool) (o : Options)
    (opened : Except Fault Session) (format : Format) :
    ∃ converter result, Leads aborts o (Worker.start opened format)
      ⟨intoBuffer aborts o opened format, converter, .returned result⟩ := by
  have hopening : Leads aborts o (Work.inPhase { buffer := .empty format } (.opening opened))
      ((Work.meanwhile aborts .opening { buffer := .empty format }).inPhase (.opening opened)) :=
    .meanwhile .opening (.refl _)
  have hnone : (Work.meanwhile aborts .opening { buffer := .empty format }).converter = none := by
    unfold Work.meanwhile
    split <;> rfl
  unfold intoBuffer
  dsimp only
  generalize Work.meanwhile aborts .opening { buffer := .empty format } = w at hopening hnone
  obtain ⟨b, converter⟩ := w
  cases hnone
  cases opened with
  | error e =>
    exact ⟨none, some e, hopening.trans (.trans (.fault rfl)
      ((leads_fail aborts o { buffer := b } e).trans (leads_done aborts o b.fail none _)))⟩
  | ok s =>
    obtain ⟨converter, hfill⟩ := leads_fill aborts o s b
    exact ⟨converter, _, hopening.trans (.ok rfl (hfill.trans (leads_done aborts o _ _ _)))⟩

/-- A worker that is given enough steps returns, whatever the reader of its buffer does meanwhile.
When it has returned, nobody waits for the buffer in vain; the buffer has the mark of an error just
if a step ended in a fault, and then no end is declared; without a fault and without an abort the
end is declared, at what was written. Nothing is written after an abort. Decoding into a buffer is a run
of such a worker. -/
theorem worker_settles_its_buffer :
    (∀ (ρ : Type) (k : Converter ρ) (o : Options) (opened : Except Fault Session)
        (format : Format),
      let begun : Worker ρ := .start opened format
      (∃ n, ∀ moves, n ≤ moves.countP Move.isWork →
        ∃ result, (begun.run k o moves).phase.result? = some result) ∧
      ∀ moves,
        let w := begun.run k o moves
        let faults := begun.faults k o moves
        (w.buffer.aborted → ∀ later, (w.run k o later).buffer.writePos = w.buffer.writePos) ∧
        ∀ result, w.phase.result? = some result →
          faults = result.toList ∧ (∃ answer, w.buffer.wait? = some answer) ∧
          (w.buffer.failed ↔ faults ≠ []) ∧
          (faults ≠ [] → w.buffer.wait? = some false ∧ w.buffer.ended = false) ∧
          (faults = [] → .reader .abort ∉ moves →
            w.buffer.ended ∧ w.buffer.limit = w.buffer.writePos ∧
              w.buffer.writePos ≤ w.buffer.capacity)) ∧
    ∀ (aborts : Moment → Bool) (o : Options) (opened : Except Fault Session) (format : Format),
      ∃ moves, (∀ m ∈ moves, m = .work ∨ m = .reader .abort ∧ ∃ t, aborts t) ∧
        let w := (Worker.start opened format).run resampling o moves
        (∃ result, w.phase.result? = some result) ∧
          w.buffer = intoBuffer aborts o opened format := by
  refine ⟨fun ρ k o opened format => ⟨?_, fun moves => ⟨fun ha later => ?_, ?_⟩⟩, ?_⟩
  · refine ⟨(Worker.start opened format : Worker ρ).phase.ahead, fun moves hmoves => ?_⟩
    have hahead := Worker.ahead_run k o (.start opened format) moves
    exact Option.isSome_iff_exists.1 (Phase.result_of_ahead (by omega))
  · exact congrArg Array.size (Worker.data_run ha)
  · intro result hresult
    have hfaults := Worker.faults_start k o opened format moves
    rw [Phase.fault_of_result hresult] at hfaults
    obtain ⟨hwait, hfailed, hfault, hend⟩ :=
      ((Worker.sound_start opened format).run k o moves).settled hresult
    have hiff : result ≠ none ↔ result.toList ≠ [] := not_congr Option.toList_eq_nil_iff.symm
    rw [hfaults]
    refine ⟨rfl, hwait, hfailed.trans hiff, fun h => hfault (hiff.2 h), fun h habort => ?_⟩
    have hnone := Option.toList_eq_nil_iff.1 h
    refine hend hnone (Worker.unaborted_run rfl habort ?_)
    exact (Phase.fault_of_result hresult).trans hnone
  · intro aborts o opened format
    obtain ⟨converter, result, moves, hmoves, hrun⟩ := leads_intoBuffer aborts o opened format
    refine ⟨moves, hmoves, ?_⟩
    dsimp only
    rw [hrun]
    exact ⟨⟨result, rfl⟩, rfl⟩

/-- A converter that makes a byte of each frame. It can be emptied only if it is good. -/
def counting (good : Bool) : Converter Media.Layout where
  layout l := l
  create l _ _ := .ok l
  convert l f := .ok (l, Array.replicate f.frames 0)
  flush l := if good then .ok (l, #[]) else .error (.conversion .noFilter)

/-- A file of two streams. -/
def twoStreams : Except Fault Session :=
  .ok (announced [stereo 0 [1, 1], stereo 1 [1, 0, 0, 1]])

/-- A worker on this file, after a run. -/
def onTwoStreams (good : Bool) (moves : List Move) : Worker Media.Layout :=
  (Worker.start twoStreams ⟨1000, 1, .signed16, .little⟩).run (counting good) {} moves

theorem worker_settles_after_two_frames :
    let steps := List.replicate 20 .work
    let cut := onTwoStreams true (List.replicate 8 .work ++ [.reader .abort])
    ((onTwoStreams false steps).phase.result? = some (some (.conversion .noFilter)) ∧
      (onTwoStreams false steps).buffer.failed ∧
      (onTwoStreams false steps).buffer.wait? = some false) ∧
    ((onTwoStreams true steps).phase.result? = some none ∧ .reader .abort ∉ steps ∧
      (onTwoStreams true steps).buffer.ended ∧ (onTwoStreams true steps).buffer.limit = 2) ∧
    (cut.buffer.aborted ∧
      (cut.run (counting true) {} steps).buffer.writePos = cut.buffer.writePos) := by
  intro steps cut
  obtain ⟨hworker, -⟩ := worker_settles_its_buffer
  obtain ⟨-, hbad⟩ := hworker _ (counting false) {} twoStreams ⟨1000, 1, .signed16, .little⟩
  obtain ⟨-, hgood⟩ := hworker _ (counting true) {} twoStreams ⟨1000, 1, .signed16, .little⟩
  have hfailed : (onTwoStreams false steps).phase.result? =
      some (some (.conversion .noFilter)) := by decide +kernel
  have hended : (onTwoStreams true steps).phase.result? = some none := by decide +kernel
  have hcut : cut.buffer.aborted := by decide +kernel
  have hsteps : .reader .abort ∉ steps := by simp [steps]
  obtain ⟨hfaults, -, herror, hfault, -⟩ := (hbad steps).2 _ hfailed
  rw [hfaults] at herror hfault
  obtain ⟨hnone, -, -, -, hend⟩ := (hgood steps).2 _ hended
  obtain ⟨hdeclared, hlimit, -⟩ := hend hnone hsteps
  have hpos : (onTwoStreams true steps).buffer.writePos = 2 := by decide +kernel
  refine ⟨⟨hfailed, ?_, ?_⟩, ⟨hended, hsteps, hdeclared, ?_⟩, hcut, ?_⟩
  · exact herror.2 (List.cons_ne_nil _ _)
  · exact (hfault (List.cons_ne_nil _ _)).1
  · exact hlimit.trans hpos
  · exact (hgood _).1 hcut steps

end Jukebox.Decode
