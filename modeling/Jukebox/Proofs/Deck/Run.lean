import Jukebox.Proofs.Deck.Control
import Jukebox.Proofs.Deck.Output

/-!
Runs of a deck: steps in any order, as long as each is possible. A shift is a step seen on the
sketches of both sides. What holds of a deck before anything has happened and is kept by every shift
holds of every deck that can be reached.
-/

namespace Jukebox.Deck

/-- The deck after steps in this order, if each of them is possible. -/
def run (w : World) (d : Deck) : List Move → Option Deck
  | [] => some d
  | m :: ms => (d.step w m).bind fun d => run w d ms

/-- A deck that a new one can become. -/
def Reachable (w : World) (fades : Fades) (playlist : Playlist) (d : Deck) : Prop :=
  ∃ moves, (initial fades playlist).run w moves = some d

open Output.Sketch (Turn)

/-- A step on the sketches of the control side and the output side. -/
inductive Shift (w : World) : Move → Control.Sketch → Output.Sketch →
    Control.Sketch → Output.Sketch → Prop where
  | give {c k f} : Shift w (.give c) k f k f
  | command {c k k' f} (ho : k.closed = false) (hk : k.Ordered c k') :
    Shift w .takeCommand k f k' f
  | notice {n k k' f f'} (ho : k.closed = false) (hp : f.phase = .reporting n)
      (hk : n.session = k.session → k.Heard n.event k') (hk' : n.session ≠ k.session → k' = k)
      (hf : Turn w .acknowledgement f f') : Shift w .takeNotice k f k' f'
  | giveUp {k f f'} (hc : k.closed = true) (hf : Turn w .acknowledgement f f') :
    Shift w .giveUp k f k f'
  | request {r k f f'} (hp : f.phase = .ready) (hr : k.sent[f.taken]? = some r)
      (hf : Turn w (.request k.playlist r) { f with taken := f.taken + 1 } f') :
    Shift w .takeRequest k f k f'
  | idle {id idle k f f'} (hp : f.phase = .ready) (hi : f.idle = id :: idle)
      (hf : Turn w (.idle id) { f with idle } f') : Shift w .takeIdle k f k f'
  | proceed {k f f'} (hf : Turn w .proceed f f') : Shift w .proceed k f k f'
  | render {card k f f'} (hf : Turn w .card f f') : Shift w (.render card) k f k f'
  | produce {reel op k f f'} (hf : Turn w .producer f f') : Shift w (.produce reel op) k f k f'

variable {w : World} {fades : Fades} {playlist : Playlist}

/-- What a step does to a deck, when it is possible. -/
inductive Stepped (w : World) (d : Deck) : Move → Deck → Prop where
  | give (c) : Stepped w d (.give c) (d.give c)
  | takeCommand {c commands} (hc : d.commands = c :: commands) (ho : d.control.closed = false) :
    Stepped w d .takeCommand
      { d with commands, control := d.control.onCommand (d.output.played w) c }
  | takeNotice {n} (hp : d.output.phase = .reporting n) (ho : d.control.closed = false) :
    Stepped w d .takeNotice { d with
      control := d.control.onNotice (d.output.played w) n
      output := d.output.acknowledged }
  | takeRequest {r} (hp : d.output.phase = .ready) (hr : d.nextRequest? = some r) :
    Stepped w d .takeRequest { d with
      output := { d.output with taken := d.output.taken + 1 }.handle w d.control.playlist r }
  | takeIdle {id idle} (hp : d.output.phase = .ready) (hi : d.output.idle = id :: idle) :
    Stepped w d .takeIdle { d with output := { d.output with idle }.onIdle id }
  | proceed {output} (ho : d.output.proceed w = some output) :
    Stepped w d .proceed { d with output }
  | giveUp {n} (hp : d.output.phase = .reporting n) (hc : d.control.closed = true) :
    Stepped w d .giveUp { d with output := d.output.acknowledged }
  | render {card card' output} (ho : d.output.render w d.volume card = some (output, card')) :
    Stepped w d (.render card) { d with output }
  | produce {reel op} : Stepped w d (.produce reel op)
      { d with output := d.output.onBuffer reel fun b => b.apply op }

theorem stepped_of_step {d d' : Deck} {m : Move} (h : d.step w m = some d') :
    Stepped w d m d' := by
  cases m with
  | give c => cases h; exact .give c
  | takeCommand =>
    simp only [step] at h
    split at h
    · next hc =>
      split at h
      · cases h
      · next ho =>
        cases h
        exact .takeCommand hc (Bool.eq_false_iff.2 ho)
    · cases h
  | takeNotice =>
    simp only [step] at h
    split at h
    · next hp =>
      split at h
      · cases h
      · next ho =>
        cases h
        exact .takeNotice hp (Bool.eq_false_iff.2 ho)
    · cases h
  | takeRequest =>
    simp only [step] at h
    split at h
    · next hp hr =>
      cases h
      exact .takeRequest hp hr
    · cases h
  | takeIdle =>
    simp only [step] at h
    split at h
    · next hp hi =>
      cases h
      exact .takeIdle hp hi
    · cases h
  | proceed =>
    obtain ⟨o, ho, rfl⟩ := Option.map_eq_some_iff.1 h
    exact .proceed ho
  | giveUp =>
    simp only [step] at h
    split at h
    · next hp =>
      split at h
      · next hc =>
        cases h
        exact .giveUp hp hc
      · cases h
    · cases h
  | render card =>
    obtain ⟨⟨o, card'⟩, ho, rfl⟩ := Option.map_eq_some_iff.1 h
    exact .render ho
  | produce reel op =>
    simp only [step] at h
    split at h <;> cases h
    exact .produce

/-- Every step is a shift. -/
theorem step_shift {d d' : Deck} {m : Move} (h : d.step w m = some d') :
    Shift w m d.control.sketch d.output.sketch d'.control.sketch d'.output.sketch := by
  cases stepped_of_step h with
  | give => exact .give
  | takeCommand _ ho => exact .command ho (Control.onCommand_ordered _ _)
  | @takeNotice n hp ho =>
    have hn := Control.onNotice_heard (c := d.control) (d.output.played w) n
    exact .notice ho hp hn.1 hn.2 (Output.acknowledged_turn hp)
  | @takeRequest r hp hr =>
    exact .request hp hr
      (Output.handle_turn (o := { d.output with taken := d.output.taken + 1 }) _ r)
  | @takeIdle id idle hp hi =>
    exact .idle hp hi (Output.onIdle_turn (o := { d.output with idle }) id)
  | proceed ho => exact .proceed (Output.proceed_turn ho)
  | giveUp hp hc => exact .giveUp hc (Output.acknowledged_turn hp)
  | render ho => exact .render (Output.render_turn ho)
  | @produce reel op => exact .produce (Output.produce_turn reel op)

theorem notice?_eq_some {d : Deck} {n : Notice} :
    d.notice? = some n ↔ d.output.phase = .reporting n := by
  unfold notice?
  cases d.output.phase <;> simp

theorem notice?_of_ready {d : Deck} (hp : d.output.phase = .ready) : d.notice? = none := by
  simp [notice?, hp]

/-! ### Steps that are possible -/

theorem takeRequest_possible {d : Deck} {r : Request} (hp : d.output.phase = .ready)
    (hr : d.nextRequest? = some r) : ∃ d', d.step w .takeRequest = some d' ∧
      d'.control = d.control ∧ Turn w (.request d.control.playlist r)
        { d.output.sketch with taken := d.output.taken + 1 } d'.output.sketch := by
  obtain ⟨d', hd'⟩ : ∃ d', d.step w .takeRequest = some d' := by simp [step, hp, hr]
  refine ⟨d', hd', ?_⟩
  cases stepped_of_step hd' with
  | takeRequest _ hr' =>
    cases hr.symm.trans hr'
    exact ⟨rfl, Output.handle_turn (o := { d.output with taken := d.output.taken + 1 }) _ r⟩

theorem takeIdle_possible {d : Deck} {id : Nat} {idle : List Nat} (hp : d.output.phase = .ready)
    (hi : d.output.idle = id :: idle) : ∃ d', d.step w .takeIdle = some d' ∧
      d'.control = d.control ∧
        Turn w (.idle id) { d.output.sketch with idle } d'.output.sketch := by
  obtain ⟨d', hd'⟩ : ∃ d', d.step w .takeIdle = some d' := by simp [step, hp, hi]
  refine ⟨d', hd', ?_⟩
  cases stepped_of_step hd' with
  | takeIdle _ hi' =>
    cases hi.symm.trans hi'
    exact ⟨rfl, Output.onIdle_turn (o := { d.output with idle }) id⟩

theorem takeNotice_possible {d : Deck} {n : Notice} (hp : d.output.phase = .reporting n)
    (ho : d.control.closed = false) : ∃ d', d.step w .takeNotice = some d' ∧
      (n.session = d.control.session → d.control.sketch.Heard n.event d'.control.sketch) ∧
      Turn w .acknowledgement d.output.sketch d'.output.sketch := by
  obtain ⟨d', hd'⟩ : ∃ d', d.step w .takeNotice = some d' := by simp [step, hp, ho]
  refine ⟨d', hd', ?_⟩
  cases step_shift hd' with
  | notice _ hp' hk _ hf =>
    rw [show d.output.sketch.phase = _ from hp] at hp'
    cases hp'
    exact ⟨hk, hf⟩

/-! ### Runs -/

theorem run_append (d : Deck) (ms ms' : List Move) :
    d.run w (ms ++ ms') = (d.run w ms).bind fun d => d.run w ms' := by
  induction ms generalizing d with
  | nil => rfl
  | cons m ms ih =>
    simp only [List.cons_append, run, Option.bind_assoc]
    congr 1
    exact funext ih

theorem Reachable.run {d d' : Deck} {moves : List Move} (h : Reachable w fades playlist d)
    (hrun : d.run w moves = some d') : Reachable w fades playlist d' := by
  obtain ⟨before, hbefore⟩ := h
  refine ⟨before ++ moves, ?_⟩
  rw [run_append, hbefore]
  exact hrun

/-- What every shift of these kinds keeps, a run of such steps keeps. -/
theorem run_keeps {P : Control.Sketch → Output.Sketch → Prop} {moves : List Move}
    (hstep : ∀ m ∈ moves, ∀ {k f k' f'}, P k f → Shift w m k f k' f' → P k' f') {d d' : Deck}
    (hd : P d.control.sketch d.output.sketch) (h : d.run w moves = some d') :
    P d'.control.sketch d'.output.sketch := by
  induction moves generalizing d with
  | nil => cases h; exact hd
  | cons m ms ih =>
    obtain ⟨d₁, h₁, h₂⟩ := Option.bind_eq_some_iff.1 h
    refine ih (fun m' hm' => hstep m' (List.mem_cons_of_mem _ hm')) ?_ h₂
    exact hstep m (List.mem_cons_self ..) hd (step_shift h₁)

/-- What holds before anything has happened and is kept by every shift always holds. -/
theorem Reachable.keeps {P : Control.Sketch → Output.Sketch → Prop}
    (hstart : P (initial fades playlist).control.sketch (initial fades playlist).output.sketch)
    (hstep : ∀ {m k f k' f'}, P k f → Shift w m k f k' f' → P k' f') {d : Deck}
    (h : Reachable w fades playlist d) : P d.control.sketch d.output.sketch :=
  h.elim fun _ hrun => run_keeps (fun _ _ => hstep) hstart hrun

/-! ### Runs without a command -/

variable {m : Move} {d d' : Deck}

/-- A deck can become another one without taking a command. -/
def Becomes (w : World) (d d' : Deck) : Prop :=
  ∃ moves, (∀ m ∈ moves, m ≠ .takeCommand) ∧ d.run w moves = some d'

theorem Becomes.refl : Becomes w d d := ⟨[], by simp, rfl⟩

theorem Becomes.step {d₁ : Deck} (hm : d.step w m = some d₁) (hne : m ≠ .takeCommand)
    (h : Becomes w d₁ d') : Becomes w d d' := by
  obtain ⟨moves, hmoves, hrun⟩ := h
  refine ⟨m :: moves, fun m' hm' => ?_, by simp [run, hm, hrun]⟩
  rcases List.mem_cons.1 hm' with rfl | hm'
  · exact hne
  · exact hmoves m' hm'

theorem Becomes.trans {d₁ : Deck} (h : Becomes w d d₁) (h' : Becomes w d₁ d') : Becomes w d d' := by
  obtain ⟨moves, hmoves, hrun⟩ := h
  obtain ⟨moves', hmoves', hrun'⟩ := h'
  refine ⟨moves ++ moves', fun m hm => ?_, by simp [run_append, hrun, hrun']⟩
  exact (List.mem_append.1 hm).elim (hmoves m) (hmoves' m)

/-! ### What a run yields -/

/-- What the steps of a run yield, oldest first. -/
def yields {α : Type} (y : Deck → Move → Deck → List α) (w : World) : Deck → List Move → List α
  | _, [] => []
  | d, m :: ms => ((d.step w m).map fun d' => y d m d' ++ yields y w d' ms).getD []

variable {d₀ : Deck}

theorem yields_concat {α : Type} (y : Deck → Move → Deck → List α) {before : List Move}
    (h : d₀.run w before = some d) (hm : d.step w m = some d') :
    yields y w d₀ (before ++ [m]) = yields y w d₀ before ++ y d m d' := by
  induction before generalizing d₀ with
  | nil =>
    cases h
    simp [yields, hm]
  | cons m₁ ms ih =>
    obtain ⟨d₁, hm₁, hrun⟩ := Option.bind_eq_some_iff.1 h
    simp only [List.cons_append, yields, hm₁, Option.map_some, Option.getD_some, ih hrun,
      List.append_assoc]

/-- What holds at first and is kept when a run grows by a step holds of every run. -/
theorem run_induction {P : List Move → Deck → Prop} (hnil : P [] d₀)
    (hstep : ∀ before m d d', d₀.run w before = some d → d.step w m = some d' → P before d →
      P (before ++ [m]) d') {moves : List Move} (h : d₀.run w moves = some d) : P moves d := by
  have extend : ∀ (after before : List Move) (d₁ : Deck), d₀.run w before = some d₁ →
      P before d₁ → d₁.run w after = some d → P (before ++ after) d := by
    intro after
    induction after with
    | nil =>
      rintro before d₁ - hP ⟨⟩
      rwa [List.append_nil]
    | cons m ms ih =>
      intro before d₁ hbefore hP hrun
      obtain ⟨d₂, hm, hrun⟩ := Option.bind_eq_some_iff.1 hrun
      have hnext := ih (before ++ [m]) d₂ (by simp [run_append, hbefore, run, hm])
        (hstep before m d₁ d₂ hbefore hm hP) hrun
      rwa [List.append_assoc] at hnext
  exact extend moves [] d₀ rfl hnil h

end Jukebox.Deck
