import Jukebox.Console.Loop

/-!
When the program ends. A loop whose prompt is open ends with a line that quits; one whose prompt is
closed ends with the news that the player has stopped; an interrupt ends both, and so does the end of
all news. So after the prompt has closed the loop takes the news of a stop, but one that came before
is not remembered: a program whose player had stopped already when the prompt closed goes on waiting,
with nothing left to do.
-/

namespace Jukebox.Console

/-- The state that the player has reached, if this is news of it. -/
def Signal.reached? : Signal → Option Transport.State
  | .news (.stateChanged _ after) => some after
  | _ => none

def Signal.isClosing : Signal → Bool
  | .closed => true
  | _ => false

/-- Does a line end the program? -/
def quits (text : String) : Bool :=
  match Input.parse? text with
  | some .quit => true
  | _ => false

/-- Does a signal end a loop whose prompt is open, or closed? -/
def Signal.ends (listening : Bool) : Signal → Bool
  | .line text => listening && quits text
  | .closed => false
  | .news n => !listening && decide ((Signal.news n).reached? = some .stopped)
  | .silence | .interrupt => true

/-- The signals before the prompt closes. -/
def beforeClosing (signals : List Signal) : List Signal :=
  signals.takeWhile fun s => !s.isClosing

/-- The signals from the closing of the prompt on. -/
def fromClosing (signals : List Signal) : List Signal :=
  signals.dropWhile fun s => !s.isClosing

/-- The state that the player was last reported in. -/
def lastReached? (signals : List Signal) : Option Transport.State :=
  (signals.filterMap Signal.reached?).getLast?

/-- The program is ended: by an interrupt, by the end of all news, or by a line as long as the prompt
is open. -/
def Dismissed (signals : List Signal) : Prop :=
  .interrupt ∈ signals ∨ .silence ∈ signals ∨ ∃ text, .line text ∈ beforeClosing signals ∧ quits text

variable {l : Loop} {signals : List Signal}

namespace Loop

/-! ### One signal -/

theorem step_line (hl : l.listening = true) (text : String) :
    ((l.line text).1.running = (l.running && !quits text)) ∧ (l.line text).1.listening = true := by
  unfold line quits
  split <;> simp_all

/-- What one signal does to a loop that still waits. -/
theorem step_running (hr : l.running = true) (s : Signal) :
    (l.step s).1.running = !s.ends l.listening ∧
      (l.step s).1.listening = (l.listening && !s.isClosing) := by
  unfold step
  rw [if_neg (by simp [hr])]
  cases s with
  | line text =>
    cases hl : l.listening with
    | true =>
      have hline := step_line hl text
      rw [hr, Bool.true_and] at hline
      simpa [Signal.ends, Signal.isClosing] using hline
    | false => simp [Signal.ends, hr, hl]
  | closed => simp [Signal.ends, Signal.isClosing, hr]
  | silence | interrupt => simp [Signal.ends, Signal.isClosing]
  | news n =>
    cases n with
    | stateChanged before after =>
      by_cases hstop : after = .stopped ∧ ¬ l.listening = true
      · simp [news, Signal.ends, Signal.isClosing, Signal.reached?, hstop]
      · cases hl : l.listening <;>
          simp_all [news, Signal.ends, Signal.isClosing, Signal.reached?]
    | _ => simp [news, Signal.ends, Signal.isClosing, Signal.reached?, hr]

/-! ### Runs -/

theorem run_cons (l : Loop) (s : Signal) (signals : List Signal) :
    l.run (s :: signals) = (l.step s).1.run signals := rfl

/-- A loop that has ended stays so. -/
theorem run_ended (hr : l.running = false) (signals : List Signal) : l.run signals = l := by
  induction signals with
  | nil => rfl
  | cons s signals ih =>
    have hstep : (l.step s).1 = l := by simp [step, hr]
    rw [run_cons, hstep, ih]

/-- A loop whose prompt is closed waits for the first signal that ends it. -/
theorem run_closed (hr : l.running = true) (hl : l.listening = false) (signals : List Signal) :
    (l.run signals).running = !signals.any (Signal.ends false) := by
  induction signals generalizing l with
  | nil => simpa [run] using hr
  | cons s signals ih =>
    obtain ⟨hrun, hlisten⟩ := step_running hr s
    rw [hl] at hrun hlisten
    rw [run_cons, List.any_cons]
    cases he : s.ends false with
    | true =>
      rw [he, Bool.not_true] at hrun
      rw [run_ended hrun, hrun]
      rfl
    | false =>
      rw [he, Bool.not_false] at hrun
      rw [ih hrun (by simpa using hlisten)]
      rfl

/-- A loop whose prompt is open waits for what ends it before the prompt closes, and then for what
ends it afterwards. -/
theorem run_open (hr : l.running = true) (hl : l.listening = true) (signals : List Signal) :
    (l.run signals).running =
      !((beforeClosing signals).any (Signal.ends true) ||
        (fromClosing signals).any (Signal.ends false)) := by
  induction signals generalizing l with
  | nil => simpa [run, beforeClosing, fromClosing] using hr
  | cons s signals ih =>
    obtain ⟨hrun, hlisten⟩ := step_running hr s
    rw [hl, Bool.true_and] at hlisten
    rw [hl] at hrun
    cases hc : s.isClosing with
    | true =>
      have hs : s = .closed := by
        cases s <;> first | rfl | cases hc
      subst hs
      -- from here on the loop is a closed one
      have hnone : beforeClosing (.closed :: signals) = [] := rfl
      rw [run_cons, run_closed hrun (by simpa [hc] using hlisten), hnone]
      rfl
    | false =>
      have hbefore : beforeClosing (s :: signals) = s :: beforeClosing signals := by
        simp [beforeClosing, hc]
      have hfrom : fromClosing (s :: signals) = fromClosing signals := by
        simp [fromClosing, hc]
      rw [run_cons, hbefore, hfrom, List.any_cons]
      cases he : s.ends true with
      | true =>
        rw [he, Bool.not_true] at hrun
        rw [run_ended hrun, hrun]
        rfl
      | false =>
        rw [he, Bool.not_false] at hrun
        rw [ih hrun (by simpa [hc] using hlisten)]
        rfl

end Loop

/-! ### What ends it -/

theorem beforeClosing_append_fromClosing (signals : List Signal) :
    beforeClosing signals ++ fromClosing signals = signals := List.takeWhile_append_dropWhile

/-- A loop that began with an open prompt has ended exactly if it has been ended, or the player stopped
after the prompt had closed. -/
theorem run_ended_iff (signals : List Signal) :
    (Loop.run {} signals).running = false ↔
      Dismissed signals ∨ ∃ s ∈ fromClosing signals, s.reached? = some .stopped := by
  have hsplit : ∀ s, s ∈ signals ↔ s ∈ beforeClosing signals ∨ s ∈ fromClosing signals := by
    intro s
    rw [← List.mem_append, beforeClosing_append_fromClosing]
  rw [Loop.run_open rfl rfl, Bool.not_eq_false', Bool.or_eq_true, List.any_eq_true,
    List.any_eq_true]
  constructor
  · rintro (⟨s, hs, he⟩ | ⟨s, hs, he⟩)
    · cases s with
      | line text => exact .inl (.inr (.inr ⟨text, hs, by simpa [Signal.ends] using he⟩))
      | silence => exact .inl (.inr (.inl ((hsplit _).2 (.inl hs))))
      | interrupt => exact .inl (.inl ((hsplit _).2 (.inl hs)))
      | closed | news => simp [Signal.ends] at he
    · cases s with
      | news n => exact .inr ⟨_, hs, by simpa [Signal.ends] using he⟩
      | silence => exact .inl (.inr (.inl ((hsplit _).2 (.inr hs))))
      | interrupt => exact .inl (.inl ((hsplit _).2 (.inr hs)))
      | closed | line => simp [Signal.ends] at he
  · have always : ∀ s ∈ signals, s.ends true = true → s.ends false = true →
        (∃ s ∈ beforeClosing signals, s.ends true = true) ∨
          ∃ s ∈ fromClosing signals, s.ends false = true := by
      intro s hs hopen hclosed
      exact ((hsplit s).1 hs).imp (fun hs => ⟨s, hs, hopen⟩) fun hs => ⟨s, hs, hclosed⟩
    rintro ((hend | hend | ⟨text, hs, he⟩) | ⟨s, hs, he⟩)
    · exact always _ hend rfl rfl
    · exact always _ hend rfl rfl
    · exact .inl ⟨_, hs, by simpa [Signal.ends] using he⟩
    · refine .inr ⟨s, hs, ?_⟩
      cases s with
      | news n => simpa [Signal.ends] using he
      | _ => cases he

theorem lastReached?_append (before after : List Signal) :
    lastReached? (before ++ after) = (lastReached? after).or (lastReached? before) := by
  simp [lastReached?, List.getLast?_append]

/-- A program whose player was last reported stopped has ended exactly if it has been ended, or that
report came after the prompt had closed. -/
theorem ends_iff_stopped_after_closing (hlast : lastReached? signals = some .stopped) :
    (Loop.run {} signals).running = false ↔
      Dismissed signals ∨ (lastReached? (fromClosing signals)).isSome := by
  rw [run_ended_iff]
  refine or_congr_right ⟨fun ⟨s, hs, hreached⟩ => ?_, fun h => ?_⟩
  · rw [Option.isSome_iff_ne_none, lastReached?, Ne, List.getLast?_eq_none_iff]
    exact List.ne_nil_of_mem (List.mem_filterMap.2 ⟨s, hs, hreached⟩)
  · -- the last report after the closing is the last of all
    obtain ⟨state, hstate⟩ := Option.isSome_iff_exists.1 h
    rw [← beforeClosing_append_fromClosing signals, lastReached?_append, hstate,
      Option.some_or] at hlast
    rw [hlast] at hstate
    exact List.mem_filterMap.1 (List.mem_of_getLast? hstate)

/-- The prompt closes while a track is played, and then the player stops. -/
def playedOut : List Signal :=
  [.news (.stateChanged .starting .playing), .line "i", .closed,
    .news (.stateChanged .playing .stopped)]

/-- The player stops, and then the prompt closes. -/
def leftAlone : List Signal := [.news (.stateChanged .starting .stopped), .closed]

theorem ends_when_played_out :
    .closed ∈ playedOut ∧ lastReached? playedOut = some .stopped ∧
      (Loop.run {} playedOut).running = false := by
  have hlast : lastReached? playedOut = some .stopped := rfl
  have hafter : (lastReached? (fromClosing playedOut)).isSome := rfl
  exact ⟨by simp [playedOut], hlast, (ends_iff_stopped_after_closing hlast).2 (.inr hafter)⟩

/-- A player that stopped before the prompt closed leaves a program that waits for nothing. -/
theorem waits_when_left_alone :
    .closed ∈ leftAlone ∧ lastReached? leftAlone = some .stopped ∧
      (Loop.run {} leftAlone).running = true :=
  ⟨by simp [leftAlone], rfl, rfl⟩

end Jukebox.Console
