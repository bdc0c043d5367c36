import Jukebox.Proofs.Deck.Cursor
import Mathlib.Order.Bounds.Basic

/-!
Where a step in a playlist leads. Forwards it is the least place behind the cursor whose track can be
played, backwards the greatest one before it, and where there is none the cursor stays. Which tracks
can be played may change at any time, also for the one at the cursor; a list that is not empty still
has a current track. As long as that one can be played, a step and a step back cancel out.
-/

namespace Jukebox.Playlist

variable {p : Playlist} {i : Nat}

/-! ### The nearest places -/

theorem lt_size_of_isPlayable (h : p.isPlayable i) : i < p.size := by
  rw [isPlayable, Option.any_eq_true] at h
  obtain ⟨t, ht, -⟩ := h
  exact (List.getElem?_eq_some_iff.1 ht).1

/-- The last number below a bound that passes a test. -/
theorem find?_reverse_range_eq_some {n : Nat} {test : Nat → Bool} :
    (List.range n).reverse.find? test = some i ↔
      test i ∧ i < n ∧ ∀ j, i < j → j < n → test j = false := by
  -- the number just below the bound is the first to be tested
  induction n with
  | zero => simp
  | succ n ih =>
    rw [List.range_succ, List.reverse_append, List.reverse_singleton, List.singleton_append,
      List.find?_cons]
    cases hn : test n with
    | true =>
      constructor
      · rintro ⟨⟩
        refine ⟨hn, Nat.lt_succ_self _, ?_⟩
        intro j hj hjn
        omega
      · rintro ⟨-, hi, hlast⟩
        by_contra hne
        have hlt : i < n := lt_of_le_of_ne (Nat.le_of_lt_succ hi) (fun h => hne (h ▸ rfl))
        rw [hlast n hlt (Nat.lt_succ_self n)] at hn
        cases hn
    | false =>
      rw [ih]
      constructor
      · rintro ⟨hi, hlt, hlast⟩
        refine ⟨hi, Nat.lt_succ_of_lt hlt, ?_⟩
        intro j hij hj
        rcases Nat.lt_succ_iff_lt_or_eq.1 hj with hj | rfl
        · exact hlast j hij hj
        · exact hn
      · rintro ⟨hi, hlt, hlast⟩
        refine ⟨hi, ?_, fun j hij hj => hlast j hij (Nat.lt_succ_of_lt hj)⟩
        rcases Nat.lt_succ_iff_lt_or_eq.1 hlt with hlt | rfl
        · exact hlt
        · rw [hn] at hi
          cases hi

/-- The next place is the least playable one behind the cursor. -/
theorem nextIndex?_eq_some_iff :
    p.nextIndex? = some i ↔ IsLeast {j | p.cursor < j ∧ p.isPlayable j} i := by
  rw [nextIndex?, List.find?_range_eq_some]
  simp only [Bool.and_eq_true, decide_eq_true_eq, List.mem_range]
  constructor
  · rintro ⟨hi, -, hfirst⟩
    refine ⟨hi, ?_⟩
    rintro j hj
    by_contra hlt
    have hnot := hfirst j (not_le.1 hlt)
    rw [decide_eq_true hj.1, hj.2] at hnot
    cases hnot
  · rintro ⟨hi, hleast⟩
    refine ⟨hi, lt_size_of_isPlayable hi.2, ?_⟩
    intro j hj
    rw [Bool.not_eq_true', Bool.and_eq_false_imp, decide_eq_true_eq]
    intro hcursor
    by_contra hplay
    exact absurd (hleast ⟨hcursor, by simpa using hplay⟩) (not_le.2 hj)

/-- The previous place is the greatest playable one before the cursor. -/
theorem prevIndex?_eq_some_iff :
    p.prevIndex? = some i ↔ IsGreatest {j | j < p.cursor ∧ p.isPlayable j} i := by
  rw [prevIndex?, find?_reverse_range_eq_some]
  constructor
  · rintro ⟨hi, hlt, hlast⟩
    refine ⟨⟨lt_of_lt_of_le hlt (min_le_left _ _), hi⟩, ?_⟩
    rintro j ⟨hj, hplay⟩
    by_contra hle
    rw [hlast j (not_le.1 hle) (lt_min hj (lt_size_of_isPlayable hplay))] at hplay
    cases hplay
  · rintro ⟨⟨hcursor, hi⟩, hgreatest⟩
    refine ⟨hi, lt_min hcursor (lt_size_of_isPlayable hi), ?_⟩
    intro j hij hj
    by_contra hplay
    have hle : j ≤ i := hgreatest ⟨lt_of_lt_of_le hj (min_le_left _ _), by simpa using hplay⟩
    omega

/-! ### A step -/

/-- A step is announced exactly where there is a nearest place. It goes there, to a track that can be
played, and does nothing where there is none. -/
structure StepsTo (p : Playlist) (able : Bool) (step : Playlist × Option Nat)
    (Nearest : Nat → Prop) : Prop where
  isSome : step.2.isSome = able
  eq_some_iff : ∀ i, step.2 = some i ↔ Nearest i
  lands : ∀ i, step.2 = some i → step.1 = { p with cursor := i } ∧ step.1.current? = some i ∧
    ∃ t, p.track? i = some t ∧ t.playable
  stays : step.2 = none → step.1 = p

theorem stepsTo_moveTo {i? : Option Nat} {Nearest : Nat → Prop}
    (h : ∀ i, i? = some i ↔ Nearest i) (hplay : ∀ i, Nearest i → p.isPlayable i) :
    p.StepsTo i?.isSome (p.moveTo i?) Nearest := by
  cases i? with
  | none => exact ⟨rfl, h, by rintro _ ⟨⟩, fun _ => rfl⟩
  | some i =>
    refine ⟨rfl, h, ?_, by rintro ⟨⟩⟩
    rintro _ ⟨⟩
    have hi : p.isPlayable i := hplay i ((h i).1 rfl)
    exact ⟨rfl, if_pos (lt_size_of_isPlayable hi), (Option.any_eq_true ..).1 hi⟩

theorem next_stepsTo (p : Playlist) :
    p.StepsTo p.hasNext p.next (IsLeast {j | p.cursor < j ∧ p.isPlayable j}) :=
  stepsTo_moveTo (fun _ => nextIndex?_eq_some_iff) fun _ h => h.1.2

theorem prev_stepsTo (p : Playlist) :
    p.StepsTo p.hasPrev p.prev (IsGreatest {j | j < p.cursor ∧ p.isPlayable j}) :=
  stepsTo_moveTo (fun _ => prevIndex?_eq_some_iff) fun _ h => h.1.2

/-! ### A step and a step back -/

/-- Behind a step forwards, the place that was left is the greatest before the cursor. -/
theorem prev_next (hplay : p.isPlayable p.cursor) (h : p.hasNext) :
    p.next.1.prev = (p, some p.cursor) := by
  obtain ⟨i, hi⟩ := Option.isSome_iff_exists.1 h
  obtain ⟨⟨hlt, -⟩, hleast⟩ := nextIndex?_eq_some_iff.1 hi
  have hback : ({ p with cursor := i } : Playlist).prevIndex? = some p.cursor := by
    rw [prevIndex?_eq_some_iff]
    refine ⟨⟨hlt, hplay⟩, ?_⟩
    rintro j ⟨hj, hjplay⟩
    by_contra hbehind
    exact absurd (hleast ⟨not_le.1 hbehind, hjplay⟩) (not_le.2 hj)
  rw [next, hi, moveTo, prev, hback, moveTo]

theorem next_prev (hplay : p.isPlayable p.cursor) (h : p.hasPrev) :
    p.prev.1.next = (p, some p.cursor) := by
  obtain ⟨i, hi⟩ := Option.isSome_iff_exists.1 h
  obtain ⟨⟨hlt, -⟩, hgreatest⟩ := prevIndex?_eq_some_iff.1 hi
  have hback : ({ p with cursor := i } : Playlist).nextIndex? = some p.cursor := by
    rw [nextIndex?_eq_some_iff]
    refine ⟨⟨hlt, hplay⟩, ?_⟩
    rintro j ⟨hj, hjplay⟩
    by_contra hbefore
    exact absurd (hgreatest ⟨not_le.1 hbefore, hjplay⟩) (not_le.2 hj)
  rw [prev, hi, moveTo, next, hback, moveTo]

/-! ### A run -/

/-- What happens to a playlist: a step, or other tracks can be played than before. -/
inductive Event where
  | next
  | prev
  | flag (playable : Nat → Bool)

def apply (p : Playlist) : Event → Playlist
  | .next => p.next.1
  | .prev => p.prev.1
  | .flag playable => p.flag playable

def run (p : Playlist) (events : List Event) : Playlist := events.foldl apply p

theorem size_apply (p : Playlist) (e : Event) : (p.apply e).size = p.size := by
  cases e with
  | next => exact congrArg List.length tracks_next
  | prev => exact congrArg List.length tracks_prev
  | flag playable => exact size_flag playable

theorem lt_of_apply (h : p.cursor < p.size) (e : Event) : (p.apply e).cursor < (p.apply e).size := by
  cases e with
  | next => exact lt_of_next h
  | prev => exact lt_of_prev h
  | flag playable =>
    rw [size_apply]
    exact h

theorem size_run (p : Playlist) (events : List Event) : (p.run events).size = p.size := by
  induction events generalizing p with
  | nil => rfl
  | cons e events ih => exact (ih (p.apply e)).trans (size_apply p e)

theorem lt_of_run (h : p.cursor < p.size) (events : List Event) :
    (p.run events).cursor < (p.run events).size := by
  induction events generalizing p with
  | nil => exact h
  | cons e events ih => exact ih (lt_of_apply h e)

/-- However the cursor got where it is and whatever can be played there: a step forwards goes to the
nearest playable track behind it and a step backwards to the nearest one before it, each exactly when
it is announced, and else nothing moves; a list with tracks has a current one; and from a track that
can be played a step and a step back lead to it again. -/
theorem steps_go_to_the_nearest (tracks : List Track) (events : List Event) :
    let p := ({ tracks } : Playlist).run events
    p.StepsTo p.hasNext p.next (IsLeast {i | p.cursor < i ∧ p.isPlayable i}) ∧
      p.StepsTo p.hasPrev p.prev (IsGreatest {i | i < p.cursor ∧ p.isPlayable i}) ∧
      (tracks ≠ [] → p.cursor < tracks.length ∧ p.current? = some p.cursor) ∧
      (p.isPlayable p.cursor → p.hasNext → p.next.1.prev = (p, some p.cursor)) ∧
      (p.isPlayable p.cursor → p.hasPrev → p.prev.1.next = (p, some p.cursor)) := by
  intro p
  refine ⟨next_stepsTo p, prev_stepsTo p, ?_, prev_next, next_prev⟩
  intro hne
  have hsize : p.size = tracks.length := size_run _ events
  have hlt : p.cursor < p.size := lt_of_run (List.length_pos_iff.2 hne) events
  exact ⟨hsize ▸ hlt, current?_eq_some hlt⟩

end Jukebox.Playlist
