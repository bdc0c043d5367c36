import Jukebox.Device.Choice
import Jukebox.Proofs.Greatest
import Mathlib.Data.Prod.Lex
import Mathlib.Order.Bounds.Basic

/-!
Which configuration is chosen. The choice is a fold that keeps the range no later one beats, so it
ends with the first range that is worth at least as much as every other one. Read against the rates a
card can be driven at, this is the highest rate at or below the target. When every range lies above
the target it is the highest of the lowest rates, although the nearest one was meant.
-/

namespace Jukebox.Device

variable {target : Option Nat} {t rate : Nat} {a b r s : ConfigRange} {ranges : List ConfigRange}

namespace ConfigRange

/-- What a range is worth: lying at or below the target first, then its rate, then its samples. -/
def worth (target : Option Nat) (r : ConfigRange) : Bool ×ₗ ℕ ×ₗ ℕᵒᵈ :=
  toLex (r.isBelow target, toLex (r.rateFor target, OrderDual.toDual r.rank))

theorem beats_iff_worth_lt : a.beats target b ↔ b.worth target < a.worth target := by
  simp only [beats, worth, Prod.Lex.toLex_lt_toLex, OrderDual.toDual_lt_toDual, Bool.lt_iff]
  cases a.isBelow target <;> cases b.isBelow target <;> simp <;> grind

theorem isBelow_le_of_worth_le (h : s.worth target ≤ r.worth target) :
    s.isBelow target ≤ r.isBelow target := by
  rcases Prod.Lex.toLex_le_toLex.1 h with hlt | ⟨heq, -⟩
  · exact hlt.le
  · exact heq.le

theorem rateFor_le_of_worth_le (h : s.worth target ≤ r.worth target)
    (hb : s.isBelow target = r.isBelow target) : s.rateFor target ≤ r.rateFor target := by
  rcases Prod.Lex.toLex_le_toLex.1 h with hlt | ⟨-, hle⟩
  · exact absurd hb hlt.ne
  · rcases Prod.Lex.toLex_le_toLex.1 hle with hlt | ⟨heq, -⟩
    · exact hlt.le
    · exact heq.le

/-- Ranges with the same rate lie on the same side of the target. -/
theorem isBelow_of_rateFor_eq (h : s.rateFor target = r.rateFor target) :
    s.isBelow target = r.isBelow target := by
  cases target with
  | none => rfl
  | some t => simp only [isBelow, Option.all_some, h]

theorem worth_lt_iff_rank (h : s.rateFor target = r.rateFor target) :
    s.worth target < r.worth target ↔ r.rank < s.rank := by
  simp [worth, Prod.Lex.toLex_lt_toLex, isBelow_of_rateFor_eq h, h]

theorem worth_le_iff_rank (h : s.rateFor target = r.rateFor target) :
    s.worth target ≤ r.worth target ↔ r.rank ≤ s.rank := by
  simp [worth, Prod.Lex.toLex_le_toLex, isBelow_of_rateFor_eq h, h]

/-! ### The rate of a range -/

/-- Can a range be driven at a rate? -/
def Delivers (r : ConfigRange) (rate : Nat) : Prop := r.minRate ≤ rate ∧ rate ≤ r.maxRate

instance : Decidable (r.Delivers rate) := inferInstanceAs (Decidable (_ ∧ _))

theorem rateFor_some_of_le (h : r.minRate ≤ t) : r.rateFor (some t) = min t r.maxRate := by
  simp only [rateFor, max_eq_left h]

theorem rateFor_some_of_lt (hr : r.minRate ≤ r.maxRate) (h : t < r.minRate) :
    r.rateFor (some t) = r.minRate := by
  simp only [rateFor, max_eq_right h.le, min_eq_left hr]

theorem isBelow_some_iff (hr : r.minRate ≤ r.maxRate) : r.isBelow (some t) ↔ r.minRate ≤ t := by
  simp only [isBelow, Option.all_some, decide_eq_true_eq]
  constructor
  · intro h
    by_contra hlt
    rw [rateFor_some_of_lt hr (not_le.1 hlt)] at h
    exact hlt h
  · intro h
    rw [rateFor_some_of_le h]
    exact min_le_left _ _

/-- The rate of a range is one it can be driven at. -/
theorem delivers_rateFor (hr : r.minRate ≤ r.maxRate) : r.Delivers (r.rateFor target) := by
  cases target with
  | none => exact ⟨hr, le_refl _⟩
  | some t => exact ⟨le_min (le_max_right _ _) hr, min_le_right _ _⟩

/-- Of the rates at or below the target, a range is driven at the highest one it can be. -/
theorem le_rateFor (h : r.Delivers rate) (hle : rate ≤ t) : rate ≤ r.rateFor (some t) :=
  le_min (le_trans hle (le_max_left _ _)) h.2

end ConfigRange

open ConfigRange

/-! ### The fold -/

/-- A range that is worth more than those before it and no less than those after it. -/
def FirstBest (target : Option Nat) (ranges : List ConfigRange) (r : ConfigRange) : Prop :=
  ∃ before after, ranges = before ++ r :: after ∧
    (∀ s ∈ before, s.worth target < r.worth target) ∧ ∀ s ∈ after, s.worth target ≤ r.worth target

namespace FirstBest

theorem worth_le (h : FirstBest target ranges r) (hs : s ∈ ranges) :
    s.worth target ≤ r.worth target := by
  obtain ⟨before, after, rfl, hb, ha⟩ := h
  rcases List.mem_append.1 hs with hs | hs
  · exact (hb s hs).le
  · rcases List.mem_cons.1 hs with rfl | hs
    · exact le_refl _
    · exact ha s hs

theorem mem (h : FirstBest target ranges r) : r ∈ ranges := by
  obtain ⟨before, after, rfl, -⟩ := h
  simp

end FirstBest

theorem best_eq_argmax (target : Option Nat) (ranges : List ConfigRange) :
    best target ranges = ranges.argmax (worth target) := by
  rw [best, List.argmax]
  congr 1
  funext best r
  cases best with
  | none => rfl
  | some b =>
    by_cases hbeats : r.beats target b
    · exact (if_pos hbeats).trans (if_pos (beats_iff_worth_lt.1 hbeats)).symm
    · exact (if_neg hbeats).trans (if_neg fun hlt => hbeats (beats_iff_worth_lt.2 hlt)).symm

theorem best_eq_none_iff : best target ranges = none ↔ ranges = [] := by
  rw [best_eq_argmax, List.argmax_eq_none]

theorem firstBest_of_best (h : best target ranges = some r) : FirstBest target ranges r := by
  rw [best_eq_argmax] at h
  exact exists_split_of_argmax h

/-! ### What is chosen -/

/-- Of the ranges that pass a test, the first one with the best kind of sample. -/
def FirstKind (ok : ConfigRange → Prop) (ranges : List ConfigRange) (r : ConfigRange) : Prop :=
  ∃ before after, ranges = before ++ r :: after ∧ ok r ∧
    (∀ s ∈ before, ok s → r.rank < s.rank) ∧ ∀ s ∈ after, ok s → r.rank ≤ s.rank

theorem FirstKind.of_iff {ok ok' : ConfigRange → Prop} (h : FirstKind ok ranges r)
    (hiff : ∀ s ∈ ranges, ok s ↔ ok' s) : FirstKind ok' ranges r := by
  obtain ⟨before, after, rfl, hr, hb, ha⟩ := h
  refine ⟨before, after, rfl, (hiff r (by simp)).1 hr, ?_, ?_⟩
  · intro s hs hok
    exact hb s hs ((hiff s (by simp [hs])).2 hok)
  · intro s hs hok
    exact ha s hs ((hiff s (by simp [hs])).2 hok)

/-- Among the ranges driven at the same rate the first best one has the best kind of sample. -/
theorem FirstBest.firstKind (h : FirstBest target ranges r) :
    FirstKind (fun s => s.rateFor target = r.rateFor target) ranges r := by
  obtain ⟨before, after, rfl, hb, ha⟩ := h
  refine ⟨before, after, rfl, rfl, ?_, ?_⟩
  · intro s hs heq
    exact (worth_lt_iff_rank heq).1 (hb s hs)
  · intro s hs heq
    exact (worth_le_iff_rank heq).1 (ha s hs)

/-- The rate that is meant: the highest one the ranges deliver at or below the target, the lowest one
when all of them lie above it, and the highest of all without a target. -/
def IsMeantRate (ranges : List ConfigRange) : Option Nat → Nat → Prop
  | none, rate => IsGreatest {q | ∃ s ∈ ranges, s.Delivers q} rate
  | some t, rate =>
    ((∃ s ∈ ranges, s.minRate ≤ t) → IsGreatest {q | q ≤ t ∧ ∃ s ∈ ranges, s.Delivers q} rate) ∧
    ((∀ s ∈ ranges, t < s.minRate) → IsLeast {q | ∃ s ∈ ranges, s.Delivers q} rate)

/-- The choice that is meant: the meant rate, and of the ranges that deliver it the first one with the
best kind of sample. -/
structure IsMeant (target : Option Nat) (ranges : List ConfigRange) (r : ConfigRange) : Prop where
  rate : IsMeantRate ranges target (r.rateFor target)
  kind : FirstKind (fun s => s.Delivers (r.rateFor target)) ranges r

/-- Without a target the highest rate of all is chosen. -/
theorem FirstBest.isMeant_none (hr : ∀ s ∈ ranges, s.minRate ≤ s.maxRate)
    (h : FirstBest none ranges r) : IsMeant none ranges r := by
  have hle : ∀ s ∈ ranges, s.maxRate ≤ r.maxRate := by
    intro s hs
    exact rateFor_le_of_worth_le (h.worth_le hs) rfl
  constructor
  · refine ⟨⟨r, h.mem, delivers_rateFor (hr r h.mem)⟩, ?_⟩
    rintro q ⟨s, hs, hq⟩
    exact le_trans hq.2 (hle s hs)
  · refine h.firstKind.of_iff ?_
    intro s hs
    constructor
    · intro heq
      rw [← heq]
      exact delivers_rateFor (hr s hs)
    · intro hd
      exact le_antisymm (hle s hs) hd.2

/-- With a range at or below the target the highest rate up to the target is chosen. -/
theorem FirstBest.isMeant_below (hr : ∀ s ∈ ranges, s.minRate ≤ s.maxRate)
    (h : FirstBest (some t) ranges r) (hex : ∃ s ∈ ranges, s.minRate ≤ t) :
    IsMeant (some t) ranges r := by
  obtain ⟨z, hz, hzt⟩ := hex
  have hzb : z.isBelow (some t) := (isBelow_some_iff (hr z hz)).2 hzt
  have hrb : r.isBelow (some t) := isBelow_le_of_worth_le (h.worth_le hz) hzb
  have hrt : r.rateFor (some t) ≤ t := of_decide_eq_true hrb
  -- a range that delivers some rate up to the target lies below it, like the chosen one
  have hle : ∀ s ∈ ranges, ∀ q ≤ t, s.Delivers q → q ≤ r.rateFor (some t) := by
    intro s hs q hqt hq
    have hsb : s.isBelow (some t) := (isBelow_some_iff (hr s hs)).2 (le_trans hq.1 hqt)
    exact le_trans (le_rateFor hq hqt)
      (rateFor_le_of_worth_le (h.worth_le hs) (hsb.trans hrb.symm))
  constructor
  · constructor
    · intro _
      refine ⟨⟨hrt, r, h.mem, delivers_rateFor (hr r h.mem)⟩, ?_⟩
      rintro q ⟨hqt, s, hs, hq⟩
      exact hle s hs q hqt hq
    · intro hall
      exact absurd hzt (not_le.2 (hall z hz))
  · refine h.firstKind.of_iff ?_
    intro s hs
    constructor
    · intro heq
      rw [← heq]
      exact delivers_rateFor (hr s hs)
    · intro hd
      have hst : s.minRate ≤ t := le_trans hd.1 hrt
      have hsd : s.Delivers (s.rateFor (some t)) := delivers_rateFor (hr s hs)
      have hup : s.rateFor (some t) ≤ t := of_decide_eq_true ((isBelow_some_iff (hr s hs)).2 hst)
      exact le_antisymm (hle s hs _ hup hsd) (le_rateFor hd hrt)

/-- With all ranges above the target the highest of their lowest rates is chosen. -/
theorem FirstBest.greatest_above (hr : ∀ s ∈ ranges, s.minRate ≤ s.maxRate)
    (h : FirstBest (some t) ranges r) (hall : ∀ s ∈ ranges, t < s.minRate) :
    IsGreatest {q | ∃ s ∈ ranges, s.minRate = q} (r.rateFor (some t)) ∧
      FirstKind (fun s => s.minRate = r.rateFor (some t)) ranges r := by
  have hrate : ∀ s ∈ ranges, s.rateFor (some t) = s.minRate := by
    intro s hs
    exact rateFor_some_of_lt (hr s hs) (hall s hs)
  have habove : ∀ s ∈ ranges, s.isBelow (some t) = false := by
    intro s hs
    rw [Bool.eq_false_iff]
    intro hb
    exact absurd ((isBelow_some_iff (hr s hs)).1 hb) (not_le.2 (hall s hs))
  constructor
  · refine ⟨⟨r, h.mem, (hrate r h.mem).symm⟩, ?_⟩
    rintro q ⟨s, hs, rfl⟩
    rw [← hrate s hs]
    exact rateFor_le_of_worth_le (h.worth_le hs) ((habove s hs).trans (habove r h.mem).symm)
  · refine h.firstKind.of_iff ?_
    intro s hs
    rw [hrate s hs]

/-- Above the target the choice is the meant one when it makes no difference. -/
theorem FirstBest.isMeant_above_iff (hr : ∀ s ∈ ranges, s.minRate ≤ s.maxRate)
    (h : FirstBest (some t) ranges r) (hall : ∀ s ∈ ranges, t < s.minRate) :
    IsMeant (some t) ranges r ↔ ∀ s ∈ ranges, ∀ s' ∈ ranges, s.minRate = s'.minRate := by
  obtain ⟨⟨⟨z, hz, hzr⟩, hgreatest⟩, hkind⟩ := h.greatest_above hr hall
  constructor
  · intro hm
    have hall' : ∀ s ∈ ranges, s.minRate = r.rateFor (some t) := by
      intro s hs
      refine le_antisymm (hgreatest ⟨s, hs, rfl⟩) ?_
      exact (hm.rate.2 hall).2 ⟨s, hs, le_refl _, hr s hs⟩
    intro s hs s' hs'
    rw [hall' s hs, hall' s' hs']
  · intro hsame
    have hall' : ∀ s ∈ ranges, s.minRate = r.rateFor (some t) := by
      intro s hs
      rw [← hzr]
      exact hsame s hs z hz
    constructor
    · constructor
      · rintro ⟨s, hs, hst⟩
        exact absurd hst (not_le.2 (hall s hs))
      · intro _
        refine ⟨⟨r, h.mem, delivers_rateFor (hr r h.mem)⟩, ?_⟩
        rintro q ⟨s, hs, hq⟩
        rw [← hall' s hs]
        exact hq.1
    · refine hkind.of_iff ?_
      intro s hs
      constructor
      · intro heq
        rw [← heq]
        exact ⟨le_refl _, hr s hs⟩
      · intro _
        exact hall' s hs

/-- From every list of ranges the meant one is chosen, except when all of them lie above the target
and differ in their lowest rates: then the highest of these is chosen, and not the lowest one. -/
theorem best_is_meant_iff (target : Option Nat) (ranges : List ConfigRange) (hne : ranges ≠ [])
    (hr : ∀ s ∈ ranges, s.minRate ≤ s.maxRate) :
    ∃ r, best target ranges = some r ∧
      (IsMeant target ranges r ↔ ∀ t, target = some t → (∀ s ∈ ranges, t < s.minRate) →
        ∀ s ∈ ranges, ∀ s' ∈ ranges, s.minRate = s'.minRate) ∧
      (∀ t, target = some t → (∀ s ∈ ranges, t < s.minRate) →
        IsGreatest {q | ∃ s ∈ ranges, s.minRate = q} (r.rateFor target) ∧
          FirstKind (fun s => s.minRate = r.rateFor target) ranges r) := by
  obtain ⟨r, hbest⟩ := Option.ne_none_iff_exists'.1 (mt best_eq_none_iff.1 hne)
  have h := firstBest_of_best hbest
  refine ⟨r, hbest, ?_, ?_⟩
  · cases target with
    | none => simp only [h.isMeant_none hr, reduceCtorEq, false_implies, implies_true]
    | some t =>
      by_cases hall : ∀ s ∈ ranges, t < s.minRate
      · rw [h.isMeant_above_iff hr hall]
        constructor
        · rintro hsame _ - -
          exact hsame
        · intro hsame
          exact hsame t rfl hall
      · have hex : ∃ s ∈ ranges, s.minRate ≤ t := by
          push Not at hall
          exact hall
        constructor
        · rintro - _ ⟨⟩ hall'
          exact absurd hall' hall
        · intro _
          exact h.isMeant_below hr hex
  · rintro t rfl hall
    exact h.greatest_above hr hall

/-- A stereo range of floating-point samples without a known buffer. -/
def floatRange (low high : Nat) : ConfigRange := ⟨2, low, high, .f32, none⟩

/-- Up to 48000 Hz, a range that starts at 44100 Hz is driven at the target itself. -/
theorem best_is_meant_within :
    ∃ r, best (some 48000) [floatRange 8000 16000, floatRange 44100 96000] = some r ∧
      IsMeant (some 48000) [floatRange 8000 16000, floatRange 44100 96000] r ∧
      r.rateFor (some 48000) = 48000 := by
  obtain ⟨r, hbest, hiff, -⟩ :=
    best_is_meant_iff (some 48000) [floatRange 8000 16000, floatRange 44100 96000] (by decide)
      (by decide)
  refine ⟨r, hbest, hiff.2 ?_, ?_⟩
  · rintro t ⟨⟩ hall
    exact absurd (hall (floatRange 8000 16000) (by decide)) (by decide)
  · have hr : best (some 48000) [floatRange 8000 16000, floatRange 44100 96000]
        = some (floatRange 44100 96000) := by decide
    obtain rfl : floatRange 44100 96000 = r := Option.some.inj (hr.symm.trans hbest)
    decide

/-- Both ranges of a card lie above the target, and the farther one is chosen: it is driven at
88200 Hz, where 44100 Hz was meant. -/
theorem best_above_is_farthest :
    best (some 22050) [floatRange 44100 48000, floatRange 88200 96000]
        = some (floatRange 88200 96000) ∧
      (floatRange 88200 96000).rateFor (some 22050) = 88200 ∧
      ¬ IsMeant (some 22050) [floatRange 44100 48000, floatRange 88200 96000]
        (floatRange 88200 96000) := by
  refine ⟨by decide, by decide, ?_⟩
  intro hm
  have hle : 88200 ≤ 44100 := (hm.rate.2 (by decide)).2 ⟨floatRange 44100 48000, by decide, by decide⟩
  exact absurd hle (by decide)

end Jukebox.Device
