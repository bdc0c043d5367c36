import Jukebox.Proofs.Device.Choice
import Jukebox.Render

/-!
Whether what is chosen can be played. Cards may offer kinds of sample that the player cannot feed.
Such a kind comes last in the order of preference, but only among ranges that are driven at the same
rate: a range with a better rate is chosen whatever its kind. So the choice can be played exactly
when no range is preferred for its rate to all those that can.
-/

namespace Jukebox.Device

variable {target : Option Nat} {a b r s : ConfigRange} {ranges : List ConfigRange}

namespace ConfigRange

/-- Is a range preferred to another one for its rate alone? -/
def Outruns (target : Option Nat) (a b : ConfigRange) : Prop :=
  (a.isBelow target ∧ ¬ b.isBelow target) ∨
    (a.isBelow target = b.isBelow target ∧ b.rateFor target < a.rateFor target)

instance : Decidable (Outruns target a b) := inferInstanceAs (Decidable (_ ∨ _))

theorem worth_lt_of_outruns (h : a.Outruns target b) : b.worth target < a.worth target := by
  rw [worth, worth, Prod.Lex.toLex_lt_toLex]
  rcases h with ⟨ha, hb⟩ | ⟨hside, hrate⟩
  · exact .inl (Bool.lt_iff.2 ⟨by simpa using hb, ha⟩)
  · exact .inr ⟨hside.symm, Prod.Lex.toLex_lt_toLex.2 (.inl hrate)⟩

/-- A range that is worth no less and does not outrun another one has a kind of sample that is at
least as good. -/
theorem rank_le_of_not_outruns (hworth : s.worth target ≤ r.worth target)
    (h : ¬ r.Outruns target s) : r.rank ≤ s.rank := by
  have hside : s.isBelow target = r.isBelow target := by
    refine le_antisymm (isBelow_le_of_worth_le hworth) ?_
    rw [Bool.le_iff_imp]
    intro hr
    by_contra hs
    exact h (.inl ⟨hr, hs⟩)
  have hrate : s.rateFor target = r.rateFor target := by
    refine le_antisymm (rateFor_le_of_worth_le hworth hside) (not_lt.1 ?_)
    intro hlt
    exact h (.inr ⟨hside.symm, hlt⟩)
  exact (worth_le_iff_rank hrate).1 hworth

/-- The kinds that can be fed come before all the others. -/
theorem isFed_iff_rank : r.kind.isFed ↔ r.rank ≤ 3 := by
  unfold rank
  cases r.kind <;> decide

end ConfigRange

open ConfigRange

/-- An attempt to feed a card in the way that has been chosen. -/
def Selection.feed (s : Selection) (refill : Nat) : Except StreamFault Renderer :=
  Renderer.create s.kind refill s.channels s.format

theorem feed_select (r : ConfigRange) (card : String) (target : Option Nat) (refill : Nat) :
    (r.select card target).feed refill =
      if r.kind.isFed then .ok ⟨r.kind, refill⟩ else .error (.kindNotFed r.kind) := by
  cases h : r.kind.isFed <;> simp [Selection.feed, Renderer.create, select, Selection.format, h]

theorem FirstBest.isFed_iff (h : FirstBest target ranges r) :
    r.kind.isFed ↔ ¬ ∃ s ∈ ranges, ∀ s' ∈ ranges, s'.kind.isFed → s.Outruns target s' := by
  constructor
  · rintro hr ⟨s, hs, hall⟩
    exact absurd (worth_lt_of_outruns (hall r h.mem hr)) (not_lt.2 (h.worth_le hs))
  · intro hnone
    push Not at hnone
    obtain ⟨s, hs, hfed, hout⟩ := hnone r h.mem
    have hrank := rank_le_of_not_outruns (h.worth_le hs) hout
    exact isFed_iff_rank.2 (le_trans hrank (isFed_iff_rank.1 hfed))

/-- From ranges of which some can be played, the choice is one of them unless a range is preferred
for its rate to all that can. Then it is one that the player refuses to feed. -/
theorem best_is_fed_unless_outrun (target : Option Nat) (ranges : List ConfigRange)
    (hfed : ∃ s ∈ ranges, s.kind.isFed) :
    ∃ r ∈ ranges, best target ranges = some r ∧
      (r.kind.isFed ↔ ¬ ∃ s ∈ ranges, ∀ s' ∈ ranges, s'.kind.isFed → s.Outruns target s') ∧
      ∀ card refill, (r.select card target).feed refill =
        if r.kind.isFed then .ok ⟨r.kind, refill⟩ else .error (.kindNotFed r.kind) := by
  obtain ⟨s, hs, -⟩ := hfed
  have hne : ranges ≠ [] := List.ne_nil_of_mem hs
  obtain ⟨r, hbest⟩ := Option.ne_none_iff_exists'.1 (mt best_eq_none_iff.1 hne)
  have h := firstBest_of_best hbest
  exact ⟨r, h.mem, hbest, h.isFed_iff, fun card refill => feed_select r card target refill⟩

/-- A stereo range at one rate without a known buffer. -/
def fixedRange (kind : SampleKind) (rate : Nat) : ConfigRange := ⟨2, rate, rate, kind, none⟩

/-- At one rate the kind that can be fed is chosen, though it is listed last. -/
theorem best_is_fed_at_one_rate :
    ∃ r ∈ [fixedRange .i24 48000, fixedRange .i16 44100, fixedRange .i32 48000],
      best (some 48000) [fixedRange .i24 48000, fixedRange .i16 44100, fixedRange .i32 48000] =
        some r ∧ (r.select "card" (some 48000)).feed 4096 = .ok ⟨r.kind, 4096⟩ := by
  obtain ⟨r, hr, hbest, hiff, hfeed⟩ := best_is_fed_unless_outrun (some 48000)
    [fixedRange .i24 48000, fixedRange .i16 44100, fixedRange .i32 48000]
    ⟨fixedRange .i32 48000, by decide, rfl⟩
  have hfed : r.kind.isFed := hiff.2 (by decide)
  exact ⟨r, hr, hbest, (hfeed _ _).trans (if_pos hfed)⟩

/-- A card offers samples of 24 bits at the target and floating-point ones below it. The first are
chosen, and cannot be played. -/
theorem best_is_not_fed :
    (fixedRange .f32 44100).kind.isFed ∧
      best (some 48000) [fixedRange .i24 48000, fixedRange .f32 44100] =
        some (fixedRange .i24 48000) ∧
      ((fixedRange .i24 48000).select "card" (some 48000)).feed 4096 =
        .error (.kindNotFed .i24) := ⟨rfl, by decide, rfl⟩

end Jukebox.Device
