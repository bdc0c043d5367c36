import Jukebox.Proofs.Source.Position

/-!
Where a seek ends. A seek aims at an offset, and the offsets there are begin at zero and end at the
largest that a word holds. From the start, the position or the end, by a signed distance, a seek
reaches each of them and is refused everywhere else. To go to a position is meant to be the same from
the start, but the position is turned into a distance first, and of those that are too large for one
the largest distance is made: then the seek is granted, and ends short of where it was to go.
-/

namespace Jukebox.Source

/-- The origin that a seek counts from. -/
def Seek.origin : Seek → Origin
  | .relative origin _ => origin
  | .absolute _ => .start

/-- How far from there it is to go. -/
def Seek.offset : Seek → Int
  | .relative _ offset => offset
  | .absolute position => position

/-- Where a seek is to end, among all whole numbers. -/
def aim (s : Source) (k : Seek) : Int := s.originOffset k.origin + k.offset

/-- A seek ends where it is to end if that is an offset, and is refused if it is none. -/
structure Exact (s : Source) (k : Seek) : Prop where
  granted : ∀ n ≤ Word.top, s.aim k = n → s.seek k = (s.standAt n, .ok n)
  refused : (∀ n ≤ Word.top, s.aim k ≠ n) →
    s.seek k = (s.standAt s.position, .error ⟨k.offset, k.origin⟩)

variable {s : Source} {origin : Origin} {offset : Int} {n x : Nat}

theorem seekFrom_of_eq (h : s.originOffset origin + offset = n) (hn : n ≤ Word.top) :
    s.seekFrom origin offset = (s.standAt n, .ok n) := by
  rw [seekFrom_eq, h, if_pos ⟨Int.natCast_nonneg n, Int.ofNat_le.2 hn⟩, Int.toNat_natCast]

theorem seekFrom_of_ne (h : ∀ n ≤ Word.top, s.originOffset origin + offset ≠ n) :
    s.seekFrom origin offset = (s.standAt s.position, .error ⟨offset, origin⟩) := by
  rw [seekFrom_eq, if_neg]
  rintro ⟨hnonneg, hle⟩
  obtain ⟨n, hn⟩ := Int.eq_ofNat_of_zero_le hnonneg
  exact h n (Int.ofNat_le.1 (hn ▸ hle)) hn

/-- Seeks by a distance are exact. -/
theorem exact_relative (s : Source) (origin : Origin) (offset : Int) :
    s.Exact (.relative origin offset) where
  granted _ hn h := seekFrom_of_eq h hn
  refused h := seekFrom_of_ne h

theorem largestOffset_le_top : largestOffset ≤ Word.top := by decide

/-- A seek to a position is always granted. -/
theorem seek_absolute (s : Source) (x : Nat) :
    s.seek (.absolute x) = (s.standAt (min x largestOffset), .ok (min x largestOffset)) := by
  have hle : min x largestOffset ≤ Word.top :=
    Nat.le_trans (Nat.min_le_right ..) largestOffset_le_top
  show s.seekFrom .start (min x largestOffset : Nat) = _
  exact seekFrom_of_eq (Int.zero_add _) hle

theorem aim_absolute (s : Source) (x : Nat) : s.aim (.absolute x) = x := Int.zero_add _

theorem exact_absolute_iff : s.Exact (.absolute x) ↔ x ≤ largestOffset := by
  have haim : ∀ n : Nat, s.aim (.absolute x) = n ↔ x = n := by
    intro n
    rw [aim_absolute]
    exact Int.ofNat_inj
  constructor
  · intro h
    -- a position beyond all offsets should have been refused, but it is granted as well
    by_cases hx : x ≤ Word.top
    · have hseek := h.granted x hx (aim_absolute s x)
      rw [seek_absolute] at hseek
      have hmin : min x largestOffset = x := by injection congrArg Prod.snd hseek
      exact hmin ▸ Nat.min_le_right ..
    · have hseek := h.refused fun n hn hnx => hx ((haim n).1 hnx ▸ hn)
      rw [seek_absolute] at hseek
      injection congrArg Prod.snd hseek
  · intro hx
    have hseek := seek_absolute s x
    rw [Nat.min_eq_left hx] at hseek
    constructor
    · intro n _ hnx
      rw [← (haim n).1 hnx]
      exact hseek
    · intro hnone
      exact absurd (aim_absolute s x) (hnone x (Nat.le_trans hx largestOffset_le_top))

/-- Every seek is exact, wherever the source stands and however long it is said to be, except one to a
position that is larger than any distance: that one ends at the largest distance from the start. -/
theorem seek_is_exact_iff (s : Source) (k : Seek) :
    (s.Exact k ↔ ∀ x, k = .absolute x → x ≤ largestOffset) ∧
      ∀ x, k = .absolute x → largestOffset < x →
        s.seek k = (s.standAt largestOffset, .ok largestOffset) := by
  constructor
  · cases k with
    | relative origin offset =>
      constructor
      · rintro - x ⟨⟩
      · intro _
        exact exact_relative s origin offset
    | absolute x =>
      rw [exact_absolute_iff]
      constructor
      · rintro hx _ ⟨⟩
        exact hx
      · intro h
        exact h x rfl
  · rintro x rfl hx
    rw [seek_absolute, Nat.min_eq_right (Nat.le_of_lt hx)]

/-- Two seeks by distances lead to a position that the source tells. The seek to this position ends in
front of it. -/
theorem seek_falls_short :
    let s := (ofBytes "memory" #[] (some 0)).run
      [.seek (.relative .current largestOffset), .seek (.relative .current 1)]
    s.position = largestOffset + 1 ∧
      s.seek (.absolute s.position) = (s.standAt largestOffset, .ok largestOffset) ∧
      ¬ s.Exact (.absolute s.position) := by
  intro s
  have hposition : s.position = largestOffset + 1 := by decide
  refine ⟨hposition, ?_, ?_⟩
  · rw [seek_absolute, hposition, Nat.min_eq_right (Nat.le_succ _)]
  · rw [exact_absolute_iff, hposition]
    exact Nat.not_succ_le_self _

end Jukebox.Source
