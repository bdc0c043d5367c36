import Mathlib.Data.List.MinMax

/-!
The first of the greatest elements of a list, told from where it stands: what comes before it is
less, and what comes after it is not greater.
-/

namespace Jukebox

variable {α β : Type} [LinearOrder β] {key : α → β} {l before after : List α} {m : α}

/-- The greatest element that is found first. -/
theorem exists_split_of_argmax (h : l.argmax key = some m) :
    ∃ before after, l = before ++ m :: after ∧
      (∀ a ∈ before, key a < key m) ∧ ∀ a ∈ after, key a ≤ key m := by
  induction l generalizing m with
  | nil => cases h
  | cons a l ih =>
    rw [List.argmax_cons] at h
    cases hl : l.argmax key with
    | none =>
      rw [hl] at h
      obtain rfl : a = m := Option.some.inj h
      rw [List.argmax_eq_none.1 hl]
      exact ⟨[], [], rfl, by rintro _ ⟨⟩, by rintro _ ⟨⟩⟩
    | some c =>
      rw [hl] at h
      dsimp only at h
      split at h
      · next hlt =>
        obtain rfl : c = m := Option.some.inj h
        obtain ⟨before, after, rfl, hbefore, hafter⟩ := ih hl
        exact ⟨a :: before, after, rfl, List.forall_mem_cons.2 ⟨hlt, hbefore⟩, hafter⟩
      · next hle =>
        obtain rfl : a = m := Option.some.inj h
        refine ⟨[], l, rfl, by rintro _ ⟨⟩, ?_⟩
        intro x hx
        exact le_trans (List.le_of_mem_argmax hx hl) (not_lt.1 hle)

theorem argmax_of_split (hbefore : ∀ a ∈ before, key a < key m)
    (hafter : ∀ a ∈ after, key a ≤ key m) : (before ++ m :: after).argmax key = some m := by
  induction before with
  | nil =>
    rw [List.nil_append, List.argmax_cons]
    cases hc : after.argmax key with
    | none => rfl
    | some c => exact if_neg (not_lt.2 (hafter c (List.argmax_mem hc)))
  | cons b before ih =>
    obtain ⟨hb, hbefore⟩ := List.forall_mem_cons.1 hbefore
    rw [List.cons_append, List.argmax_cons, ih hbefore]
    exact if_pos hb

end Jukebox
