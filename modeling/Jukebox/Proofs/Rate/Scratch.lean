import Jukebox.Rate.Stage

/-!
Arrays that are written over and over. Writing items into an array that is long enough for them
replaces what stood there and leaves the rest, so the front of the array is what was put into it,
whatever an earlier and longer use has left behind.
-/

namespace Jukebox.Rate

variable {α : Type}

theorem size_grown (a : Array α) (count : Nat) (filler : α) :
    (grown a count filler).size = max a.size count := by
  rw [grown, Array.size_append, Array.size_replicate]
  omega

theorem le_size_grown (a : Array α) (count : Nat) (filler : α) :
    count ≤ (grown a count filler).size := by
  rw [size_grown]
  exact Nat.le_max_right ..

/-- Items put in one after the other replace as many as they are. -/
theorem toList_foldl_set (start : Nat) (xs : List α) (k : Nat) (a : Array α)
    (h : start + k + xs.length ≤ a.size) :
    ((xs.zipIdx k).foldl (fun a (x, i) => a.setIfInBounds (start + i) x) a).toList =
      a.toList.take (start + k) ++ xs ++ a.toList.drop (start + k + xs.length) := by
  induction xs generalizing k a with
  | nil => simp
  | cons x xs ih =>
    rw [List.length_cons] at h
    have hlt : start + k < a.toList.length := by
      rw [Array.length_toList]
      omega
    rw [List.zipIdx_cons, List.foldl_cons, ih]
    · simp only [Array.toList_setIfInBounds, List.length_cons]
      have htake : (a.toList.set (start + k) x).take (start + (k + 1)) =
          a.toList.take (start + k) ++ [x] := by
        rw [← Nat.add_assoc, List.take_add_one, List.take_set_of_le (Nat.le_refl _),
          List.getElem?_set_self hlt]
        rfl
      have hdrop : (a.toList.set (start + k) x).drop (start + (k + 1) + xs.length) =
          a.toList.drop (start + k + (xs.length + 1)) := by
        rw [List.drop_set_of_lt (by omega)]
        congr 1
        omega
      rw [htake, hdrop]
      simp
    · rw [Array.size_setIfInBounds]
      omega

theorem toList_overwrite {a xs : Array α} {start : Nat} (h : start + xs.size ≤ a.size) :
    (overwrite a start xs).toList =
      a.toList.take start ++ xs.toList ++ a.toList.drop (start + xs.size) := by
  have hset := toList_foldl_set start xs.toList 0 a (by simpa using h)
  rw [overwrite, ← Array.foldl_toList, Array.toList_zipIdx]
  simpa using hset

theorem size_overwrite {a xs : Array α} {start : Nat} (h : start + xs.size ≤ a.size) :
    (overwrite a start xs).size = a.size := by
  rw [← Array.length_toList, toList_overwrite h]
  simp only [List.length_append, List.length_take, List.length_drop, Array.length_toList]
  omega

/-- What is put in behind a front extends it. -/
theorem take_overwrite {a xs : Array α} {start : Nat} (h : start + xs.size ≤ a.size) :
    (overwrite a start xs).toList.take (start + xs.size) = a.toList.take start ++ xs.toList := by
  have hlen : (a.toList.take start ++ xs.toList).length = start + xs.size := by
    rw [List.length_append, List.length_take, Array.length_toList, Array.length_toList]
    omega
  rw [toList_overwrite h, ← hlen, List.take_left]

/-- The front of an array that has room is what was put there. -/
theorem front_overwrite {a xs : Array α} {count : Nat} (hcount : xs.size = count)
    (h : count ≤ a.size) : (overwrite a 0 xs).extract 0 count = xs := by
  subst hcount
  have hfit : 0 + xs.size ≤ a.size := by simpa using h
  have htake := take_overwrite hfit
  apply Array.ext'
  simpa [List.extract_eq_take_drop] using htake

end Jukebox.Rate
