import Jukebox.Text.Blank
import Mathlib.Data.List.SplitBy

/-!
The words of a text. A text spells words if it is these words, in this order, with a blank between any
two of them and any more blanks there and around them. Every text spells words, and just one list of
them: the runs of characters that are not blank.
-/

namespace Jukebox.Text

/-- One character or more, and none of them blank. -/
structure IsWord (w : List Char) : Prop where
  nonempty : w ≠ []
  solid : ∀ c ∈ w, isBlank c = false

/-- The texts that spell words. A word ends at a blank or at the end of the text. -/
inductive Spells : List (List Char) → List Char → Prop
  | nothing : Spells [] []
  | blank {c : Char} {cs : List Char} {ws : List (List Char)} (hc : isBlank c = true)
      (later : Spells ws cs) : Spells ws (c :: cs)
  | word {w cs : List Char} {ws : List (List Char)} (hw : IsWord w)
      (hend : ∀ c ∈ cs.head?, isBlank c = true) (later : Spells ws cs) : Spells (w :: ws) (w ++ cs)

variable {c : Char} {w cs ds : List Char} {ws : List (List Char)}

/-- The longest front of a text with a property, and the rest. -/
theorem exists_front (p : Char → Bool) (cs : List Char) :
    ∃ front rest, cs = front ++ rest ∧ (∀ c ∈ front, p c = true) ∧ ∀ c ∈ rest.head?, p c = false := by
  refine ⟨cs.takeWhile p, cs.dropWhile p, List.takeWhile_append_dropWhile.symm, ?_, ?_⟩
  · exact List.all_eq_true.1 List.all_takeWhile
  · intro c hc
    have hrest := List.head?_dropWhile_not p cs
    rw [Option.mem_def.1 hc] at hrest
    simpa using hrest

/-- A text may be cut between a blank and a character that is not blank. -/
theorem wordsOf_append
    (h : ∀ a ∈ cs.getLast?, ∀ b ∈ ds.head?, (isBlank a == isBlank b) = false) :
    wordsOf (cs ++ ds) = wordsOf cs ++ wordsOf ds := by
  rw [wordsOf, List.splitBy_append h, List.filter_append]
  rfl

/-- Blanks in front of a word make no difference. -/
theorem wordsOf_blanks (hcs : ∀ c ∈ cs, isBlank c = true) (hds : ∀ c ∈ ds.head?, isBlank c = false) :
    wordsOf (cs ++ ds) = wordsOf ds := by
  have hnone : wordsOf cs = [] := by
    rw [wordsOf, List.filter_eq_nil_iff]
    intro run hrun
    have hblank : ∀ c ∈ run, isBlank c = true := by
      intro c hc
      apply hcs
      rw [← List.flatten_splitBy (fun a b => isBlank a == isBlank b) cs]
      exact List.mem_flatten.2 ⟨run, hrun, hc⟩
    simpa using hblank
  rw [wordsOf_append, hnone, List.nil_append]
  intro a ha b hb
  rw [hcs a (List.mem_of_mem_getLast? ha), hds b hb]
  rfl

theorem wordsOf_blank (hc : isBlank c = true) (cs : List Char) :
    wordsOf (c :: cs) = wordsOf cs := by
  -- the text can be cut only behind all the blanks, not behind the first one
  obtain ⟨front, rest, rfl, hfront, hrest⟩ := exists_front isBlank cs
  rw [wordsOf_blanks hfront hrest, ← List.cons_append]
  exact wordsOf_blanks (List.forall_mem_cons.2 ⟨hc, hfront⟩) hrest

theorem IsWord.wordsOf_eq (hw : IsWord w) : wordsOf w = [w] := by
  obtain ⟨c, hc⟩ := List.exists_mem_of_ne_nil w hw.nonempty
  have hchain : w.IsChain fun a b => (isBlank a == isBlank b) = true := by
    refine List.Pairwise.isChain (List.pairwise_of_forall_mem_list fun a ha b hb => ?_)
    rw [hw.solid a ha, hw.solid b hb]
    rfl
  rw [wordsOf, List.splitBy_of_isChain hw.nonempty hchain, List.filter_singleton]
  have hany : (w.any fun c => !isBlank c) = true := List.any_eq_true.2 ⟨c, hc, by rw [hw.solid c hc]; rfl⟩
  rw [hany]
  rfl

/-- A word is followed by the words behind it. -/
theorem IsWord.wordsOf_append (hw : IsWord w) (hend : ∀ c ∈ cs.head?, isBlank c = true) :
    wordsOf (w ++ cs) = w :: wordsOf cs := by
  rw [Text.wordsOf_append, hw.wordsOf_eq, List.singleton_append]
  intro a ha b hb
  rw [hw.solid a (List.mem_of_mem_getLast? ha), hend b hb]
  rfl

theorem Spells.wordsOf_eq (h : Spells ws cs) : wordsOf cs = ws := by
  induction h with
  | nothing => rfl
  | blank hc _ ih => rw [wordsOf_blank hc, ih]
  | word hw hend _ ih => rw [hw.wordsOf_append hend, ih]

/-- Every text spells its words. -/
theorem spells_wordsOf (cs : List Char) : Spells (wordsOf cs) cs := by
  match cs with
  | [] => exact .nothing
  | c :: cs =>
    by_cases hc : isBlank c = true
    · rw [wordsOf_blank hc]
      exact .blank hc (spells_wordsOf cs)
    · obtain ⟨front, rest, hcs, hfront, hrest⟩ := exists_front (fun c => !isBlank c) cs
      have hword : IsWord (c :: front) := by
        refine ⟨List.cons_ne_nil c front, List.forall_mem_cons.2 ⟨by simpa using hc, ?_⟩⟩
        simpa using hfront
      have hend : ∀ c ∈ rest.head?, isBlank c = true := by simpa using hrest
      have hshorter : rest.length ≤ cs.length := by
        rw [hcs, List.length_append]
        exact Nat.le_add_left ..
      rw [hcs, ← List.cons_append, hword.wordsOf_append hend]
      exact .word hword hend (spells_wordsOf rest)
  termination_by cs.length
  decreasing_by
    · exact Nat.lt_succ_self _
    · exact Nat.lt_succ_of_le hshorter

theorem spells_iff : Spells ws cs ↔ wordsOf cs = ws :=
  ⟨Spells.wordsOf_eq, fun h => h ▸ spells_wordsOf cs⟩

end Jukebox.Text
