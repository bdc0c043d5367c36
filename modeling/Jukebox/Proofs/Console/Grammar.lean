import Jukebox.Console.Prompt
import Jukebox.Proofs.Text.Words

/-!
The grammar of the prompt. A line is its words. Seven words are commands, and three more are commands
if they are followed by a number; a seek needs one that is a span. The prompt takes what the grammar
gives a meaning, and turns down a word behind a command that stands alone; but it does not look behind
a number, and takes a command with words left over there as if they were not.
-/

namespace Jukebox.Console

open Number (Numeral)

/-- What words mean. -/
inductive Means : List String → Input → Prop
  | togglePause : Means ["p"] .togglePause
  | next : Means ["n"] .next
  | prev : Means ["b"] .prev
  | stop : Means ["s"] .stop
  | play : Means ["g"] .play
  | status : Means ["i"] .status
  | quit : Means ["q"] .quit
  | seek {number : String} {n : Numeral} {position : Span}
      (hn : Numeral.parse? number.toList = some n)
      (hfits : Span.ofDouble? (n.toWord .double) = some position) :
      Means ["seek", number] (.seek position)
  | tempo {number : String} {n : Numeral} (hn : Numeral.parse? number.toList = some n) :
      Means ["tempo", number] (.tempo (Float32.ofBits (UInt32.ofNat (n.toWord .single))))
  | volume {number : String} {n : Numeral} (hn : Numeral.parse? number.toList = some n) :
      Means ["vol", number] (.volume (Float32.ofBits (UInt32.ofNat (n.toWord .single))))

/-- A line is made of words. -/
def Writes (line : String) (words : List String) : Prop :=
  Text.Spells (words.map String.toList) line.toList

/-- The words of a line have this meaning. -/
def Asks (line : String) (i : Input) : Prop := ∃ words, Writes line words ∧ Means words i

/-- A command with its number has this meaning, and behind them the line goes on. -/
def AsksAndGoesOn (line : String) (i : Input) : Prop :=
  ∃ word number next rest, Writes line (word :: number :: next :: rest) ∧ Means [word, number] i

variable {line word number next : String} {words words' rest : List String} {i : Input}

/-! ### Words -/

theorem writes_iff : Writes line words ↔ Text.wordsOf line.toList = words.map String.toList :=
  Text.spells_iff

/-- Every line is made of words, and in one way only. -/
theorem existsUnique_writes (line : String) : ∃! words, Writes line words := by
  refine ⟨(Text.wordsOf line.toList).map String.ofList, ?_, ?_⟩
  · simp [writes_iff, Function.comp_def]
  · intro words h
    simp [writes_iff.1 h, Function.comp_def]

/-! ### Meanings -/

theorem letter?_eq_some_iff : letter? word = some i ↔ Means [word] i := by
  constructor
  · intro h
    unfold letter? at h
    split at h <;> cases h <;> constructor
  · intro h
    cases h <;> rfl

theorem withNumber?_eq_some_iff :
    withNumber? word number.toList = some i ↔ Means [word, number] i := by
  constructor
  · intro h
    unfold withNumber? at h
    split at h
    · obtain ⟨position, hposition, rfl⟩ := Option.map_eq_some_iff.1 h
      obtain ⟨n, hn, hfits⟩ := Option.bind_eq_some_iff.1 hposition
      exact .seek hn hfits
    · obtain ⟨tempo, htempo, rfl⟩ := Option.map_eq_some_iff.1 h
      obtain ⟨n, hn, rfl⟩ := Option.map_eq_some_iff.1 htempo
      exact .tempo hn
    · obtain ⟨volume, hvolume, rfl⟩ := Option.map_eq_some_iff.1 h
      obtain ⟨n, hn, rfl⟩ := Option.map_eq_some_iff.1 hvolume
      exact .volume hn
    · cases h
  · intro h
    cases h with
    | seek hn hfits => simp [withNumber?, span?, hn, hfits]
    | tempo hn => simp [withNumber?, single?, hn]
    | volume hn => simp [withNumber?, single?, hn]

/-- Three words and more have no meaning. -/
theorem not_means_cons : ¬ Means (word :: number :: next :: rest) i := nofun

/-! ### Lines -/

theorem Writes.unique (h : Writes line words) (h' : Writes line words') : words = words' :=
  (existsUnique_writes line).unique h h'

theorem Writes.asks_iff (h : Writes line words) : Asks line i ↔ Means words i := by
  constructor
  · rintro ⟨words', h', hmeans⟩
    rwa [h.unique h']
  · intro hmeans
    exact ⟨words, h, hmeans⟩

theorem Writes.goesOn_iff (h : Writes line words) :
    AsksAndGoesOn line i ↔ ∃ word number next rest, words = word :: number :: next :: rest ∧
      Means [word, number] i := by
  constructor
  · rintro ⟨word, number, next, rest, h', hmeans⟩
    exact ⟨word, number, next, rest, h.unique h', hmeans⟩
  · rintro ⟨word, number, next, rest, rfl, hmeans⟩
    exact ⟨word, number, next, rest, h, hmeans⟩

/-- Behind a command with its number the words of a line are not looked at. -/
theorem parse?_eq_some_iff (line : String) (i : Input) :
    Input.parse? line = some i ↔ Asks line i ∨ AsksAndGoesOn line i := by
  obtain ⟨words, h, -⟩ := existsUnique_writes line
  rw [h.asks_iff, h.goesOn_iff, Input.parse?, writes_iff.1 h]
  match words with
  | [] =>
    have hnone : ¬ Means [] i := nofun
    simp [hnone]
  | [word] => simp [letter?_eq_some_iff]
  | [word, number] => simp [withNumber?_eq_some_iff]
  | word :: number :: next :: rest => simp [withNumber?_eq_some_iff, not_means_cons]

/-- A line is made of words in one way, and the prompt reads from it what they mean, or what the first
two of them mean. So it reads all that the grammar says and nothing else, unless a command with its
number is followed by more words. -/
theorem lines_are_read_unless_words_are_left (line : String) :
    (∃! words, Writes line words) ∧
      (∀ i, Input.parse? line = some i ↔ Asks line i ∨ AsksAndGoesOn line i) ∧
      ((∀ i, Input.parse? line = some i ↔ Asks line i) ↔ ¬ ∃ i, AsksAndGoesOn line i) := by
  refine ⟨existsUnique_writes line, parse?_eq_some_iff line, ?_⟩
  simp only [parse?_eq_some_iff]
  constructor
  · rintro hread ⟨i, hgoesOn⟩
    obtain ⟨word, number, next, rest, h, -⟩ := id hgoesOn
    exact not_means_cons (h.asks_iff.1 ((hread i).1 (.inr hgoesOn)))
  · intro hnone i
    have hends : ¬ AsksAndGoesOn line i := fun hgoesOn => hnone ⟨i, hgoesOn⟩
    exact or_iff_left hends

/-- A number more than a volume takes. -/
theorem second_number_is_overlooked :
    let line := "vol 0.5 0.7"
    (∃ volume, Input.parse? line = some (.volume volume)) ∧
      ¬ ∀ i, Input.parse? line = some i ↔ Asks line i := by
  intro line
  have h : Writes line ["vol", "0.5", "0.7"] := writes_iff.2 (by decide)
  have hn : Number.Numeral.parse? "0.5".toList = some (.exact false 5 (-1)) := by decide
  have hread := (parse?_eq_some_iff line _).2 (.inr ⟨_, _, _, _, h, .volume hn⟩)
  refine ⟨⟨_, hread⟩, fun hall => ?_⟩
  exact not_means_cons (h.asks_iff.1 ((hall _).1 hread))

end Jukebox.Console
