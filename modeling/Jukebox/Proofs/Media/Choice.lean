import Jukebox.Media.Stream
import Jukebox.Proofs.Greatest

/-!
Which stream of a container is played. The default stream is, if its codec is known and its rate is
not zero. If not, or if there is no default, it is the first of the streams with the most channels
among those that have a codec and a rate; a count of channels that is not known counts as none.
-/

namespace Jukebox.Media

variable {s t : Stream} {streams : List Stream} {default : Option Stream}

/-- The codec of a stream is known, and so is its rate, which is not zero. -/
def Stream.HasSignal (s : Stream) : Prop :=
  s.codec ≠ .unknown ∧ ∃ rate, s.rate = some rate ∧ rate ≠ 0

theorem Stream.isDecodable_iff : s.isDecodable ↔ s.HasSignal := by
  rw [isDecodable, HasSignal, Bool.and_eq_true, decide_eq_true_eq, Option.any_eq_true]
  simp only [decide_eq_true_eq, Nat.pos_iff_ne_zero]

theorem widest_eq_argmax (streams : List Stream) : widest streams = streams.argmax Stream.width := by
  rw [widest, List.argmax]
  congr 1
  funext best s
  cases best with
  | none => rfl
  | some b =>
    by_cases hle : s.width ≤ b.width
    · exact (if_pos hle).trans (if_neg (not_lt.2 hle)).symm
    · exact (if_neg hle).trans (if_pos (not_le.1 hle)).symm

/-- Of the streams with a signal, the first one of those with the most channels. -/
structure IsFirstWidest (streams : List Stream) (s : Stream) : Prop where
  hasSignal : s.HasSignal
  widest : ∀ t ∈ streams, t.HasSignal → t.width ≤ s.width
  first : ∃ before after, streams = before ++ s :: after ∧
    ∀ t ∈ before, t.HasSignal → t.width ≠ s.width

/-- The streams that are passed over make no difference to where a stream stands. -/
theorem isFirstWidest_of_argmax
    (h : (streams.filter Stream.isDecodable).argmax Stream.width = some s) :
    IsFirstWidest streams s := by
  have hmem := List.argmax_mem h
  obtain ⟨wider, rest, hfilter, hless, -⟩ := exists_split_of_argmax h
  obtain ⟨before, after, rfl, hbefore, hafter⟩ := List.filter_eq_append_iff.1 hfilter
  obtain ⟨passed, after, rfl, hpassed, -, -⟩ := List.filter_eq_cons_iff.1 hafter
  refine ⟨Stream.isDecodable_iff.1 (List.mem_filter.1 hmem).2, ?_, ?_⟩
  · intro t ht hsignal
    exact List.le_of_mem_argmax (List.mem_filter.2 ⟨ht, Stream.isDecodable_iff.2 hsignal⟩) h
  · refine ⟨before ++ passed, after, by simp, ?_⟩
    intro t ht hsignal
    rcases List.mem_append.1 ht with ht | ht
    · have hin : t ∈ wider := hbefore ▸ List.mem_filter.2 ⟨ht, Stream.isDecodable_iff.2 hsignal⟩
      exact (hless t hin).ne
    · exact absurd (Stream.isDecodable_iff.2 hsignal) (hpassed t ht)

theorem IsFirstWidest.argmax_eq (h : IsFirstWidest streams s) :
    (streams.filter Stream.isDecodable).argmax Stream.width = some s := by
  obtain ⟨before, after, rfl, hfirst⟩ := h.first
  rw [List.filter_append, List.filter_cons_of_pos (Stream.isDecodable_iff.2 h.hasSignal)]
  apply argmax_of_split
  · intro t ht
    obtain ⟨ht, hdecodable⟩ := List.mem_filter.1 ht
    have hsignal := Stream.isDecodable_iff.1 hdecodable
    exact lt_of_le_of_ne (h.widest t (by simp [ht]) hsignal) (hfirst t ht hsignal)
  · intro t ht
    obtain ⟨ht, hdecodable⟩ := List.mem_filter.1 ht
    exact h.widest t (by simp [ht]) (Stream.isDecodable_iff.1 hdecodable)

theorem widest_eq_some_iff :
    widest (streams.filter Stream.isDecodable) = some s ↔ IsFirstWidest streams s := by
  rw [widest_eq_argmax]
  exact ⟨isFirstWidest_of_argmax, IsFirstWidest.argmax_eq⟩

theorem widest_eq_none_iff :
    widest (streams.filter Stream.isDecodable) = none ↔ ∀ t ∈ streams, ¬ t.HasSignal := by
  rw [widest_eq_argmax, List.argmax_eq_none, List.filter_eq_nil_iff]
  simp only [Stream.isDecodable_iff]

/-- From every list of streams, the default one is chosen if it has a signal. Otherwise none is
chosen exactly when no stream has a signal, and else the first one of those with the most channels. -/
theorem choice_is_default_or_widest (streams : List Stream) (default : Option Stream) :
    (∀ d, default = some d → d.HasSignal → chooseStream streams default = some d) ∧
      ((∀ d, default = some d → ¬ d.HasSignal) →
        (chooseStream streams default = none ↔ ∀ t ∈ streams, ¬ t.HasSignal) ∧
        ∀ s, chooseStream streams default = some s ↔ IsFirstWidest streams s) := by
  constructor
  · rintro d rfl hsignal
    rw [chooseStream, Option.filter_some, if_pos (Stream.isDecodable_iff.2 hsignal)]
  · intro hdefault
    have hnone : default.filter Stream.isDecodable = none := by
      rw [Option.filter_eq_none_iff]
      intro d hd hdecodable
      exact hdefault d hd (Stream.isDecodable_iff.1 hdecodable)
    rw [chooseStream, hnone]
    exact ⟨widest_eq_none_iff, fun s => widest_eq_some_iff⟩

end Jukebox.Media
