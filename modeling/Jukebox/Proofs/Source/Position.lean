import Jukebox.Source

/-!
The position of a source. A source is made around a reader at the start of its data. It counts where
it stands, and the reader does so too; a seek from an end that is not known moves the reader before
anybody knows whether there is such a place. Still the two agree after every call. Reads take the
bytes that follow the position, a seek that is granted ends where it says, and one that is refused
has not happened: whatever is asked later is answered as if it had been left out.
-/

namespace Jukebox.Source

variable {s : Source} {data : Bytes} {length? : Option Nat} {n : Nat}

/-! ### What is asked of a source -/

/-- A seek, as it is asked for. -/
inductive Seek where
  /-- So far from an origin, forwards or backwards. -/
  | relative (origin : Origin) (offset : Int)
  /-- To a position. -/
  | absolute (position : Nat)

def seek (s : Source) : Seek → Source × Except SeekFault Nat
  | .relative origin offset => s.seekFrom origin offset
  | .absolute position => s.seekToStart position

inductive Call where
  | read (count : Nat)
  | seek (k : Seek)

inductive Answer where
  | bytes (bytes : Bytes)
  | landed (position : Nat)
  | refused (fault : SeekFault)
  deriving DecidableEq

def Answer.ofSeek : Except SeekFault Nat → Answer
  | .ok position => .landed position
  | .error fault => .refused fault

def Answer.isRefusal : Answer → Bool
  | .refused _ => true
  | _ => false

def call (s : Source) : Call → Source × Answer
  | .read count => ((s.read count).1, .bytes (s.read count).2)
  | .seek k => ((s.seek k).1, .ofSeek (s.seek k).2)

/-- The source after some calls. -/
def run (s : Source) (calls : List Call) : Source := calls.foldl (fun s c => (s.call c).1) s

/-- What calls are answered, one after the other. -/
def answers (s : Source) : List Call → List Answer
  | [] => []
  | c :: calls => (s.call c).2 :: (s.call c).1.answers calls

/-- The calls without the seeks that are refused. -/
def heeded (s : Source) : List Call → List Call
  | [] => []
  | c :: calls =>
    if (s.call c).2.isRefusal then (s.call c).1.heeded calls else c :: (s.call c).1.heeded calls

/-! ### What a call does -/

/-- The source with itself and its reader at a position. -/
def standAt (s : Source) (position : Nat) : Source :=
  { s with reader := s.reader.seekTo position, position }

/-- The offset of an origin. A length that is not known is that of the data. -/
def originOffset (s : Source) : Origin → Nat
  | .start => 0
  | .current => s.position
  | .end => s.length?.getD s.reader.data.size

/-- A seek goes to the place it is asked for. If there is none, the reader is put back. -/
theorem seekFrom_eq (s : Source) (origin : Origin) (offset : Int) :
    s.seekFrom origin offset =
      if 0 ≤ s.originOffset origin + offset ∧ s.originOffset origin + offset ≤ Word.top then
        (s.standAt (s.originOffset origin + offset).toNat,
          .ok (s.originOffset origin + offset).toNat)
      else (s.standAt s.position, .error ⟨offset, origin⟩) := by
  cases origin with
  | start => rfl
  | current => rfl
  | «end» =>
    obtain ⟨name, reader, position, length?⟩ := s
    cases length? <;> rfl

theorem seek_cases (s : Source) (k : Seek) :
    (∃ n ≤ Word.top, s.seek k = (s.standAt n, .ok n)) ∨
      ∃ fault, s.seek k = (s.standAt s.position, .error fault) := by
  have hfrom : ∀ origin offset, (∃ n ≤ Word.top, s.seekFrom origin offset = (s.standAt n, .ok n)) ∨
      ∃ fault, s.seekFrom origin offset = (s.standAt s.position, .error fault) := by
    intro origin offset
    rw [seekFrom_eq]
    split
    · next h => exact .inl ⟨_, Int.toNat_le.2 h.2, rfl⟩
    · exact .inr ⟨_, rfl⟩
  cases k with
  | relative origin offset => exact hfrom origin offset
  | absolute position => exact hfrom .start _

/-- A seek that is granted ends where it says. -/
theorem standAt_of_granted {k : Seek} (hk : (s.seek k).2 = .ok n) : (s.seek k).1 = s.standAt n := by
  obtain ⟨n', -, hseek⟩ | ⟨_, hseek⟩ := s.seek_cases k
  · rw [hseek] at hk ⊢
    cases hk
    rfl
  · rw [hseek] at hk
    cases hk

theorem size_slice (b : Bytes) (start count : Nat) :
    (b.slice start count).size = min count (b.size - start) := by
  rw [Bytes.slice, Array.size_extract]
  omega

/-- The source is over the data, and stands where its reader stands. -/
structure InStep (data : Bytes) (length? : Option Nat) (s : Source) : Prop where
  data : s.reader.data = data
  length : s.length? = length?
  offset : s.reader.offset = s.position
  position_le : s.position ≤ Word.top

theorem inStep_ofBytes (name : String) (data : Bytes) (length? : Option Nat) :
    (ofBytes name data length?).InStep data length? := ⟨rfl, rfl, rfl, Nat.zero_le _⟩

namespace InStep

theorem standAt (h : s.InStep data length?) (hn : n ≤ Word.top) :
    (s.standAt n).InStep data length? := ⟨h.data, h.length, rfl, hn⟩

theorem standAt_position (h : s.InStep data length?) : s.standAt s.position = s := by
  obtain ⟨name, reader, position, length?⟩ := s
  obtain rfl : reader.offset = position := h.offset
  rfl

/-- A read does not lead out of the range of positions. -/
theorem position_add_le (h : s.InStep data length?) (hsize : data.size ≤ Word.top) (count : Nat) :
    s.position + min count (data.size - s.position) ≤ Word.top := by
  have hpos := h.position_le
  omega

/-- A read takes the bytes that follow the position and stops behind them. -/
theorem read_eq (h : s.InStep data length?) (hsize : data.size ≤ Word.top) (count : Nat) :
    s.read count = (s.standAt (s.position + min count (data.size - s.position)),
      data.slice s.position count) := by
  have hlength := size_slice data s.position count
  by_cases hcount : count = 0
  · subst hcount
    have hnothing : data.slice s.position 0 = #[] := Array.eq_empty_of_size_eq_zero (by omega)
    simp only [Source.read, if_true, Nat.zero_min, Nat.add_zero, h.standAt_position, hnothing]
  · have hcap := Word.cap_eq_self (h.position_add_le hsize count)
    simp only [Source.read, if_neg hcount, Reader.read, h.data, h.offset, hlength, hcap]
    simp only [Source.standAt, Reader.seekTo, h.data]

/-- A refused seek changes nothing. -/
theorem eq_of_refused (h : s.InStep data length?) {k : Seek} {fault : SeekFault}
    (hk : (s.seek k).2 = .error fault) : (s.seek k).1 = s := by
  obtain ⟨n, -, hseek⟩ | ⟨_, hseek⟩ := s.seek_cases k
  · rw [hseek] at hk
    cases hk
  · rw [hseek]
    exact h.standAt_position

theorem call (h : s.InStep data length?) (hsize : data.size ≤ Word.top) (c : Call) :
    (s.call c).1.InStep data length? := by
  cases c with
  | read count =>
    rw [Source.call, h.read_eq hsize]
    exact h.standAt (h.position_add_le hsize count)
  | seek k =>
    rw [Source.call]
    obtain ⟨n, hn, hseek⟩ | ⟨_, hseek⟩ := s.seek_cases k
    · rw [hseek]
      exact h.standAt hn
    · rw [hseek]
      exact h.standAt h.position_le

theorem eq_of_isRefusal (h : s.InStep data length?) {c : Call}
    (hc : (s.call c).2.isRefusal) : (s.call c).1 = s := by
  cases c with
  | read count => cases hc
  | seek k =>
    cases hk : (s.seek k).2 with
    | ok n =>
      rw [Source.call, hk] at hc
      cases hc
    | error fault => exact h.eq_of_refused hk

theorem run (h : s.InStep data length?) (hsize : data.size ≤ Word.top) (calls : List Call) :
    (s.run calls).InStep data length? := by
  induction calls generalizing s with
  | nil => exact h
  | cons c calls ih => exact ih (h.call hsize c)

/-- Refused seeks may be left out. -/
theorem heeded_eq (h : s.InStep data length?) (hsize : data.size ≤ Word.top) (calls : List Call) :
    s.run (s.heeded calls) = s.run calls ∧
      s.answers (s.heeded calls) = (s.answers calls).filter (!·.isRefusal) := by
  induction calls generalizing s with
  | nil => exact ⟨rfl, rfl⟩
  | cons c calls ih =>
    obtain ⟨hrun, hanswers⟩ := ih (h.call hsize c)
    rw [heeded, answers]
    split
    · next hc =>
      rw [h.eq_of_isRefusal hc] at hrun hanswers ⊢
      rw [List.filter_cons_of_neg (by simp [hc]), hrun, hanswers]
      refine ⟨?_, rfl⟩
      rw [Source.run, Source.run, List.foldl_cons, h.eq_of_isRefusal hc]
    · next hc =>
      rw [List.filter_cons_of_pos (by simpa using hc), ← hanswers]
      exact ⟨hrun, rfl⟩

end InStep

/-- Whatever has been asked of a source, it stands where its reader stands: a read returns the bytes
of the data from there on, as many as are asked for and there, and goes on by their number; a seek
ends at the position it tells or changes nothing; and the calls without the refused seeks have the
same answers and lead to the same place. -/
theorem position_is_the_readers (name : String) (data : Bytes) (length? : Option Nat)
    (hsize : data.size ≤ Word.top) (calls : List Call) :
    let start := ofBytes name data length?
    let s := start.run calls
    s.reader.offset = s.position ∧
      (∀ count, (s.read count).2 = data.slice s.position count ∧
        (s.read count).2.size = min count (data.size - s.position) ∧
        (s.read count).1.position = s.position + (s.read count).2.size ∧
        (s.read count).1.reader.offset = s.reader.offset + (s.read count).2.size) ∧
      (∀ k n, (s.seek k).2 = .ok n →
        (s.seek k).1.position = n ∧ (s.seek k).1.reader.offset = n) ∧
      (∀ k fault, (s.seek k).2 = .error fault → (s.seek k).1 = s) ∧
      start.run (start.heeded calls) = s ∧
      start.answers (start.heeded calls) = (start.answers calls).filter (!·.isRefusal) := by
  intro start s
  have hstart : start.InStep data length? := inStep_ofBytes name data length?
  have h : s.InStep data length? := hstart.run hsize calls
  refine ⟨h.offset, ?_, ?_, ?_, hstart.heeded_eq hsize calls⟩
  · intro count
    have hlength := size_slice data s.position count
    rw [h.read_eq hsize, hlength, h.offset]
    exact ⟨rfl, rfl, rfl, rfl⟩
  · intro k n hk
    rw [standAt_of_granted hk]
    exact ⟨rfl, rfl⟩
  · intro k fault hk
    exact h.eq_of_refused hk

/-- A seek to before the start is asked for from an end that has to be looked for, between two reads.
The second one goes on where the first one stopped. -/
theorem position_is_the_readers_past_refusal :
    (#[10, 20, 30] : Bytes).size ≤ Word.top ∧
      let start := ofBytes "memory" #[10, 20, 30] none
      let calls := [.read 1, .seek (.relative .end (-9)), .read 5]
      start.answers calls = [.bytes #[10], .refused ⟨-9, .end⟩, .bytes #[20, 30]] ∧
        (start.run calls).reader.offset = (start.run calls).position ∧
        start.answers [.read 1, .read 5] = [.bytes #[10], .bytes #[20, 30]] := by
  have hsize : (#[10, 20, 30] : Bytes).size ≤ Word.top := by decide
  obtain ⟨hoffset, -, -, -, -, hanswers⟩ := position_is_the_readers "memory" #[10, 20, 30] none hsize
    [.read 1, .seek (.relative .end (-9)), .read 5]
  exact ⟨hsize, by decide, hoffset, hanswers⟩

end Jukebox.Source
