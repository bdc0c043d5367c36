import Jukebox.Buffer.Waiting
import Jukebox.Proofs.Buffer.Ending
import Mathlib.Data.List.Induction

/-!
Nobody who waits for the first data misses it. Whether a buffer has an answer, and which one, is told
from the operations alone: there is one as soon as a byte has been stored, the input has ended or an
abort has come, and it is yes if there is data and no abort. Three operations write down what those
who wait go by, one of them on its first call only, and each of them calls. The calls come exactly
when the answer does, so a guest who sleeps until it is called is told what one is told who never
stops looking.
-/

namespace Jukebox

namespace Buffer

variable {f : Format} {ops : List Op} {op : Op} {b : Buffer}

/-! ### When there is an answer -/

/-- Does an operation end the wait whatever has been written? -/
def Op.settles (op : Op) : Bool := op.isEnd || op.isAbort

/-- A byte has been stored, the input has ended, or an abort has come. -/
def decided (f : Format) (ops : List Op) : Bool := !(accepted f ops).isEmpty || ops.any Op.settles

/-- Is there data, and has no abort come? -/
def verdict (f : Format) (ops : List Op) : Bool :=
  !(accepted f ops).isEmpty && !ops.any Op.isAbort

/-- An answer stays an answer. -/
theorem decided_append (h : decided f ops) (more : List Op) : decided f (ops ++ more) := by
  induction more using List.reverseRecOn with
  | nil => rwa [List.append_nil]
  | append_singleton more op ih =>
    rw [← List.append_assoc]
    obtain ⟨rest, hrest⟩ := accepted_prefix f (ops ++ more) op
    simp only [decided, Bool.or_eq_true, Bool.not_eq_true', List.isEmpty_eq_false_iff] at ih ⊢
    rcases ih with hdata | hsettled
    · left
      rw [← hrest]
      simp [hdata]
    · right
      rw [List.any_append, hsettled, Bool.true_or]

/-- What a buffer has written down for those who wait. -/
structure Posted (ops : List Op) (b : Buffer) : Prop where
  ready : b.dataReady = decide (0 < b.writePos)
  released : b.released = ops.any Op.settles
  ended : b.ended → b.released
  failed : b.failed → b.aborted

/-- What neither ends the wait nor writes. -/
theorem Posted.still {b' : Buffer} (h : Posted ops b) (hop : op.settles = false)
    (hready : b'.dataReady = b.dataReady) (hdata : b'.data = b.data)
    (hreleased : b'.released = b.released) (hended : b'.ended = b.ended)
    (hfailed : b'.failed = b.failed) (haborted : b'.aborted = b.aborted) :
    Posted (ops ++ [op]) b' := by
  refine ⟨?_, ?_, ?_, ?_⟩
  · rw [hready, h.ready, writePos, writePos, hdata]
  · simp [hreleased, h.released, hop]
  · rw [hended, hreleased]
    exact h.ended
  · rw [hfailed, haborted]
    exact h.failed

/-- A write that stores something says so. -/
theorem write_ready (b : Buffer) (bytes : Bytes) : (b.write bytes).1 = b ∨ ∃ more, 0 < more.size ∧
    (b.write bytes).1 = { b with data := b.data ++ more, dataReady := true } := by
  unfold write
  split
  · exact .inl rfl
  · split
    · exact .inl rfl
    · dsimp only
      split
      · exact .inl rfl
      · next hcount =>
        refine .inr ⟨_, ?_, rfl⟩
        rw [Array.size_extract]
        omega

theorem Posted.apply (h : Posted ops b) (op : Op) : Posted (ops ++ [op]) (b.apply op) := by
  cases op with
  | read room => exact h.still rfl rfl rfl rfl rfl rfl rfl
  | seekFrame frame | seek d =>
    simp only [Buffer.apply, seek, seekFrame]
    split <;> exact h.still rfl rfl rfl rfl rfl rfl rfl
  | size d =>
    cases hc : b.capacity? <;> simp only [Buffer.apply, size, hc, Except.toOption, Option.getD] <;>
      exact h.still rfl rfl rfl rfl rfl rfl rfl
  | write bytes =>
    obtain hw | ⟨more, hmore, hw⟩ := write_ready b bytes
    · rw [Buffer.apply, hw]
      exact h.still rfl rfl rfl rfl rfl rfl rfl
    · rw [Buffer.apply, hw]
      refine ⟨?_, ?_, h.ended, h.failed⟩
      · simp only [writePos, Array.size_append]
        exact (decide_eq_true (by omega)).symm
      · simp [h.released, Op.settles, Op.isEnd, Op.isAbort]
  | endInput =>
    rw [Buffer.apply, endInput]
    split
    · next he =>
      refine ⟨h.ready, ?_, h.ended, h.failed⟩
      rw [h.ended he, List.any_append]
      simp [Op.settles, Op.isEnd]
    · exact ⟨h.ready, by simp [Op.settles, Op.isEnd], fun _ => rfl, h.failed⟩
  | abort =>
    refine ⟨h.ready, ?_, fun _ => rfl, fun _ => rfl⟩
    simp [Buffer.apply, abort, Op.settles, Op.isAbort]
  | fail =>
    refine ⟨h.ready, ?_, fun _ => rfl, fun _ => rfl⟩
    simp [Buffer.apply, fail, abort, Op.settles, Op.isAbort]

theorem posted_run (f : Format) (ops : List Op) : Posted ops ((empty f).run ops) :=
  run_induction (P := Posted) f ⟨rfl, rfl, id, id⟩ (fun _ op h => h.apply op) ops

/-- What a buffer answers is told from the operations. -/
theorem wait?_run (f : Format) (ops : List Op) : ((empty f).run ops).wait? =
    if decided f ops then some (verdict f ops) else none := by
  have hposted := posted_run f ops
  have hfollows := follows_run f ops
  have hstored : decide (0 < ((empty f).run ops).writePos) = !(accepted f ops).isEmpty := by
    rw [hfollows.writePos_eq]
    cases accepted f ops <;> simp
  have haborted : (!((empty f).run ops).failed && !((empty f).run ops).aborted) =
      !ops.any Op.isAbort := by
    rw [← hfollows.aborted]
    have hfailed := hposted.failed
    revert hfailed
    cases ((empty f).run ops).failed <;> cases ((empty f).run ops).aborted <;> simp
  rw [wait?, hposted.ready, hposted.released, hstored, haborted, Bool.and_comm]
  rfl

/-! ### Calls -/

/-- An operation calls exactly if it brings the answer. -/
theorem calls_eq (h : b.wait? = none) (op : Op) : b.calls op = (b.apply op).wait?.isSome := by
  have hposted : b.dataReady = false ∧ b.released = false := by
    simpa [wait?] using h
  obtain ⟨hready, hreleased⟩ := hposted
  cases op with
  | read room => simp [calls, Buffer.apply, read, wait?, hready, hreleased]
  | seekFrame frame | seek d =>
    simp only [calls, Buffer.apply, seek, seekFrame]
    split <;> simp [wait?, hready, hreleased]
  | size d =>
    cases hc : b.capacity? <;>
      simp [calls, Buffer.apply, size, hc, Except.toOption, wait?, hready, hreleased]
  | write bytes =>
    obtain hw | ⟨more, -, hw⟩ := write_ready b bytes <;>
      simp [calls, Buffer.apply, hw, wait?, hready, hreleased]
  | endInput =>
    cases he : b.ended <;> simp [calls, Buffer.apply, endInput, he, wait?, hready, hreleased]
  | abort => simp [calls, Buffer.apply, abort, wait?]
  | fail => simp [calls, Buffer.apply, fail, abort, wait?]

end Buffer

namespace Guest

variable {b : Buffer} {g : Guest}

/-- Who sleeps after a look has found no answer. -/
theorem isBlocked_look (b : Buffer) (g : Guest) :
    (g.look b).isBlocked = (decide (g.waiter = .asleep) && b.wait?.isNone) := by
  cases hw : g.waiter with
  | asleep => cases hb : b.wait? <;> simp [isBlocked, look, Waiter.wake, Waiter.arrive, hw, hb]
  | answered hasData => simp [isBlocked, look, Waiter.wake, hw]

/-- What a look tells somebody who has not been told. -/
theorem waiter_look {hasData : Bool} (hw : g.waiter = .asleep) :
    (g.look b).waiter = .answered hasData ↔ b.wait? = some hasData := by
  cases hb : b.wait? <;> simp [look, Waiter.wake, Waiter.arrive, hw, hb]

theorem waiter_look_of_answered {hasData : Bool} (hw : g.waiter = .answered hasData) :
    (g.look b).waiter = .answered hasData := by
  simp [look, Waiter.wake, hw]

/-- Whoever looks only when called is told what one is told who looks after every operation. -/
theorem wake_apply (h : g.isBlocked → b.wait? = none) (hg : g.roused = false) (op : Buffer.Op) :
    (if b.calls op then g.call.look (b.apply op) else g).waiter = g.waiter.wake (b.apply op) := by
  cases hw : g.waiter with
  | answered hasData => split <;> simp [look, call, Waiter.wake, hw]
  | asleep =>
    rw [Buffer.calls_eq (h (by simp [isBlocked, hw, hg]))]
    cases hb : (b.apply op).wait? <;> simp [look, call, Waiter.wake, Waiter.arrive, hw, hb]

end Guest

namespace Lobby

open Buffer (decided verdict)

variable {f : Format} {l : Lobby} {moves : List Move}

/-- The operations among what happens. -/
def operations (moves : List Move) : List Buffer.Op :=
  moves.filterMap fun
    | .operate op => some op
    | _ => none

@[simp] theorem operations_append (moves more : List Move) :
    operations (moves ++ more) = operations moves ++ operations more := List.filterMap_append

theorem run_append (l : Lobby) (moves more : List Move) :
    l.run (moves ++ more) = (l.run moves).run more := List.foldl_append

/-- Guests do nothing to the buffer. -/
theorem buffer_run (l : Lobby) (moves : List Move) :
    (l.run moves).buffer = l.buffer.run (operations moves) := by
  induction moves generalizing l with
  | nil => rfl
  | cons m moves ih =>
    have hrest := ih (l.step m)
    cases m <;> exact hrest

/-! ### Nobody sleeps too long -/

/-- Whoever sleeps, sleeps rightly. -/
def Rightly (l : Lobby) : Prop := ∀ g ∈ l.guests, g.isBlocked → l.buffer.wait? = none

theorem Rightly.step (h : l.Rightly) (m : Move) : (l.step m).Rightly := by
  intro g hg hblocked
  cases m with
  | enter =>
    rcases List.mem_append.1 hg with hg | hg
    · exact h g hg hblocked
    · rw [List.mem_singleton.1 hg] at hblocked
      cases hblocked
  | look i =>
    obtain ⟨j, hj⟩ := List.getElem?_of_mem hg
    rw [Lobby.step, List.getElem?_modify] at hj
    obtain ⟨g₀, hg₀, hlook⟩ := Option.map_eq_some_iff.1 hj
    split at hlook
    · rw [← hlook, Guest.isBlocked_look, Bool.and_eq_true, Option.isNone_iff_eq_none] at hblocked
      exact hblocked.2
    · rw [← hlook] at hblocked
      exact h g₀ (List.mem_of_getElem? hg₀) hblocked
  | operate op =>
    simp only [Lobby.step] at hg ⊢
    split at hg
    · -- everybody has been called
      obtain ⟨g₀, -, rfl⟩ := List.mem_map.1 hg
      simp [Guest.isBlocked, Guest.call] at hblocked
    · next hcalls =>
      rw [Buffer.calls_eq (h g hg hblocked)] at hcalls
      simpa using hcalls

theorem rightly_run (h : l.Rightly) (moves : List Move) : (l.run moves).Rightly := by
  induction moves generalizing l with
  | nil => exact h
  | cons m moves ih => exact ih (h.step m)

/-! ### What guests are told -/

/-- What the guest with some number knows. -/
def knows (l : Lobby) (i : Nat) : Option Waiter := (l.guests[i]?).map (·.waiter)

/-- A guest learns something only by looking. -/
theorem knows_step {i : Nat} {hasData : Bool} {m : Move}
    (h : (l.step m).knows i = some (.answered hasData)) :
    l.knows i = some (.answered hasData) ∨
      m = .look i ∧ l.knows i = some .asleep ∧ l.buffer.wait? = some hasData := by
  obtain ⟨g, hg, hw⟩ := Option.map_eq_some_iff.1 h
  cases m with
  | enter =>
    left
    simp only [step] at hg
    rw [List.getElem?_append] at hg
    split at hg
    · exact Option.map_eq_some_iff.2 ⟨g, hg, hw⟩
    · rw [List.mem_singleton.1 (List.mem_of_getElem? hg)] at hw
      cases hw
  | operate op =>
    left
    simp only [step] at hg
    split at hg
    · rw [List.getElem?_map] at hg
      obtain ⟨g₀, hg₀, rfl⟩ := Option.map_eq_some_iff.1 hg
      exact Option.map_eq_some_iff.2 ⟨g₀, hg₀, hw⟩
    · exact Option.map_eq_some_iff.2 ⟨g, hg, hw⟩
  | look j =>
    rw [step, List.getElem?_modify] at hg
    obtain ⟨g₀, hg₀, hlook⟩ := Option.map_eq_some_iff.1 hg
    have known : l.knows i = some g₀.waiter := Option.map_eq_some_iff.2 ⟨g₀, hg₀, rfl⟩
    split at hlook
    · next hij =>
      subst hij hlook
      cases hold : g₀.waiter with
      | asleep => exact .inr ⟨rfl, hold ▸ known, (Guest.waiter_look hold).1 hw⟩
      | answered other =>
        left
        rw [known, hold, ← Guest.waiter_look_of_answered hold, hw]
    · left
      rw [known, hlook, hw]

/-- A guest who knows something looked at the buffer at some moment, and was told what held then. -/
theorem knows_run (hl : l.guests = []) {i : Nat} {hasData : Bool}
    (h : (l.run moves).knows i = some (.answered hasData)) :
    ∃ before after, moves = before ++ .look i :: after ∧
      (l.run before).knows i = some .asleep ∧ (l.run before).buffer.wait? = some hasData := by
  induction moves using List.reverseRecOn with
  | nil => simp [run, knows, hl] at h
  | append_singleton moves m ih =>
    rw [run_append] at h
    obtain hknown | ⟨rfl, hasleep, hwait⟩ := knows_step h
    · obtain ⟨before, after, rfl, htold⟩ := ih hknown
      exact ⟨before, after ++ [m], by simp, htold⟩
    · exact ⟨moves, [], rfl, hasleep, hwait⟩

/-! ### No call is missed -/

theorem wait?_empty_run (f : Format) (moves : List Move) : ((empty f).run moves).buffer.wait? =
    if decided f (operations moves) then some (verdict f (operations moves)) else none := by
  rw [buffer_run]
  exact Buffer.wait?_run f (operations moves)

/-- What a guest has been told held at the moment of its look. -/
theorem told_run (f : Format) {i : Nat} {hasData : Bool}
    (h : ((empty f).run moves).knows i = some (.answered hasData)) :
    ∃ before after, moves = before ++ .look i :: after ∧
      ((empty f).run before).knows i = some .asleep ∧
      decided f (operations before) ∧ hasData = verdict f (operations before) := by
  obtain ⟨before, after, hmoves, hasleep, hwait⟩ := knows_run rfl h
  rw [wait?_empty_run, Option.ite_none_right_eq_some, Option.some.injEq] at hwait
  exact ⟨before, after, hmoves, hasleep, hwait.1, hwait.2.symm⟩

/-- Nobody has been told anything before there is an answer. -/
theorem asleep_run (h : decided f (operations moves) = false) :
    ∀ g ∈ ((empty f).run moves).guests, g.waiter = .asleep := by
  intro g hg
  cases hw : g.waiter with
  | asleep => rfl
  | answered hasData =>
    obtain ⟨i, hi⟩ := List.getElem?_of_mem hg
    have hknows : ((empty f).run moves).knows i = some (.answered hasData) := by
      rw [knows, hi, Option.map_some, hw]
    obtain ⟨before, after, hmoves, -, hbefore, -⟩ := told_run f hknows
    have hops : decided f (operations moves) := by
      rw [hmoves, operations_append]
      exact Buffer.decided_append hbefore _
    rw [h] at hops
    cases hops

theorem rightly_empty_run (f : Format) (moves : List Move) : ((empty f).run moves).Rightly :=
  rightly_run (fun _ hg => (List.not_mem_nil hg).elim) moves

/-- Nobody sleeps when there is an answer. -/
theorem not_isBlocked (h : decided f (operations moves)) :
    ∀ g ∈ ((empty f).run moves).guests, g.isBlocked = false := by
  intro g hg
  have hwait := mt (rightly_empty_run f moves g hg)
  rw [wait?_empty_run, if_pos h] at hwait
  simpa using hwait

/-- As long as no byte has been stored, the input has not ended and no abort has come, nobody has been
told anything and whoever looks sleeps on. The operation that changes this calls everybody, an
operation before it calls nobody. From then on nobody sleeps, however early or late it came, and
whoever looks is told whether there is data and no abort has come; what anybody has been told held at
the moment of its look. So to look only when called is as good as to look after every operation. -/
theorem no_call_is_missed (f : Format) (moves : List Move) :
    let l := (empty f).run moves
    let ops := operations moves
    (decided f ops = false →
      (∀ g ∈ l.guests, g.waiter = .asleep ∧ (g.look l.buffer).isBlocked) ∧
      ∀ op, (l.step (.operate op)).guests =
        if decided f (ops ++ [op]) then l.guests.map Guest.call else l.guests) ∧
    (decided f ops → ∀ more,
      decided f (ops ++ operations more) ∧
      ∀ g ∈ (l.run more).guests, g.isBlocked = false ∧
        (g.waiter = .asleep →
          (g.look (l.run more).buffer).waiter = .answered (verdict f (ops ++ operations more)))) ∧
    (∀ i hasData, l.knows i = some (.answered hasData) →
      ∃ before after, moves = before ++ .look i :: after ∧
        ((empty f).run before).knows i = some .asleep ∧
        decided f (operations before) ∧ hasData = verdict f (operations before)) ∧
    ∀ g ∈ l.guests, g.roused = false → ∀ op,
      (if l.buffer.calls op then g.call.look (l.buffer.apply op) else g).waiter =
        g.waiter.wake (l.buffer.apply op) := by
  intro l ops
  refine ⟨fun hopen => ?_, fun hdecided more => ?_, fun i hasData => told_run f,
    fun g hg => Guest.wake_apply (rightly_empty_run f moves g hg)⟩
  · have hwait : l.buffer.wait? = none := by
      rw [wait?_empty_run, hopen]
      rfl
    refine ⟨fun g hg => ?_, fun op => ?_⟩
    · have hasleep : g.waiter = .asleep := asleep_run hopen g hg
      refine ⟨hasleep, ?_⟩
      rw [Guest.isBlocked_look, hasleep, hwait]
      rfl
    · have happly : (l.buffer.apply op).wait? =
          if decided f (ops ++ [op]) then some (verdict f (ops ++ [op])) else none := by
        rw [buffer_run]
        simpa [Buffer.run, empty] using Buffer.wait?_run f (ops ++ [op])
      rw [step, Buffer.calls_eq hwait, happly]
      split <;> simp [*]
  · have hmore : decided f (ops ++ operations more) := Buffer.decided_append hdecided _
    refine ⟨hmore, fun g hg => ?_⟩
    rw [← operations_append] at hmore ⊢
    rw [← run_append] at hg ⊢
    refine ⟨not_isBlocked hmore g hg, fun hasleep => ?_⟩
    rw [Guest.waiter_look hasleep, wait?_empty_run, if_pos hmore]

/-- The first guest sleeps through a write into the unsized buffer and an empty one, and is called by
the first byte; the second has been called with it, but looks only after an abort. -/
theorem no_call_is_missed_twoGuests :
    let f : Format := ⟨1000, 1, .signed16, .little⟩
    let first : Buffer.Op := .write #[1]
    let quiet : List Move :=
      [.enter, .look 0, .operate (.write #[1]), .operate (.size ⟨2000000⟩), .look 0,
        .operate (.write #[]), .enter, .look 1]
    let called : List Move := quiet ++ [.operate first]
    let more : List Move := [.look 0, .operate .abort, .look 1]
    (decided f (operations quiet) = false ∧
        (∀ g ∈ ((empty f).run quiet).guests, g.waiter = .asleep) ∧
        (((empty f).run quiet).step (.operate first)).guests =
          ((empty f).run quiet).guests.map Guest.call) ∧
      (decided f (operations called) ∧
        ∀ g ∈ (((empty f).run called).run more).guests, g.isBlocked = false) ∧
      (((empty f).run called).run more).knows 0 = some (.answered true) ∧
      (((empty f).run called).run more).knows 1 = some (.answered false) := by
  intro f first quiet called more
  have hopen : decided f (operations quiet) = false := by decide
  have hfirst : decided f (operations quiet ++ [first]) := by decide
  have hclosed : decided f (operations called) := by decide
  obtain ⟨hquiet, -, -⟩ := no_call_is_missed f quiet
  obtain ⟨-, hcalled, -⟩ := no_call_is_missed f called
  obtain ⟨hasleep, hcall⟩ := hquiet hopen
  obtain ⟨-, hall⟩ := hcalled hclosed more
  refine ⟨⟨hopen, fun g hg => (hasleep g hg).1, ?_⟩, ⟨hclosed, fun g hg => (hall g hg).1⟩,
    by decide, by decide⟩
  rw [hcall first, if_pos hfirst]

end Lobby

end Jukebox
