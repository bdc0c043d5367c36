import Jukebox.Proofs.Deck.Run

/-!
What is always true of the requests on their way. They are taken in the order they were sent; the
starts among them carry the numbers that follow the number of the running session, without a gap;
and the request to end is on its way exactly while the control side has ended and the output side
has not. So the running session is the one the control side means as soon as no start is on its way.
-/

namespace Jukebox.Deck

open Output.Sketch (Turn)

/-- The session that a request starts. -/
def Request.number? : Request → Option Nat
  | .start id _ _ => some id
  | _ => none

/-- The sessions that requests start. -/
def numbers (rs : List Request) : List Nat := rs.filterMap Request.number?

/-- The requests that have been sent and not taken. -/
def pending (k : Control.Sketch) (f : Output.Sketch) : List Request := k.sent.drop f.taken

@[simp] theorem numbers_nil : numbers [] = [] := rfl

@[simp] theorem numbers_append (rs rs' : List Request) :
    numbers (rs ++ rs') = numbers rs ++ numbers rs' := List.filterMap_append

theorem numbers_cons_of_none {r : Request} (hr : r.number? = none) (rs : List Request) :
    numbers (r :: rs) = numbers rs := List.filterMap_cons_none hr

theorem numbers_cons_of_some {r : Request} {id : Nat} (hr : r.number? = some id)
    (rs : List Request) : numbers (r :: rs) = id :: numbers rs := List.filterMap_cons_some hr

/-- The session that a reaction starts. -/
def Cause.number? : Cause → Option Nat
  | .request _ r => r.number?
  | _ => none

theorem Cause.number?_eq_none {c : Cause} (h : c.isRequest = false) : c.number? = none := by
  cases c <;> first | rfl | cases h

namespace Control.Sketch

/-- The control side has sent these requests and done nothing that cannot be undone. -/
structure Sends (k k' : Sketch) (news : List Request) : Prop where
  sent : k'.sent = k.sent ++ news
  later : k.session ≤ k'.session
  numbered : numbers news = List.range' (k.session + 1) (k'.session - k.session)
  closing : k'.closed = true ↔ k.closed = true ∨ .shutdown ∈ news
  titles : k'.playlist.titles = k.playlist.titles

variable {k k' : Sketch}

theorem Sends.nothing (hs : k'.sent = k.sent ∧ k'.session = k.session ∧ k'.closed = k.closed)
    (ht : k'.playlist.titles = k.playlist.titles) : k.Sends k' [] := by
  obtain ⟨hs, hn, hc⟩ := hs
  exact ⟨by simp [hs], by omega, by simp [hn], by simp [hc], ht⟩

/-- One request that belongs to the running session or to none. -/
theorem Sends.asked {r : Request} (hr : r.number? = none)
    (hs : k'.sent = k.sent ++ [r] ∧ k'.session = k.session)
    (hc : k'.closed = true ↔ k.closed = true ∨ r = .shutdown)
    (ht : k'.playlist.titles = k.playlist.titles) : k.Sends k' [r] := by
  obtain ⟨hs, hn⟩ := hs
  refine ⟨hs, by omega, by simp [hn, numbers_cons_of_none hr], ?_, ht⟩
  rw [hc, List.mem_singleton]
  exact or_congr_right eq_comm

theorem Sends.begun {p : Playlist} {t : Nat} (ht : p.titles = k.playlist.titles) :
    k.Sends (k.begin p t) [.start (k.session + 1) t k.pendingSeek] := by
  refine ⟨rfl, Nat.le_succ _, ?_, by simp [begin], ht⟩
  rw [numbers_cons_of_some rfl]
  simp [begin]

@[simp] theorem titles_marked : k.marked.titles = k.playlist.titles := by
  unfold marked
  split <;> simp

@[simp] theorem titles_step (p : Playlist) (target : Transport.Target) :
    (target.step p).titles = p.titles := by
  cases target <;> simp [Transport.Target.step]

theorem Ordered.sends {c : Command} (h : k.Ordered c k') : ∃ news, k.Sends k' news := by
  cases h with
  | begin => exact ⟨_, .begun rfl⟩
  | fade | cut | suspend | resume | halt | seek | tempo | shutdown =>
    exact ⟨_, .asked rfl ⟨rfl, rfl⟩ (by simp [ask]) rfl⟩
  | step _ hc =>
    refine ⟨_, .nothing ⟨rfl, rfl, rfl⟩ ?_⟩
    rcases hc with ⟨-, rfl⟩ | ⟨-, rfl⟩ <;> simp
  | turn | remember | ignored => exact ⟨_, .nothing ⟨rfl, rfl, rfl⟩ rfl⟩

theorem Heard.sends {e : DeviceEvent} (h : k.Heard e k') : ∃ news, k.Sends k' news := by
  cases h with
  | next | arrive | skip => exact ⟨_, .begun (by simp)⟩
  | giveUp => exact ⟨_, .nothing ⟨rfl, rfl, rfl⟩ titles_marked⟩
  | mark => exact ⟨_, .nothing ⟨rfl, rfl, rfl⟩ (by simp)⟩
  | play | pause | finish | ignored => exact ⟨_, .nothing ⟨rfl, rfl, rfl⟩ rfl⟩

/-- What the control side can do. -/
inductive Acts (k : Sketch) : Sketch → Prop where
  | nothing : Acts k k
  | ordered {c k'} (h : k.Ordered c k') : Acts k k'
  | heard {e k'} (h : k.Heard e k') : Acts k k'

theorem Acts.sends (h : k.Acts k') : ∃ news, k.Sends k' news := by
  cases h with
  | nothing => exact ⟨_, .nothing ⟨rfl, rfl, rfl⟩ rfl⟩
  | ordered h => exact h.sends
  | heard h => exact h.sends

end Control.Sketch

variable {w : World} {m : Move} {c : Cause} {k k' : Control.Sketch} {f f' : Output.Sketch}

namespace Output.Sketch

theorem Turn.taken_eq (h : Turn w c f f') : f'.taken = f.taken := by
  cases h <;> rfl

theorem Turn.ready (h : Turn w .acknowledgement f f') : f'.phase = .ready := by
  cases h <;> rfl

/-- A new session is the one that was asked for. -/
theorem Turn.session_of_start {id : Nat} (h : Turn w c f f') (hc : c.number? = some id) :
    ∃ z, f'.session = some z ∧ z.id = id := by
  cases h <;> simp [Cause.number?, Request.number?] at hc
  · exact ⟨_, rfl, hc⟩
  · exact ⟨_, rfl, hc⟩

/-- Only a start makes a session. -/
theorem Turn.session_of_other (h : Turn w c f f') (hc : c.number? = none) {z' : Session}
    (hz : f'.session = some z') : ∃ z, f.session = some z ∧ z.id = z'.id := by
  cases h with
  | empty => cases hc
  | load => cases hc
  | shutdown => cases hz
  | ended => cases hz
  | suspend hs | resume hs | stop hs | cut hs | dry hs | failed _ hs | opened _ hs | idle hs =>
    cases hz
    exact ⟨_, hs, rfl⟩
  | _ => exact ⟨z', hz, rfl⟩

end Output.Sketch

/-! ### Sending and taking -/

theorem pending_cons {r : Request} (hr : k.sent[f.taken]? = some r) (ht : f'.taken = f.taken + 1) :
    pending k f = r :: pending k f' := by
  rw [pending, pending, ht, List.drop_eq_getElem?_toList_append, hr]
  rfl

/-- A step sends requests, or takes the next one. -/
inductive Post (w : World) (k : Control.Sketch) (f : Output.Sketch) (k' : Control.Sketch)
    (f' : Output.Sketch) : Prop where
  | sent {news c idle} (ha : k.Acts k') (hk : k.Sends k' news)
      (hp : pending k' f' = pending k f ++ news) (hf : Turn w c { f with idle } f')
      (hn : c.isRequest = false) (hc : f.phase = .closed → f'.phase = .closed)
  | taken {r} (hk : k' = k) (hready : f.phase = .ready) (hr : k.sent[f.taken]? = some r)
      (hp : pending k f = r :: pending k f')
      (hf : Turn w (.request k.playlist r) { f with taken := f.taken + 1 } f')

theorem Shift.post (hm : Shift w m k f k' f') (ht : f.taken ≤ k.sent.length) :
    Post w k f k' f' ∧ f'.taken ≤ k'.sent.length := by
  have sends : ∀ {c idle k'}, k.Acts k' → Turn w c { f with idle } f' → c.isRequest = false →
      (f.phase = .closed → f'.phase = .closed) →
      Post w k f k' f' ∧ f'.taken ≤ k'.sent.length := by
    intro c idle k' ha hf hn hc
    obtain ⟨news, hk⟩ := ha.sends
    have htaken : f'.taken = f.taken := hf.taken_eq
    refine ⟨.sent ha hk ?_ hf hn hc, ?_⟩
    · rw [pending, pending, hk.sent, htaken, List.drop_append_of_le_length ht]
    · rw [htaken, hk.sent, List.length_append]
      omega
  cases hm with
  | give => exact sends .nothing .produced rfl id
  | command ho hk => exact sends (.ordered hk) .produced rfl id
  | @notice n _ _ _ _ ho hp hk hk' hf =>
    have hopen : f.phase = .closed → f'.phase = .closed := by simp [hp]
    by_cases hn : n.session = k.session
    · exact sends (.heard (hk hn)) hf rfl hopen
    · rw [hk' hn]
      exact sends .nothing hf rfl hopen
  | giveUp _ hf =>
    refine sends .nothing hf rfl ?_
    cases hf <;> simp_all
  | request hp hr hf =>
    have ht' := hf.taken_eq
    have hlt : f.taken < k.sent.length := (List.getElem?_eq_some_iff.1 hr).1
    exact ⟨.taken rfl hp hr (pending_cons hr ht') hf, by rw [ht']; exact hlt⟩
  | idle hp hi hf => exact sends .nothing hf rfl (by simp [hp])
  | proceed hf =>
    refine sends .nothing hf rfl ?_
    cases hf <;> simp_all
  | render hf =>
    refine sends .nothing hf rfl ?_
    cases hf <;> exact id
  | produce hf =>
    refine sends .nothing hf rfl ?_
    cases hf
    exact id

/-! ### The mail -/

/-- What is always true of the requests on their way. -/
structure Mail (k : Control.Sketch) (f : Output.Sketch) : Prop where
  taken : f.taken ≤ k.sent.length
  numbered : ∃ n, n ≤ k.session ∧
    numbers (pending k f) = List.range' (n + 1) (k.session - n) ∧
      ∀ z, f.session = some z → z.id = n
  closing : k.closed = true → .shutdown ∈ pending k f ∨ f.phase = .closed
  unclosed : k.closed = false → .shutdown ∉ k.sent

/-- The running session is the one the control side means exactly if no start is on its way. -/
theorem Mail.current_iff (h : Mail k f) {z : Session} (hs : f.session = some z) :
    z.id = k.session ↔ numbers (pending k f) = [] := by
  obtain ⟨n, hn, hp, hz⟩ := h.numbered
  rw [hz z hs, hp, List.range'_eq_nil_iff]
  omega

/-- Nothing is asked to end before the control side has ended. -/
theorem Mail.ne_shutdown (h : Mail k f) (ho : k.closed = false) {r : Request} {rs : List Request}
    (hp : pending k f = r :: rs) : r ≠ .shutdown := by
  rintro rfl
  have hm : .shutdown ∈ pending k f := by simp [hp]
  exact h.unclosed ho (List.mem_of_mem_drop hm)

/-- Sending keeps it. -/
theorem Mail.send {news : List Request} (h : Mail k f) (hk : k.Sends k' news)
    (hp : pending k' f' = pending k f ++ news) (ht : f'.taken ≤ k'.sent.length)
    (hz : ∀ z', f'.session = some z' → ∃ z, f.session = some z ∧ z.id = z'.id)
    (hc : f.phase = .closed → f'.phase = .closed) : Mail k' f' := by
  obtain ⟨n, hn, hnum, hid⟩ := h.numbered
  have hlater := hk.later
  refine ⟨ht, ⟨n, by omega, ?_, fun z' hs => ?_⟩, fun hcl => ?_, fun hop => ?_⟩
  · have hnext : k.session + 1 = n + 1 + (k.session - n) := by omega
    have hlen : k.session - n + (k'.session - k.session) = k'.session - n := by omega
    rw [hp, numbers_append, hnum, hk.numbered, hnext, List.range'_append_1, hlen]
  · obtain ⟨z, hs', hz'⟩ := hz z' hs
    rw [← hz', hid z hs']
  · rw [hp, List.mem_append]
    rcases hk.closing.1 hcl with hcl | hm
    · exact (h.closing hcl).imp .inl hc
    · exact .inl (.inr hm)
  · rw [hk.sent, List.mem_append]
    have hno : k.closed = false ∧ .shutdown ∉ news := by
      constructor
      · exact Bool.eq_false_iff.2 fun hcl => by simp [hk.closing.2 (.inl hcl)] at hop
      · exact fun hm => by simp [hk.closing.2 (.inr hm)] at hop
    exact fun hm => hm.elim (h.unclosed hno.1) hno.2

/-- Taking keeps it. -/
theorem Mail.take {r : Request} (h : Mail k f) (hready : f.phase = .ready)
    (hp : pending k f = r :: pending k f') (ht : f'.taken ≤ k.sent.length)
    (hf : Turn w (.request k.playlist r) { f with taken := f.taken + 1 } f') : Mail k f' := by
  obtain ⟨n, hn, hnum, hid⟩ := h.numbered
  refine ⟨ht, ?_, fun hcl => ?_, h.unclosed⟩
  · rw [hp] at hnum
    cases hr : r.number? with
    | none =>
      rw [numbers_cons_of_none hr] at hnum
      refine ⟨n, hn, hnum, fun z' hz' => ?_⟩
      obtain ⟨z, hz, hzz⟩ := hf.session_of_other hr hz'
      rw [← hzz, hid z hz]
    | some id =>
      rw [numbers_cons_of_some hr, eq_comm, List.range'_eq_cons_iff] at hnum
      obtain ⟨hid', hpos, hnum⟩ := hnum
      obtain ⟨z, hz, hzz⟩ := hf.session_of_start hr
      refine ⟨n + 1, by omega, ?_, fun z' hz' => ?_⟩
      · rw [hnum, Nat.sub_sub, hid']
      · rw [hz] at hz'
        cases hz'
        omega
  · have hm := (h.closing hcl).resolve_right (by simp [hready])
    rw [hp, List.mem_cons] at hm
    rcases hm with rfl | hm
    · cases hf
      exact .inr rfl
    · exact .inl hm

theorem Mail.shift (h : Mail k f) (hm : Shift w m k f k' f') : Mail k' f' := by
  obtain ⟨hpost, ht⟩ := hm.post h.taken
  cases hpost with
  | sent _ hk hp hf hn hc =>
    exact h.send hk hp ht (fun _ => hf.session_of_other (Cause.number?_eq_none hn)) hc
  | taken hk hready _ hp hf =>
    subst hk
    exact h.take hready hp ht hf

/-- The numbers of sessions that are already taken. -/
structure Past (k : Control.Sketch) (f : Output.Sketch) (id : Nat) : Prop where
  known : id ≤ k.session
  before : ∀ n ∈ numbers (pending k f), id < n

/-- A session that runs has its number, and no later one has begun. -/
theorem Mail.past_iff (h : Mail k f) {z : Session} {id : Nat}
    (hz : f.session = some z) : Past k f id ↔ id ≤ z.id := by
  obtain ⟨n, hn, hnum, hid⟩ := h.numbered
  rw [hid z hz]
  constructor
  · rintro ⟨hknown, hbefore⟩
    rw [hnum] at hbefore
    by_cases he : k.session = n
    · omega
    · have hlt := hbefore (n + 1) (List.mem_range'_1.2 (by omega))
      omega
  · intro hle
    refine ⟨Nat.le_trans hle hn, fun i hi => ?_⟩
    rw [hnum, List.mem_range'_1] at hi
    omega

theorem Past.shift {id : Nat} (h : Past k f id) (hmail : Mail k f)
    (hm : Shift w m k f k' f') : Past k' f' id := by
  cases (hm.post hmail.taken).1 with
  | sent _ hk hp =>
    refine ⟨Nat.le_trans h.known hk.later, fun n hn => ?_⟩
    rw [hp, numbers_append, List.mem_append, hk.numbered, List.mem_range'_1] at hn
    rcases hn with hn | ⟨hn, -⟩
    · exact h.before n hn
    · exact Nat.lt_of_le_of_lt h.known hn
  | @taken r hk _ _ hp =>
    subst hk
    refine ⟨h.known, fun n hn => h.before n ?_⟩
    rw [hp, numbers, List.filterMap_cons]
    split
    · exact hn
    · exact List.mem_cons_of_mem _ hn

end Jukebox.Deck
