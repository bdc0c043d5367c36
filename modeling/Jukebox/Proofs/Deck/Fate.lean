import Jukebox.Proofs.Deck.Account
import Jukebox.Proofs.Deck.Inbox
import Jukebox.Proofs.Deck.Notices

/-!
What subscribers learn of each session. The first notice that is taken of a session finds the control
side on this session, still waiting for it, and decides: the track has started, or it cannot be
played and is marked. Later notices of the session tell no more of it, however often it is paused and
resumed. So a subscriber that has been there from the beginning is told of each start once, as soon
as its first notice has been taken.
-/

namespace Jukebox

theorem Playlist.size_of_titles {p p' : Playlist} (h : p.titles = p'.titles) :
    p.size = p'.size := by
  simpa [Playlist.titles, Playlist.size] using congrArg List.length h

namespace Deck

open Transport (State)

/-- The notice that is taken in a step. -/
def heard? (d : Deck) : Move → Option Notice
  | .takeNotice => d.notice?
  | _ => none

/-- The notices that are taken in a run, oldest first. -/
def heard (w : World) : Deck → List Move → List Notice :=
  yields (fun d m _ => (d.heard? m).toList) w

/-- What the first subscriber is told of tracks when a notice is taken, with the session of it. -/
def tellings (d : Deck) (m : Move) (d' : Deck) : List (Nat × Fate) :=
  (d.heard? m).toList.flatMap fun n =>
    (d'.control.fates.drop d.control.fates.length).map fun fate => (n.session, fate)

/-- What the first subscriber is told of tracks by the notices of a run, each with its session. -/
def told (w : World) : Deck → List Move → List (Nat × Fate) := yields tellings w

/-- What has been told by the notices of a session. -/
def fatesOf (id : Nat) (ts : List (Nat × Fate)) : List Fate :=
  (ts.filter (·.1 = id)).map (·.2)

/-- The first report on a session. -/
def first? (id : Nat) (ns : List Notice) : Option DeviceEvent := (eventsOf id ns).head?

/-- The fate that the first report on a session decides. -/
def DeviceEvent.fate? (title : String) : DeviceEvent → Option Fate
  | .active => some (.started title)
  | .failed => some (.unplayable title)
  | .suspended | .idle => none

/-- A deck with a subscriber, before anything else has happened. -/
def attended (fades : Fades) (playlist : Playlist) : Deck :=
  { control := { fades, playlist, inboxes := [[]] } }

variable {w : World} {m : Move} {d d' d₀ : Deck} {ns hs : List Notice} {n : Notice} {id : Nat}
  {ts : List (Nat × Fate)} {es : List DeviceEvent} {e : DeviceEvent}
  {k k' : Control.Sketch} {c c' : Control} {fades : Fades} {playlist : Playlist}

/-! ### Histories -/

theorem notices_eq_yields (moves : List Move) : notices w d moves =
    yields (fun d _ d' => (d.output.phase.news d'.output.phase).toList) w d moves := by
  induction moves generalizing d with
  | nil => rfl
  | cons m ms ih => simp only [notices, yields, ih]

theorem first?_concat (id : Nat) (ns : List Notice) (n : Notice) :
    first? id (ns ++ [n]) = (first? id ns).or (if n.session = id then some n.event else none) := by
  unfold first?
  rw [eventsOf_append, List.head?_append]
  split
  · next hn =>
    subst hn
    rw [eventsOf_self]
    rfl
  · next hn =>
    rw [eventsOf_other hn]
    rfl

theorem first?_eq_none : first? id ns = none ↔ eventsOf id ns = [] := List.head?_eq_none_iff

@[simp] theorem fatesOf_append (id : Nat) (ts ts' : List (Nat × Fate)) :
    fatesOf id (ts ++ ts') = fatesOf id ts ++ fatesOf id ts' := by
  simp [fatesOf]

theorem fatesOf_eq_nil (h : ∀ t ∈ ts, t.1 ≠ id) : fatesOf id ts = [] := by
  simpa [fatesOf] using h

theorem fatesOf_labelled (id session : Nat) (fates : List Fate) :
    fatesOf id (fates.map fun fate => (session, fate)) = if session = id then fates else [] := by
  unfold fatesOf
  by_cases h : session = id <;> simp [List.filter_map, Function.comp_def, h]

/-! ### The story of one session -/

/-- A session first is active or has failed. -/
theorem Story.first (h : Story [e]) : e = .active ∨ e = .failed := by
  obtain ⟨⟨⟩⟩ | ⟨sounds, front, hfront, h | h⟩ := h
  · cases sounds with
    | true =>
      obtain ⟨rest, rfl, -⟩ := hfront
      exact .inl (List.cons.inj h).1
    | false => exact .inr (List.cons.inj (h.trans hfront)).1
  · cases sounds with
    | true =>
      obtain ⟨rest, rfl, -⟩ := hfront
      exact .inl (List.cons.inj h).1
    | false =>
      rw [show front = [.failed] from hfront] at h
      cases h

/-- Later it does not fail, and what is active has been active from the beginning. -/
theorem Story.later (h : Story (es ++ [e])) (hes : es ≠ []) :
    e ≠ .failed ∧ (e = .active → .active ∈ es) := by
  obtain ⟨x, es, rfl⟩ := List.exists_cons_of_ne_nil hes
  obtain ⟨⟨⟩⟩ | ⟨sounds, front, hfront, h | h⟩ := h
  · cases sounds with
    | true =>
      obtain ⟨rest, rfl, hrest⟩ := hfront
      obtain ⟨rfl, rfl⟩ := List.cons.inj h
      refine ⟨?_, fun _ => List.mem_cons_self ..⟩
      rcases hrest e (by simp) with rfl | rfl <;> nofun
    | false =>
      rw [show front = [.failed] from hfront] at h
      simp at h
  · obtain rfl : e = .idle := (List.append_inj_right' h rfl) |> List.singleton_inj.1
    exact ⟨nofun, nofun⟩

/-! ### The course of a session -/

namespace Control.Sketch

/-- A command leaves a session that is awaited, or begins another one. -/
theorem Ordered.begins {cmd : Command} (h : k.Ordered cmd k') :
    k'.session = k.session ∧ (Awaits k.state → Awaits k'.state) ∨
      ¬ Awaits k.state ∧ ∃ p t, k' = k.begin p t ∧ p.current? = some t := by
  cases h with
  | begin hs ht =>
    refine .inr ⟨?_, _, _, rfl, ht⟩
    rcases hs with hs | hs <;> simp [Awaits, hs, State.isFading]
  | fade _ hc =>
    refine .inl ⟨rfl, fun _ => .inr ?_⟩
    rcases hc with ⟨-, rfl⟩ | ⟨-, rfl⟩ | ⟨-, rfl⟩ | ⟨-, rfl⟩ <;> rfl
  | turn => exact .inl ⟨rfl, fun _ => .inr rfl⟩
  | cut hc =>
    refine .inl ⟨rfl, fun _ => .inr ?_⟩
    rcases hc with ⟨-, -, rfl⟩ | ⟨-, ⟨-, rfl⟩ | ⟨-, rfl⟩⟩ <;> rfl
  | _ => exact .inl ⟨rfl, id⟩

theorem Heard.begins (h : k.Heard e k') : k'.session = k.session ∨
    ∃ p t, k' = k.begin p t ∧ p.current? = some t := by
  cases h with
  | next _ _ ht | arrive _ ht | skip _ _ ht => exact .inr ⟨_, _, rfl, ht⟩
  | _ => exact .inl rfl

theorem Sends.size {news : List Request} (h : k.Sends k' news) :
    k'.playlist.size = k.playlist.size := Playlist.size_of_titles h.titles

theorem Sends.mem_sent {news : List Request} (h : k.Sends k' news) {r : Request}
    (hr : r ∈ k.sent) : r ∈ k'.sent := h.sent ▸ List.mem_append_left news hr

/-- A start that has been sent is old or has a new number. -/
theorem Sends.start_mem {news : List Request} (h : k.Sends k' news) {track : Nat}
    {seek : Option Span} (hm : .start id track seek ∈ k'.sent) :
    .start id track seek ∈ k.sent ∨ k.session < id ∧ id ≤ k'.session := by
  rw [h.sent, List.mem_append] at hm
  refine hm.imp_right fun hm => ?_
  have hnum : id ∈ numbers news := List.mem_filterMap.2 ⟨_, hm, rfl⟩
  rw [h.numbered, List.mem_range'_1] at hnum
  omega

end Control.Sketch

/-- The starts so far and what has been heard of them. -/
structure Courses (hs : List Notice) (k : Control.Sketch) : Prop where
  fresh : ∀ id, k.session < id → eventsOf id hs = []
  first : ∀ id e, first? id hs = some e → e = .active ∨ e = .failed
  known : ∀ id track seek, .start id track seek ∈ k.sent → id ≤ k.session ∧ track < k.playlist.size
  before : ∀ id track seek, .start id track seek ∈ k.sent → id ≠ k.session → first? id hs ≠ none
  awaits : ∀ track seek, .start k.session track seek ∈ k.sent → first? k.session hs = none →
    Awaits k.state
  held : k.state ≠ .stopped → ∀ track seek, .start k.session track seek ∈ k.sent →
    k.held = some track

namespace Courses

theorem hear (h : Courses hs k) (hn : n.session ≤ k.session)
    (hstory : first? n.session hs = none → n.event = .active ∨ n.event = .failed) :
    Courses (hs ++ [n]) k := by
  refine ⟨fun id hid => ?_, fun id e he => ?_, h.known, fun id track seek hm hne => ?_,
    fun track seek hm hnone => ?_, h.held⟩
  · have hother : n.session ≠ id := by omega
    rw [eventsOf_append, h.fresh id hid, eventsOf_other hother, List.append_nil]
  · rw [first?_concat, Option.or_eq_some_iff] at he
    rcases he with he | ⟨hnone, he⟩
    · exact h.first id e he
    · split at he
      · next hid =>
        cases he
        exact hstory (hid ▸ hnone)
      · cases he
  · rw [first?_concat, ne_eq, Option.or_eq_none_iff]
    exact fun hnone => h.before id track seek hm hne hnone.1
  · rw [first?_concat, Option.or_eq_none_iff] at hnone
    exact h.awaits track seek hm hnone.1

/-- A new session, after the first report on the one before. -/
theorem begin (h : Courses hs k)
    (hdone : ∀ track seek, .start k.session track seek ∈ k.sent → first? k.session hs ≠ none)
    {p : Playlist} {t : Nat} (ht : p.current? = some t) (hsize : p.size = k.playlist.size) :
    Courses hs (k.begin p t) := by
  have hlt : t < p.size := by
    unfold Playlist.current? at ht
    split at ht
    · cases ht
      assumption
    · cases ht
  have new : ∀ {id track seek}, .start id track seek ∈ (k.begin p t).sent →
      .start id track seek ∈ k.sent ∧ id ≤ k.session ∨ id = k.session + 1 ∧ track = t := by
    intro id track seek hm
    rcases List.mem_append.1 hm with hm | hm
    · exact .inl ⟨hm, (h.known _ _ _ hm).1⟩
    · cases List.mem_singleton.1 hm
      exact .inr ⟨rfl, rfl⟩
  refine ⟨fun id hid => h.fresh id (Nat.lt_of_succ_lt hid), h.first, fun id track seek hm => ?_,
    fun id track seek hm hne => ?_, fun _ _ _ _ => .inl rfl, fun _ track seek hm => ?_⟩
  · rcases new hm with ⟨hm, -⟩ | ⟨rfl, rfl⟩
    · obtain ⟨hid, htrack⟩ := h.known _ _ _ hm
      exact ⟨Nat.le_succ_of_le hid, hsize ▸ htrack⟩
    · exact ⟨Nat.le_refl _, hlt⟩
  · rcases new hm with ⟨hm, -⟩ | ⟨rfl, rfl⟩
    · by_cases hid : id = k.session
      · subst hid
        exact hdone track seek hm
      · exact h.before id track seek hm hid
    · exact absurd rfl hne
  · rcases new hm with ⟨-, hle⟩ | ⟨-, rfl⟩
    · exact absurd hle (Nat.not_succ_le_self _)
    · rfl

theorem stay (h : Courses hs k) (ha : k.Acts k') (hsame : k'.session = k.session)
    (hsize : k'.playlist.size = k.playlist.size)
    (hawaits : first? k.session hs = none → Awaits k.state → Awaits k'.state) :
    Courses hs k' := by
  obtain ⟨news, hk⟩ := ha.sends
  have old : ∀ {id track seek}, .start id track seek ∈ k'.sent → id ≤ k'.session →
      .start id track seek ∈ k.sent := by
    intro id track seek hm hle
    exact (hk.start_mem hm).resolve_right (by omega)
  have known : ∀ {id track seek}, .start id track seek ∈ k'.sent → id ≤ k'.session := by
    intro id track seek hm
    rcases hk.start_mem hm with hm | ⟨-, hle⟩
    · exact hsame ▸ (h.known _ _ _ hm).1
    · exact hle
  refine ⟨fun id hid => h.fresh id (hsame ▸ hid), h.first, fun id track seek hm => ?_,
    fun id track seek hm hne => ?_, fun track seek hm hnone => ?_, fun hst track seek hm => ?_⟩
  · exact ⟨known hm, hsize ▸ (h.known _ _ _ (old hm (known hm))).2⟩
  · exact h.before id track seek (old hm (known hm)) (hsame ▸ hne)
  · have hm' := old hm (known hm)
    rw [hsame] at hm' hnone
    exact hawaits hnone (h.awaits track seek hm' hnone)
  · rcases ha.holds hst with ⟨p, t, rfl⟩ | ⟨hst', hheld, -⟩
    · exact absurd hsame (Nat.succ_ne_self _)
    · have hm' := old hm (known hm)
      rw [hsame] at hm'
      rw [hheld]
      exact h.held hst' track seek hm'

theorem command (h : Courses hs k) {cmd : Command} (hk : k.Ordered cmd k') : Courses hs k' := by
  obtain ⟨news, hsends⟩ := hk.sends
  rcases hk.begins with ⟨hsame, hawaits⟩ | ⟨hno, p, t, rfl, ht⟩
  · exact h.stay (.ordered hk) hsame hsends.size fun _ => hawaits
  · exact h.begin (fun track seek hm hnone => hno (h.awaits track seek hm hnone)) ht hsends.size

theorem notice (h : Courses hs k) (hn : n.session = k.session)
    (hstory : first? n.session hs = none → n.event = .active ∨ n.event = .failed)
    (hk : k.Heard n.event k') : Courses (hs ++ [n]) k' := by
  have hheard := h.hear (Nat.le_of_eq hn) hstory
  have hdone : first? k.session (hs ++ [n]) ≠ none := by
    rw [first?_concat, if_pos hn, ne_eq, Option.or_eq_none_iff]
    exact fun hnone => absurd hnone.2 nofun
  obtain ⟨news, hsends⟩ := hk.sends
  rcases hk.begins with hsame | ⟨p, t, rfl, ht⟩
  · exact hheard.stay (.heard hk) hsame hsends.size fun hnone => absurd hnone hdone
  · exact hheard.begin (fun _ _ _ => hdone) ht hsends.size

end Courses

/-! ### What is told of it -/

/-- What the first subscriber has been told, and which tracks are marked, after these notices. -/
structure Fated (playlist : Playlist) (hs : List Notice) (ts : List (Nat × Fate)) (c : Control) :
    Prop where
  attended : c.inboxes ≠ []
  titles : c.playlist.titles = playlist.titles
  keys : c.playlist.keys = playlist.keys
  fates : c.fates = ts.map (·.2)
  labelled : ∀ t ∈ ts, 0 < t.1 ∧ t.1 ≤ c.session
  announced : c.announced = true ↔ .active ∈ eventsOf c.session hs
  told : ∀ id track seek t, .start id track seek ∈ c.sent → playlist.track? track = some t →
    fatesOf id ts = ((first? id hs).bind (·.fate? t.title)).toList
  playable : ∀ i, c.playlist.isPlayable i ↔ playlist.isPlayable i ∧ ∀ id track seek,
    .start id track seek ∈ c.sent → playlist.isSame track i → first? id hs ≠ some .failed

theorem isPlayable_congr {p p' : Playlist} (h : p'.tracks = p.tracks) (i : Nat) :
    p'.isPlayable i = p.isPlayable i := by
  rw [Playlist.isPlayable, Playlist.isPlayable, Playlist.track?, Playlist.track?, h]

theorem isPlayable_elim_mark (p : Playlist) (marked : Option Nat) (i : Nat) :
    (marked.elim p p.mark).isPlayable i ↔
      p.isPlayable i ∧ ∀ j, marked = some j → p.isSame j i = false := by
  cases marked with
  | none => simp
  | some j => simpa using p.isPlayable_mark j i

theorem keys_elim_mark (p : Playlist) (marked : Option Nat) :
    (marked.elim p p.mark).keys = p.keys := by
  cases marked with
  | none => rfl
  | some j => exact p.keys_mark j

/-- Titles do not change. -/
theorem title_of_titles (h : c.playlist.titles = playlist.titles) {track : Nat} {t : Track}
    (ht : playlist.track? track = some t) : c.title track = t.title := by
  have htitle := congrArg (·[track]?) h
  simp only [Playlist.titles, List.getElem?_map] at htitle
  rw [Playlist.track?] at ht
  rw [Control.title, Playlist.track?, htitle, ht]
  rfl

namespace Fated

/-- Nothing is told, and what has been sent is new. -/
theorem untold (h : Fated playlist hs ts c) (hc : Courses hs c.sketch) (hu : c.Untold c')
    (ha : c.sketch.Acts c'.sketch) : Fated playlist hs ts c' := by
  obtain ⟨news, hsends⟩ := ha.sends
  have hlater : c.session ≤ c'.session := hsends.later
  refine ⟨hu.attended h.attended, hsends.titles.trans h.titles,
    (Playlist.keys_congr hu.tracks).trans h.keys, hu.fates.trans h.fates,
    fun t ht => ⟨(h.labelled t ht).1, Nat.le_trans (h.labelled t ht).2 hlater⟩, ?_,
    fun id track seek t hm ht => ?_, fun i => ?_⟩
  · rw [hu.announced]
    split
    · next hs => rw [hs, h.announced]
    · next hs => simp [hc.fresh c'.session (show c.session < c'.session by omega)]
  · rcases hsends.start_mem hm with hm | ⟨hlt, -⟩
    · exact h.told id track seek t hm ht
    · rw [first?_eq_none.2 (hc.fresh id hlt)]
      exact fatesOf_eq_nil fun t ht => Nat.ne_of_lt (Nat.lt_of_le_of_lt (h.labelled t ht).2 hlt)
  · rw [isPlayable_congr hu.tracks, h.playable]
    refine and_congr_right fun _ =>
      ⟨fun hall id track seek hm hsame => ?_, fun hall id track seek hm => ?_⟩
    · rcases hsends.start_mem hm with hm | ⟨hlt, -⟩
      · exact hall id track seek hm hsame
      · simp [first?_eq_none.2 (hc.fresh id hlt)]
    · exact hall id track seek (hsends.mem_sent hm)

/-- A later notice of a session whose first one has been taken tells nothing. -/
theorem other (h : Fated playlist hs ts c) (hc : Courses hs c.sketch)
    (hn : n.session ≠ c.session) : Fated playlist (hs ++ [n]) ts c := by
  have hfirst : ∀ id track seek, .start id track seek ∈ c.sent →
      first? id (hs ++ [n]) = first? id hs := by
    intro id track seek hm
    rw [first?_concat]
    split
    · next hid =>
      obtain ⟨e, he⟩ := Option.ne_none_iff_exists'.1
        (hc.before id track seek hm fun hs => hn (hid.trans hs))
      rw [he, Option.some_or]
    · exact Option.or_none
  refine ⟨h.attended, h.titles, h.keys, h.fates, h.labelled, ?_, fun id track seek t hm ht => ?_,
    fun i => ?_⟩
  · rw [eventsOf_append, eventsOf_other hn, List.append_nil]
    exact h.announced
  · rw [hfirst id track seek hm]
    exact h.told id track seek t hm ht
  · rw [h.playable]
    refine and_congr_right fun _ =>
      forall_congr' fun id => forall_congr' fun track => forall_congr' fun seek => ?_
    exact forall_congr' fun hm => by rw [hfirst id track seek hm]

/-- The first notice of the running session tells its fate, and a failure marks its track. -/
theorem tells_first (h : Fated playlist hs ts c) (hc : Courses hs c.sketch)
    (hnone : first? c.session hs = none) (he : e = .active ∨ e = .failed) {track : Nat}
    {seek : Option Span} (hm : .start c.session track seek ∈ c.sent) {t : Track}
    (ht : playlist.track? track = some t) :
    c.tells e = e.fate? t.title ∧ c.marks e = if e = .failed then some track else none := by
  have hw : Awaits c.state := hc.awaits track seek hm hnone
  have hheld : c.held = some track := by
    refine hc.held (fun hs => ?_) track seek hm
    have hs : c.state = .stopped := hs
    simp [Awaits, hs, State.isFading] at hw
  have hann : c.announced = false := by
    rw [Bool.eq_false_iff, ne_eq, h.announced, first?_eq_none.1 hnone]
    exact List.not_mem_nil
  have htitle := title_of_titles h.titles ht
  rcases he with rfl | rfl
  · simp [Control.tells, Control.marks, hann, hheld, htitle, DeviceEvent.fate?]
  · simp [Control.tells, Control.marks, hw, hheld, htitle, DeviceEvent.fate?]

/-- A later one tells and marks nothing. -/
theorem tells_later (h : Fated playlist hs ts c)
    (hlater : e ≠ .failed ∧ (e = .active → .active ∈ eventsOf c.session hs)) :
    c.tells e = none ∧ c.marks e = none := by
  cases e with
  | active => exact ⟨if_pos (h.announced.2 (hlater.2 rfl)), rfl⟩
  | failed => exact absurd rfl hlater.1
  | suspended | idle => exact ⟨rfl, rfl⟩

/-- What a notice of the running session tells and marks depends on whether it is the first. -/
theorem tells_eq (h : Fated playlist hs ts c) (hc : Courses hs c.sketch)
    (hstory : Story (eventsOf c.session hs ++ [e])) {track : Nat} {seek : Option Span}
    (hm : .start c.session track seek ∈ c.sent) : ∃ t, playlist.track? track = some t ∧
      c.tells e = (if first? c.session hs = none then e.fate? t.title else none) ∧
      c.marks e = if first? c.session hs = none ∧ e = .failed then some track else none := by
  have hsize : c.playlist.size = playlist.size := Playlist.size_of_titles h.titles
  have hlt : track < playlist.size := hsize ▸ (hc.known _ _ _ hm).2
  refine ⟨playlist.tracks[track], List.getElem?_eq_getElem hlt, ?_⟩
  by_cases hnone : first? c.session hs = none
  · have he : e = .active ∨ e = .failed := by
      rw [first?_eq_none.1 hnone] at hstory
      exact hstory.first
    simpa [hnone] using h.tells_first hc hnone he hm (List.getElem?_eq_getElem hlt)
  · have hlater := hstory.later fun hnil => hnone (first?_eq_none.2 hnil)
    simpa [hnone] using h.tells_later hlater

theorem notice (h : Fated playlist hs ts c) (hc : Courses hs c.sketch)
    (hn : n.session = c.session) (hpos : 0 < c.session)
    (hstory : Story (eventsOf c.session hs ++ [n.event]))
    (hstart : ∃ track seek, .start c.session track seek ∈ c.sent) (ht : c.Tells n.event c')
    (ha : c.sketch.Acts c'.sketch) : Fated playlist (hs ++ [n])
      (ts ++ (c.tells n.event).toList.map fun fate => (c.session, fate)) c' := by
  obtain ⟨news, hsends⟩ := ha.sends
  have hlater : c.session ≤ c'.session := hsends.later
  have hfirst : ∀ id, first? id (hs ++ [n]) =
      (first? id hs).or (if c.session = id then some n.event else none) := by
    intro id
    rw [first?_concat, hn]
  have hfresh : ∀ id, c.session < id → first? id (hs ++ [n]) = none := by
    intro id hlt
    rw [hfirst, first?_eq_none.2 (hc.fresh id hlt), if_neg (Nat.ne_of_lt hlt), Option.or_none]
  have hkeys : c'.playlist.keys = c.playlist.keys :=
    (Playlist.keys_congr ht.tracks).trans (keys_elim_mark c.playlist _)
  refine ⟨ht.attended, hsends.titles.trans h.titles, hkeys.trans h.keys, ?_, fun t hmem => ?_, ?_,
    fun id track seek t hm htrack => ?_, fun i => ?_⟩
  · rw [ht.fates, h.fates, List.map_append, List.map_map]
    simp [Function.comp_def]
  · rcases List.mem_append.1 hmem with hmem | hmem
    · exact ⟨(h.labelled t hmem).1, Nat.le_trans (h.labelled t hmem).2 hlater⟩
    · obtain ⟨_, -, rfl⟩ := List.mem_map.1 hmem
      exact ⟨hpos, hlater⟩
  · rw [ht.announced]
    split
    · next hs =>
      have hself : eventsOf c.session [n] = [n.event] := hn ▸ eventsOf_self n.session n.event
      rw [hs, eventsOf_append, hself, List.mem_append, List.mem_singleton, Bool.or_eq_true,
        h.announced, decide_eq_true_eq, eq_comm (a := n.event)]
    · next hs =>
      have hlt : c.session < c'.session := by omega
      rw [first?_eq_none.1 (hfresh _ hlt)]
      exact ⟨nofun, nofun⟩
  · rw [fatesOf_append, fatesOf_labelled]
    rcases hsends.start_mem hm with hm | ⟨hlt, -⟩
    · rw [h.told id track seek t hm htrack, hfirst]
      by_cases hid : c.session = id
      · subst hid
        obtain ⟨t', ht', htells, -⟩ := h.tells_eq hc hstory hm
        cases htrack.symm.trans ht'
        rw [if_pos rfl, if_pos rfl, htells]
        cases first? c.session hs <;> simp
      · rw [if_neg hid, if_neg hid, List.append_nil, Option.or_none]
    · have hne : c.session ≠ id := Nat.ne_of_lt hlt
      rw [hfresh id hlt, if_neg hne, List.append_nil]
      exact fatesOf_eq_nil fun t ht => Nat.ne_of_lt (Nat.lt_of_le_of_lt (h.labelled t ht).2 hlt)
  · rw [isPlayable_congr ht.tracks, isPlayable_elim_mark, h.playable, and_assoc]
    simp only [Playlist.isSame_congr h.keys]
    refine and_congr_right fun _ =>
      ⟨fun ⟨hall, hmark⟩ id track seek hm hsame => ?_, fun hall => ⟨?_, ?_⟩⟩
    · rcases hsends.start_mem hm with hm | ⟨hlt, -⟩
      · have hold := hall id track seek hm hsame
        by_cases hid : c.session = id
        · subst hid
          obtain ⟨-, -, -, hmarks⟩ := h.tells_eq hc hstory hm
          rw [hfirst, if_pos rfl]
          cases hnone : first? c.session hs with
          | none => simpa [hmarks, hnone, hsame] using hmark track
          | some e => simpa [hnone] using hold
        · rwa [hfirst, if_neg hid, Option.or_none]
      · simp [hfresh id hlt]
    · intro id track seek hm hsame hfailed
      refine hall id track seek (hsends.mem_sent hm) hsame ?_
      rw [hfirst, hfailed, Option.some_or]
    · obtain ⟨track, seek, hm⟩ := hstart
      obtain ⟨-, -, -, hmarks⟩ := h.tells_eq hc hstory hm
      rw [hmarks]
      split
      · next hfailed =>
        rintro j ⟨⟩
        rw [← Bool.not_eq_true]
        intro hsame
        refine hall c.session track seek (hsends.mem_sent hm) hsame ?_
        rw [hfirst, hfailed.1, if_pos rfl, hfailed.2, Option.none_or]
      · nofun

end Fated

/-! ### Runs with a subscriber -/

/-- Sessions that run are numbered from one. -/
theorem Reachable.session_pos (h : Reachable w fades playlist d) {z : Session}
    (hz : d.output.session = some z) : 0 < z.id := by
  have hkeeps := h.keeps (P := fun k f => Mail k f ∧ ∀ z, f.session = some z → 0 < z.id)
    ⟨(sound_initial fades playlist).mail, nofun⟩ fun {m k f k' f'} ⟨hmail, hpos⟩ hm => by
      refine ⟨hmail.shift hm, fun z' hz' => ?_⟩
      cases (hm.post hmail.taken).1 with
      | sent _ _ _ hf hn _ =>
        obtain ⟨z, hz, hid⟩ := hf.session_of_other (Cause.number?_eq_none hn) hz'
        exact hid ▸ hpos z hz
      | @taken r _ _ _ hp hf =>
        cases hnum : r.number? with
        | none =>
          obtain ⟨z, hz, hid⟩ := hf.session_of_other hnum hz'
          exact hid ▸ hpos z hz
        | some id =>
          obtain ⟨z, hz, hid⟩ := hf.session_of_start hnum
          cases hz.symm.trans hz'
          obtain ⟨n, -, hrange, -⟩ := hmail.numbered
          have hmem : z'.id ∈ numbers (pending k f) := by
            rw [hp, numbers_cons_of_some hnum, hid]
            exact List.mem_cons_self ..
          rw [hrange, List.mem_range'_1] at hmem
          omega
  exact hkeeps.2 z hz

theorem Reachable.start_of_session (h : Reachable w fades playlist d) (hpos : 0 < id)
    (hle : id ≤ d.control.session) : ∃ track seek, .start id track seek ∈ d.control.sent := by
  have hmem : id ∈ numbers d.control.sent := by
    rw [h.numbered, List.mem_range'_1]
    omega
  obtain ⟨r, hr, hid⟩ := List.mem_filterMap.1 hmem
  cases r with
  | start id' track seek =>
    cases hid
    exact ⟨track, seek, hr⟩
  | _ => cases hid

theorem reachable_of_attended {moves : List Move}
    (h : (attended fades playlist).run w moves = some d) : Reachable w fades playlist d :=
  ⟨.give .subscribe :: .takeCommand :: moves, h⟩

/-- In a step that leaves the control side open, a notice comes up, stays or is taken. -/
theorem notice_step (hm : d.step w m = some d') (ho : d'.control.closed = false) :
    d.control.closed = false ∧
      d.notice?.toList ++ (d.output.phase.news d'.output.phase).toList =
        (d.heard? m).toList ++ d'.notice?.toList := by
  have hopen : d.control.closed = false := by
    cases stepped_of_step hm with
    | takeCommand _ hopen | takeNotice _ hopen => exact hopen
    | _ => exact ho
  refine ⟨hopen, ?_⟩
  cases hn : d.notice? with
  | none =>
    have hheard : d.heard? m = none := by
      cases m with
      | takeNotice => exact hn
      | _ => rfl
    have hphase : d.output.phase.notice? = none := hn
    have hnews : d.output.phase.news d'.output.phase = d'.notice? := by
      rw [Phase.news, hphase]
      split
      · next hn' => exact hn'.symm
      · rfl
    rw [hheard, hnews]
  | some n =>
    have hp := notice?_eq_some.1 hn
    have hlasts : d'.output.phase = .reporting n ∧ m ≠ .takeNotice ∧ m ≠ .giveUp ∨
        d'.output.phase = .ready ∧ (m = .takeNotice ∨ m = .giveUp) := (step_shift hm).reporting hp
    rcases hlasts with ⟨hp', hne, -⟩ | ⟨hp', rfl | rfl⟩
    · have hheard : d.heard? m = none := by
        cases m with
        | takeNotice => exact absurd rfl hne
        | _ => rfl
      rw [hheard, notice?_eq_some.2 hp', news_of_same (hp'.trans hp.symm)]
      rfl
    · have hnone : d'.output.phase.notice? = none := congrArg Phase.notice? hp'
      rw [notice?_of_ready hp', news_of_none hnone, show d.heard? .takeNotice = some n from hn]
    · cases stepped_of_step hm with
      | giveUp _ hc => exact absurd (hopen.symm.trans hc) Bool.false_ne_true

/-- As long as the control side has not ended, all notices are taken but the one being reported. -/
theorem notices_eq_heard {moves : List Move} (h₀ : d₀.output.phase = .ready)
    (h : d₀.run w moves = some d) (ho : d.control.closed = false) :
    notices w d₀ moves = heard w d₀ moves ++ d.notice?.toList := by
  refine run_induction (P := fun moves d => d.control.closed = false →
    notices w d₀ moves = heard w d₀ moves ++ d.notice?.toList) ?_ ?_ h ho
  · intro _
    rw [notice?_of_ready h₀]
    rfl
  · intro before m d d' hrun hm ih ho'
    obtain ⟨ho, hnotice⟩ := notice_step hm ho'
    rw [notices_eq_yields, yields_concat _ hrun hm, ← notices_eq_yields, ih ho, heard,
      yields_concat _ hrun hm, List.append_assoc, List.append_assoc, hnotice]

/-- What holds of a notice that is taken: its session runs, and with it the session's story goes
on. -/
theorem taken_notice {moves : List Move} (h : (attended fades playlist).run w moves = some d)
    (ho : d.control.closed = false) (hn : d.notice? = some n) :
    0 < n.session ∧ n.session ≤ d.control.session ∧
      Story (eventsOf n.session (heard w (attended fades playlist) moves) ++ [n.event]) := by
  have hreach := reachable_of_attended h
  have hreported : Reported (heard w (attended fades playlist) moves ++ [n]) d.control.sketch
      d.output.sketch := by
    have htaken := notices_eq_heard rfl h ho
    rw [hn, Option.toList_some] at htaken
    rw [← htaken]
    have hrun : (initial fades playlist).run w (.give .subscribe :: .takeCommand :: moves) =
        some d := h
    exact reported_of_run hrun
  obtain ⟨z, hz, hid, -⟩ := hreach.sound.orderly.busy.reporting n (notice?_eq_some.1 hn)
  refine ⟨hid ▸ hreach.session_pos hz, (hreported.past n (by simp)).known, ?_⟩
  have hstory := hreported.told.story n.session
  rwa [eventsOf_append, eventsOf_self n.session n.event] at hstory

theorem fated_attended (fades : Fades) (playlist : Playlist) :
    Courses [] (attended fades playlist).control.sketch ∧
      Fated playlist [] [] (attended fades playlist).control := by
  refine ⟨⟨fun _ _ => rfl, nofun, nofun, nofun, nofun, fun _ => nofun⟩, ?_⟩
  refine ⟨List.cons_ne_nil _ _, rfl, rfl, rfl, nofun, ⟨nofun, nofun⟩, nofun, fun i => ?_⟩
  exact ⟨fun hi => ⟨hi, nofun⟩, And.left⟩

/-- What the first subscriber has been told after a run. -/
theorem fated_of_run {moves : List Move} (h : (attended fades playlist).run w moves = some d) :
    Courses (heard w (attended fades playlist) moves) d.control.sketch ∧
      Fated playlist (heard w (attended fades playlist) moves)
        (told w (attended fades playlist) moves) d.control := by
  refine run_induction (P := fun moves d =>
    Courses (heard w (attended fades playlist) moves) d.control.sketch ∧
      Fated playlist (heard w (attended fades playlist) moves)
        (told w (attended fades playlist) moves) d.control) ?_ ?_ h
  · exact fated_attended fades playlist
  · rintro before m d d' hrun hm ⟨hC, hF⟩
    rw [heard, told, yields_concat _ hrun hm, yields_concat _ hrun hm]
    cases stepped_of_step hm with
    | @takeCommand cmd commands =>
      have hk := Control.onCommand_ordered (c := d.control) (d.output.played w) cmd
      rw [tellings]
      simp only [heard?, Option.toList_none, List.flatMap_nil, List.append_nil]
      exact ⟨hC.command hk, hF.untold hC (Control.onCommand_untold cmd) (.ordered hk)⟩
    | @takeNotice n hp ho =>
      have hn : d.heard? .takeNotice = some n := notice?_eq_some.2 hp
      obtain ⟨hpos, hle, hstory⟩ := taken_notice hrun ho hn
      have hfirst := fun hnone => Story.first (first?_eq_none.1 hnone ▸ hstory)
      rw [tellings, hn, Option.toList_some, List.flatMap_singleton]
      dsimp only
      by_cases hs : n.session = d.control.session
      · have hk := (Control.onNotice_heard (c := d.control) (d.output.played w) n).1 hs
        have ht : d.control.Tells n.event (d.control.onNotice (d.output.played w) n) :=
          Control.onNotice_tells hF.attended hs
        have hstart := (reachable_of_attended hrun).start_of_session (hs ▸ hpos) (Nat.le_refl _)
        have hfated := hF.notice hC hs (hs ▸ hpos) (hs ▸ hstory) hstart ht (.heard hk)
        rw [ht.fates, List.drop_left, hs]
        exact ⟨hC.notice hs hfirst hk, hfated⟩
      · rw [Control.onNotice, if_neg hs, List.drop_length, List.map_nil, List.append_nil]
        exact ⟨hC.hear hle hfirst, hF.other hC hs⟩
    | _ =>
      rw [tellings]
      simp only [heard?, Option.toList_none, List.flatMap_nil, List.append_nil]
      exact ⟨hC, hF⟩

/-- Of every start a subscriber is told once. What it is told of tracks comes from the notices that
are taken, at most one thing from those of a session. The first of them finds the session running and
the current one, and says whether its stream has been opened; if so the subscriber is told that the
track of the start has started, and if not that it cannot be played. The tracks whose start has
failed are marked wherever they stand in the list, and no others. -/
theorem every_start_is_told_once {moves : List Move}
    (h : (attended fades playlist).run w moves = some d) :
    let hs := heard w (attended fades playlist) moves
    let ts := told w (attended fades playlist) moves
    d.control.fates = ts.map (·.2) ∧ (∀ id, (fatesOf id ts).length ≤ 1) ∧
      (∀ id track seek, .start id track seek ∈ d.control.sent → ∃ t,
        playlist.track? track = some t ∧
          fatesOf id ts = ((first? id hs).bind (·.fate? t.title)).toList) ∧
      (∀ id e, first? id hs = some e → e = .active ∨ e = .failed) ∧
      (∀ n, d.control.closed = false → d.notice? = some n → first? n.session hs = none →
        n.session = d.control.session ∧ ∃ z, d.output.session = some z ∧ z.id = n.session ∧
          (n.event = .active ∧ z.stream = some true ∨ n.event = .failed ∧ z.stream = none)) ∧
      ∀ i, d.control.playlist.isPlayable i ↔ playlist.isPlayable i ∧ ∀ id track seek,
        .start id track seek ∈ d.control.sent → playlist.isSame track i →
          first? id hs ≠ some .failed := by
  intro hs ts
  obtain ⟨hC, hF⟩ := fated_of_run h
  have hreach := reachable_of_attended h
  have hsize : d.control.playlist.size = playlist.size := Playlist.size_of_titles hF.titles
  have hstart : ∀ id track seek, .start id track seek ∈ d.control.sent → ∃ t,
      playlist.track? track = some t ∧
        fatesOf id ts = ((first? id hs).bind (·.fate? t.title)).toList := by
    intro id track seek hm
    have hlt : track < playlist.size := hsize ▸ (hC.known id track seek hm).2
    have ht : playlist.track? track = some playlist.tracks[track] := List.getElem?_eq_getElem hlt
    exact ⟨_, ht, hF.told id track seek _ hm ht⟩
  refine ⟨hF.fates, fun id => ?_, hstart, hC.first, fun n ho hn hnone => ?_, hF.playable⟩
  · by_cases hid : 0 < id ∧ id ≤ d.control.session
    · obtain ⟨track, seek, hm⟩ := hreach.start_of_session hid.1 hid.2
      obtain ⟨t, -, hfates⟩ := hstart id track seek hm
      rw [hfates]
      exact Option.length_toList_le
    · have hnil : fatesOf id ts = [] := fatesOf_eq_nil fun t ht hlabel => by
        have hlabelled := hF.labelled t ht
        rw [hlabel] at hlabelled
        exact hid hlabelled
      rw [hnil]
      exact Nat.zero_le 1
  · obtain ⟨hpos, hle, hstory⟩ := taken_notice h ho hn
    obtain ⟨z, hz, hid, hfits⟩ := hreach.sound.orderly.busy.reporting n (notice?_eq_some.1 hn)
    refine ⟨?_, z, hz, hid, ?_⟩
    · obtain ⟨track, seek, hm⟩ := hreach.start_of_session hpos hle
      exact Decidable.byContradiction fun hne => hC.before n.session track seek hm hne hnone
    · rw [first?_eq_none.1 hnone] at hstory
      rcases hstory.first with he | he <;> rw [he] at hfits ⊢
      · exact .inl ⟨rfl, hfits⟩
      · exact .inr ⟨rfl, hfits⟩

/-- A start that is stopped while it is on its way, and then fails. -/
def failingWhileStopped : List Move :=
  [.give .play, .takeCommand, .takeRequest, .give .stop, .takeCommand,
    .produce 0 (.write #[1, 2, 3, 4]), .proceed, .takeNotice]

theorem failure_is_told_while_stopping : ∃ d,
    (attended {} pair).run .shut failingWhileStopped = some d ∧
      fatesOf 1 (told .shut (attended {} pair) failingWhileStopped) = [.unplayable "a"] ∧
      d.control.state = .fadingToStop ∧ d.control.playlist.isPlayable 0 = false ∧
      d.control.playlist.isPlayable 1 = true := by
  obtain ⟨d, hrun, hsent, hfirst, hst⟩ : ∃ d,
      (attended {} pair).run .shut failingWhileStopped = some d ∧
        d.control.sent = [.start 1 0 none, .fadeOut 1 (.ofMillis 500)] ∧
        first? 1 (heard .shut (attended {} pair) failingWhileStopped) = some .failed ∧
        d.control.state = .fadingToStop := ⟨_, rfl, rfl, rfl, rfl⟩
  obtain ⟨-, -, hstart, -, -, hplayable⟩ := every_start_is_told_once hrun
  simp only [hsent] at hstart hplayable
  obtain ⟨t, ht, hfates⟩ := hstart 1 0 none (List.mem_cons_self ..)
  cases ht
  rw [hfirst] at hfates
  refine ⟨d, hrun, ?_, hst, ?_, (hplayable 1).2 ⟨by decide, fun id track seek hm hsame => ?_⟩⟩
  · exact hfates.trans (by decide +kernel)
  · refine Bool.eq_false_iff.2 fun hplays => ?_
    exact ((hplayable 0).1 hplays).2 1 0 none (List.mem_cons_self ..) (by decide) hfirst
  · simp only [List.mem_cons, Request.start.injEq, reduceCtorEq, List.not_mem_nil, or_false] at hm
    obtain ⟨-, rfl, -⟩ := hm
    exact absurd hsame (by decide)

/-- A track that stands in the list twice is marked in both places. -/
example :
    let track : Track := { Track.ofPath "a.wav" with key := some 0 }
    ((attended {} { tracks := [track, track] }).run .shut failingWhileStopped).map (fun d =>
      (d.control.playlist.isPlayable 0, d.control.playlist.isPlayable 1)) =
        some (false, false) := by rfl

end Deck

end Jukebox
