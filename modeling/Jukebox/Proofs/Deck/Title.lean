import Jukebox.Proofs.Deck.Mail

/-!
What is always true of the labels on the sleeves. A sleeve bears the title its track has in the
playlist, whose titles never change; and as long as the player has not stopped, the sleeves of the
session the control side means, and the start of it that may be on its way, are of the held track.
-/

namespace Jukebox.Deck

open Output.Sketch (Turn)

namespace Control.Sketch

variable {k k' : Sketch}

/-- A player that has not stopped has begun a session or has the one from before. -/
theorem Ordered.holds {c : Command} (h : k.Ordered c k') (hs : k'.state ≠ .stopped) :
    (∃ p t, k' = k.begin p t) ∨
      k.state ≠ .stopped ∧ k'.held = k.held ∧ k'.session = k.session := by
  cases h with
  | begin => exact .inl ⟨_, _, rfl⟩
  | fade hr => exact .inr ⟨fun he => by simp [he, Transport.State.isRunning] at hr, rfl, rfl⟩
  | turn hr => exact .inr ⟨fun he => by simp [he, Transport.State.isFading] at hr, rfl, rfl⟩
  | cut hc =>
    refine .inr ⟨fun he => ?_, rfl, rfl⟩
    rcases hc with ⟨hf, -⟩ | ⟨hp, -⟩
    · simp [he, Transport.State.isFading] at hf
    · simp [he] at hp
  | _ => exact .inr ⟨hs, rfl, rfl⟩

theorem Heard.holds {e : DeviceEvent} (h : k.Heard e k') (hs : k'.state ≠ .stopped) :
    (∃ p t, k' = k.begin p t) ∨
      k.state ≠ .stopped ∧ k'.held = k.held ∧ k'.session = k.session := by
  have awake : k.state.isRunning ∨ k.state = .paused → k.state ≠ .stopped := by
    rintro hr he
    simp [he, Transport.State.isRunning] at hr
  cases h with
  | next => exact .inl ⟨_, _, rfl⟩
  | arrive => exact .inl ⟨_, _, rfl⟩
  | skip => exact .inl ⟨_, _, rfl⟩
  | finish => exact absurd rfl hs
  | giveUp => exact absurd rfl hs
  | play hr => exact .inr ⟨awake hr, rfl, rfl⟩
  | pause hr => exact .inr ⟨awake hr, rfl, rfl⟩
  | mark => exact .inr ⟨hs, rfl, rfl⟩
  | ignored => exact .inr ⟨hs, rfl, rfl⟩

theorem Acts.holds (h : k.Acts k') (hs : k'.state ≠ .stopped) : (∃ p t, k' = k.begin p t) ∨
    k.state ≠ .stopped ∧ k'.held = k.held ∧ k'.session = k.session := by
  cases h with
  | nothing => exact .inr ⟨hs, rfl, rfl⟩
  | ordered h => exact h.holds hs
  | heard h => exact h.holds hs

end Control.Sketch

variable {w : World} {m : Move} {c : Cause} {k k' : Control.Sketch} {f f' : Output.Sketch}

/-- What is always true of the labels. -/
structure Labels (k : Control.Sketch) (f : Output.Sketch) : Prop where
  titled : ∀ s ∈ f.sleeves, k.playlist.titles[s.track]? = some s.title ∧ s.session ≤ k.session
  held : k.state ≠ .stopped → ∀ s ∈ f.sleeves, s.session = k.session → k.held = some s.track
  asked : k.state ≠ .stopped → ∀ track seek, .start k.session track seek ∈ pending k f →
    k.held = some track

/-- No start on its way is ahead of the control side. -/
theorem Mail.start_le (h : Mail k f) {id track : Nat} {seek : Option Span}
    (hm : .start id track seek ∈ pending k f) : id ≤ k.session := by
  obtain ⟨n, hn, hnum, -⟩ := h.numbered
  have : id ∈ numbers (pending k f) := List.mem_filterMap.2 ⟨_, hm, rfl⟩
  rw [hnum, List.mem_range'_1] at this
  omega

/-- A sleeve is made by a start, and after that at most a fade is put on it. -/
theorem Output.Sketch.Turn.sleeve (h : Turn w c f f') {s : Sleeve} (hs : s ∈ f'.sleeves) :
    (∃ s₀ ∈ f.sleeves, s.session = s₀.session ∧ s.track = s₀.track ∧ s.title = s₀.title) ∨
      ∃ (tracks : Playlist) (seek : Option Span), tracks.titles[s.track]? = some s.title ∧
        c = .request tracks (.start s.session s.track seek) := by
  cases h with
  | load ht =>
    rcases List.mem_append.1 hs with hs | hs
    · exact .inl ⟨s, hs, rfl, rfl, rfl⟩
    · rw [List.mem_singleton] at hs
      subst hs
      exact .inr ⟨_, _, by simpa [Playlist.titles, Playlist.track?] using ht, rfl⟩
  | fade =>
    obtain ⟨j, hj⟩ := List.mem_iff_getElem?.1 hs
    obtain ⟨s₀, hs₀, rfl⟩ := Option.map_eq_some_iff.1 ((List.getElem?_modify ..).symm.trans hj)
    refine .inl ⟨s₀, List.mem_of_getElem? hs₀, ?_⟩
    split <;> exact ⟨rfl, rfl, rfl⟩
  | _ => exact .inl ⟨s, hs, rfl, rfl, rfl⟩

/-- What the control side does keeps the labels right. -/
theorem Labels.send {news : List Request} (h : Labels k f) (hmail : Mail k f) (ha : k.Acts k')
    (hk : k.Sends k' news) (hp : pending k' f' = pending k f ++ news)
    (hs : ∀ s ∈ f'.sleeves, ∃ s₀ ∈ f.sleeves,
      s.session = s₀.session ∧ s.track = s₀.track ∧ s.title = s₀.title) : Labels k' f' := by
  refine ⟨fun s hm => ?_, fun hst s hm hid => ?_, fun hst track seek hm => ?_⟩
  · obtain ⟨s₀, hm₀, he, ht, hl⟩ := hs s hm
    rw [hk.titles, he, ht, hl]
    exact ⟨(h.titled s₀ hm₀).1, Nat.le_trans (h.titled s₀ hm₀).2 hk.later⟩
  · obtain ⟨s₀, hm₀, he, ht, -⟩ := hs s hm
    rcases ha.holds hst with ⟨p, t, rfl⟩ | ⟨hne, hheld, hsame⟩
    · have hle := (h.titled s₀ hm₀).2
      have hid : s.session = k.session + 1 := hid
      omega
    · rw [hheld, ht]
      exact h.held hne s₀ hm₀ (by rw [← he, hid, hsame])
  · rw [hp, List.mem_append] at hm
    rcases ha.holds hst with ⟨p, t, rfl⟩ | ⟨hne, hheld, hsame⟩
    · rcases hm with hm | hm
      · have : k.session + 1 ≤ k.session := hmail.start_le hm
        omega
      · rw [← List.append_cancel_left (show k.sent ++ _ = k.sent ++ news from hk.sent),
          List.mem_singleton] at hm
        cases hm
        rfl
    · rw [hsame] at hm
      rcases hm with hm | hm
      · rw [hheld]
        exact h.asked hne track seek hm
      · have hnum := hk.numbered
        have : k.session ∈ numbers news := List.mem_filterMap.2 ⟨_, hm, rfl⟩
        rw [hnum, List.mem_range'_1] at this
        omega

/-- A sleeve is made with the right labels. -/
theorem Labels.take {r : Request} (h : Labels k f) (hmail : Mail k f)
    (hp : pending k f = r :: pending k f')
    (hf : Turn w (.request k.playlist r) { f with taken := f.taken + 1 } f') : Labels k f' := by
  have old : ∀ s ∈ f'.sleeves, (∃ s₀ ∈ f.sleeves,
      s.session = s₀.session ∧ s.track = s₀.track ∧ s.title = s₀.title) ∨
      (∃ seek, .start s.session s.track seek ∈ pending k f) ∧
        k.playlist.titles[s.track]? = some s.title := by
    intro s hm
    rcases hf.sleeve hm with ho | ⟨tracks, seek, ht, hc⟩
    · exact .inl ho
    · cases hc
      exact .inr ⟨⟨seek, hp ▸ List.mem_cons_self ..⟩, ht⟩
  refine ⟨fun s hm => ?_, fun hst s hm hid => ?_, fun hst track seek hm => ?_⟩
  · rcases old s hm with ⟨s₀, hm₀, he, ht, hl⟩ | ⟨⟨seek, hstart⟩, ht⟩
    · rw [he, ht, hl]
      exact h.titled s₀ hm₀
    · exact ⟨ht, hmail.start_le hstart⟩
  · rcases old s hm with ⟨s₀, hm₀, he, ht, -⟩ | ⟨⟨seek, hstart⟩, -⟩
    · rw [ht]
      exact h.held hst s₀ hm₀ (he ▸ hid)
    · rw [hid] at hstart
      exact h.asked hst _ _ hstart
  · exact h.asked hst track seek (hp ▸ List.mem_cons_of_mem _ hm)

theorem Labels.shift (h : Labels k f) (hmail : Mail k f) (hm : Shift w m k f k' f') :
    Labels k' f' := by
  obtain ⟨hpost, -⟩ := hm.post hmail.taken
  cases hpost with
  | sent ha hk hp hf hn =>
    refine h.send hmail ha hk hp fun s hs => ?_
    rcases hf.sleeve hs with ho | ⟨_, _, -, rfl⟩
    · exact ho
    · cases hn
  | taken hk _ _ hp hf =>
    subst hk
    exact h.take hmail hp hf

end Jukebox.Deck
