import Jukebox.Proofs.Deck.Output

/-!
What the output side makes of the reels of its own accord. A reel stays in its place for good, and
only its chain changes: it is aborted, fades out, gets another tempo, or is sought in. A relation
between chains that admits all of these but the last holds between a reel before an operation of the
output side and the same reel after it, but for the seeks.
-/

namespace Jukebox.Deck

/-- A relation that admits what the output side does to chains of its own accord. -/
structure Admits (R : Chain → Chain → Prop) : Prop where
  refl : ∀ c, R c c
  trans : ∀ {a b c}, R a b → R b c → R a c
  abort : ∀ c : Chain, R c { c with buffer := c.buffer.abort }
  fadeOut : ∀ (c : Chain) (window : Span), R c (c.fadeOut window)
  setTempo : ∀ (c : Chain) (tempo : Float32), R c (c.setTempo tempo)

namespace Output

/-- Every reel is still there, and its chain is related to what it was. -/
def Alters (R : Chain → Chain → Prop) (o o' : Output) : Prop :=
  ∀ (i : Nat) (r : Reel), o.reels[i]? = some r →
    ∃ chain : Chain, o'.reels[i]? = some ({ r with chain } : Reel) ∧ R r.chain chain

variable {w : World} {o o' o'' : Output} {R : Chain → Chain → Prop}

theorem Alters.of_reels (hR : Admits R) (h : o'.reels = o.reels) : o.Alters R o' := by
  intro i r hr
  exact ⟨r.chain, by rw [h, hr], hR.refl _⟩

theorem Alters.trans (hR : Admits R) (h : o.Alters R o') (h' : o'.Alters R o'') :
    o.Alters R o'' := by
  intro i r hr
  obtain ⟨chain, hr', hrel⟩ := h i r hr
  obtain ⟨chain', hr'', hrel'⟩ := h' i _ hr'
  exact ⟨chain', hr'', hR.trans hrel hrel'⟩

theorem alters_onReel (hR : Admits R) {i : Nat} {g : Chain → Chain}
    (hg : ∀ r, o.reels[i]? = some r → R r.chain (g r.chain)) : o.Alters R (o.onReel i g) := by
  intro j r hr
  by_cases hij : i = j
  · subst hij
    exact ⟨g r.chain, by simp [onReel, hr], hg r hr⟩
  · exact ⟨r.chain, by simp [onReel, hij, hr], hR.refl _⟩

theorem alters_abort (hR : Admits R) (i : Nat) : o.Alters R (o.onBuffer i Buffer.abort) :=
  alters_onReel hR fun r _ => hR.abort r.chain

/-! ### Parts of operations -/

theorem reels_of_call {c : Call} {b : Bool} (h : o.call w c = (o', b)) : o'.reels = o.reels := by
  unfold call at h
  split at h <;> cases h <;> rfl

theorem reels_fire : o.fire.reels = o.reels := by
  unfold fire
  split <;> rfl

theorem alters_teardown (hR : Admits R) : o.Alters R o.teardown := by
  unfold teardown
  cases hs : o.session with
  | none => exact .of_reels hR rfl
  | some z =>
    dsimp only
    have hlog : o.Alters R (if z.stream.isSome then
        Output.log { o with session := none, nowPlaying := none, shownReel := none } .closed
      else { o with session := none, nowPlaying := none, shownReel := none }) := by
      split <;> exact .of_reels hR rfl
    cases z.reel with
    | none => exact hlog
    | some i => exact hlog.trans hR (alters_abort hR i)

theorem alters_startFailed (hR : Admits R) (z : Session) : o.Alters R (o.startFailed z) := by
  have hsession : o.Alters R { o with session := some { z with reel := none } } :=
    .of_reels hR rfl
  unfold startFailed
  cases z.reel with
  | none => exact hsession
  | some i => exact hsession.trans hR (alters_abort hR i)

/-! ### Steps -/

theorem alters_start (hR : Admits R) (id index : Nat) (track : Option Track)
    (seek : Option Span) : o.Alters R (o.start w id index track seek) := by
  have hclear : o.Alters R { o.teardown with counters := {}, session := some { id } } :=
    alters_teardown hR
  unfold start
  split
  · exact hclear.trans hR (alters_startFailed hR _)
  · refine hclear.trans hR fun i r hr => ⟨r.chain, ?_, hR.refl _⟩
    exact (List.getElem?_append_left (List.getElem?_eq_some_iff.1 hr).1).trans hr

theorem reels_suspend (id : Nat) : (o.suspend w id).reels = o.reels := by
  unfold suspend
  split
  · rfl
  · split <;>
    · next hc =>
      have hsame := reels_of_call hc
      exact hsame

theorem reels_resume (id : Nat) : (o.resume w id).reels = o.reels := by
  unfold resume
  split
  · rfl
  · split <;>
    · next hc =>
      have hsame := reels_of_call hc
      exact hsame

theorem reels_stop (id : Nat) : (o.stop w id).reels = o.reels := by
  unfold stop
  split
  · rfl
  · split
    · exact reels_fire
    · split <;>
      · next hc =>
        have hsame := reels_of_call hc
        exact reels_fire.trans hsame

theorem alters_fadeOut (hR : Admits R) (id : Nat) (window : Span) :
    o.Alters R (o.fadeOut id window) := by
  unfold fadeOut
  split
  · exact .of_reels hR rfl
  · split
    · exact alters_onReel hR fun r _ => hR.fadeOut r.chain window
    · exact .of_reels hR reels_fire

theorem alters_setTempo (hR : Admits R) (tempo : Float32) : o.Alters R (o.setTempo tempo) := by
  unfold setTempo
  dsimp only
  split
  · exact alters_onReel (o := { o with tempo }) hR fun r _ => hR.setTempo r.chain tempo
  · exact .of_reels hR rfl

/-- What a request does to the reels, if it does not seek. -/
theorem alters_handle (hR : Admits R) (tracks : Playlist) {r : Request}
    (hr : ∀ id position, r ≠ .seek id position) : o.Alters R (o.handle w tracks r) := by
  cases r with
  | start id track seek => exact alters_start hR id track _ seek
  | suspend id => exact .of_reels hR (reels_suspend id)
  | resume id => exact .of_reels hR (reels_resume id)
  | stop id => exact .of_reels hR (reels_stop id)
  | fadeOut id window => exact alters_fadeOut hR id window
  | seek id position => exact absurd rfl (hr id position)
  | tempo tempo => exact alters_setTempo hR tempo
  | shutdown => exact alters_teardown hR

theorem alters_openStream (hR : Admits R) (z : Session) (i : Nat) :
    o.Alters R (o.openStream w z i) := by
  unfold openStream
  split
  · exact alters_startFailed hR z
  · split
    · next hc =>
      exact (Alters.of_reels hR (reels_of_call hc)).trans hR (alters_startFailed hR z)
    · next hc =>
      split
      · next o₂ hc' =>
        have hlog : o.Alters R (o₂.log .closed) :=
          .of_reels hR ((reels_of_call hc').trans (reels_of_call hc))
        exact hlog.trans hR (alters_startFailed hR z)
      · next hc' =>
        have hplay := (reels_of_call hc').trans (reels_of_call hc)
        exact .of_reels hR hplay

/-- What the rest of a start does to the reels: with data on the reel that was waited for, it seeks
there if it is to. -/
theorem alters_proceed (hR : Admits R) (h : o.proceed w = some o') :
    (∃ i position, o.phase = .waiting i (some position) ∧
      (o.reels[i]?).bind (·.chain.buffer.wait?) = some true ∧
      (o.onReel i (·.seek position)).Alters R o') ∨
    ((∀ i position, o.phase = .waiting i (some position) →
      (o.reels[i]?).bind (·.chain.buffer.wait?) ≠ some true) ∧ o.Alters R o') := by
  unfold proceed at h
  split at h
  · next i seek z hp hs =>
    have same : ∀ j position, o.phase = .waiting j (some position) →
        j = i ∧ seek = some position := by
      intro j position hj
      cases hp.symm.trans hj
      exact ⟨rfl, rfl⟩
    split at h
    · cases h
    · next hw =>
      cases h
      refine .inr ⟨fun j position hj => ?_, alters_startFailed hR z⟩
      rw [(same j position hj).1, hw]
      nofun
    · next hw =>
      cases h
      cases seek with
      | none =>
        exact .inr ⟨fun j position hj => absurd (same j position hj).2 nofun,
          alters_openStream hR z i⟩
      | some position => exact .inl ⟨i, position, hp, hw, alters_openStream hR z i⟩
  · cases h

theorem reels_onIdle (id : Nat) : (o.onIdle id).reels = o.reels := by
  unfold onIdle
  split
  · rfl
  · split <;> rfl

theorem alters_acknowledged (hR : Admits R) : o.Alters R o.acknowledged := by
  unfold acknowledged
  split
  · dsimp only
    split
    · exact alters_teardown (o := { o with phase := .ready }) hR
    · exact .of_reels hR rfl
  · exact .of_reels hR rfl

end Output

end Jukebox.Deck
