import Jukebox.Proofs.Deck.Fade

/-!
Whether the last pause or resume wins. The control side judges a command by the state that the output
side has reported last, which can lag behind the requests that are on their way: it pauses only what
it believes to run, and resumes only what it believes to be paused. On a card that pauses and plays
when it is asked to, a track that goes on ends up as the last request about it wants. So the last
command decides, unless it finds the state that it asks for while the opposite is on its way; then it
is dropped, and the player does the opposite of what was said last.
-/

namespace Jukebox.Deck

open Transport (State)

/-- Does a command want the stream to run? Only pause and resume tell. -/
def Command.wants : Command → Option Bool
  | .pause => some false
  | .resume => some true
  | _ => none

/-- Is a pause or a resume heeded in a state? -/
def heeds (s : State) (running : Bool) : Bool :=
  if running then s = .paused else s.isRunning

/-- The last command is lost: it is not heeded, although the last request about the stream wants the
opposite. -/
def Misses (running : Bool) (d : Deck) : Prop :=
  heeds d.control.state running = false ∧
    heading d.control.session d.control.sent = !running

/-- The player plays or pauses, and says so. -/
def Follows (w : World) (running : Bool) (d : Deck) : Prop :=
  d.control.state = (if running then .playing else .paused) ∧ d.Plays w running

/-- The command that is taken in a step. -/
def order? (d : Deck) : Move → Option Command
  | .takeCommand => d.commands.head?
  | _ => none

/-- The commands that are taken in a run, each with the deck that takes it. -/
def orders (w : World) : Deck → List Move → List (Deck × Command)
  | _, [] => []
  | d, m :: ms => ((d.order? m).map fun c => (d, c)).toList ++
      ((d.step w m).map fun d' => orders w d' ms).getD []

variable {w : World} {m : Move} {c : Command} {d d' d₁ : Deck} {moves : List Move} {running : Bool}
  {k k' : Control.Sketch} {f f' : Output.Sketch}

/-! ### The commands taken in a run -/

theorem step_of_order (hm : d.step w m = some d') (hc : d.order? m = some c) :
    m = .takeCommand ∧ d.control.sketch.Ordered c d'.control.sketch := by
  cases stepped_of_step hm with
  | takeCommand hcommands =>
    rw [order?, hcommands] at hc
    cases hc
    exact ⟨rfl, Control.onCommand_ordered _ _⟩
  | _ => cases hc

theorem ne_takeCommand_of_no_order (hm : d.step w m = some d') (hc : d.order? m = none) :
    m ≠ .takeCommand := by
  rintro rfl
  cases stepped_of_step hm with
  | takeCommand hcommands =>
    rw [order?, hcommands] at hc
    cases hc

/-- Without a command, the control side only hears of its session. -/
theorem Shift.heard (hm : Shift w m k f k' f') (hne : m ≠ .takeCommand) :
    k' = k ∨ ∃ e, k.Heard e k' := by
  cases hm with
  | command => exact absurd rfl hne
  | @notice n _ _ _ _ _ _ hk hk' =>
    by_cases hn : n.session = k.session
    · exact .inr ⟨n.event, hk hn⟩
    · exact .inl (hk' hn)
  | _ => exact .inl rfl

/-- What every report keeps, and every command of some kind, is kept by a run in which all commands
taken are of that kind. -/
theorem run_keeps_orders (P : Control.Sketch → Prop) (allowed : Command → Prop)
    (hheard : ∀ {e k k'}, P k → k.Heard e k' → P k')
    (horder : ∀ {c k k'}, allowed c → P k → k.Ordered c k' → P k') (hd : P d.control.sketch)
    (hrun : d.run w moves = some d') (hall : ∀ o ∈ orders w d moves, allowed o.2) :
    P d'.control.sketch := by
  induction moves generalizing d with
  | nil =>
    cases hrun
    exact hd
  | cons m ms ih =>
    obtain ⟨d₁, hm, hrun⟩ := Option.bind_eq_some_iff.1 hrun
    simp only [orders, hm, Option.map_some, Option.getD_some, List.mem_append] at hall
    refine ih ?_ hrun fun o ho => hall o (.inr ho)
    cases hc : d.order? m with
    | some c =>
      exact horder (hall (d, c) (.inl (by simp [hc]))) hd (step_of_order hm hc).2
    | none =>
      rcases (step_shift hm).heard (ne_takeCommand_of_no_order hm hc) with hk | ⟨e, hk⟩
      · rw [hk]
        exact hd
      · exact hheard hd hk

/-- A run up to the last command, the step that takes it, and the rest without a command. -/
theorem split_at_last_order (hrun : d.run w moves = some d')
    (hlast : (orders w d moves).getLast? = some (d₁, c)) :
    ∃ before after d₂, orders w d moves = orders w d before ++ [(d₁, c)] ∧
      d.run w before = some d₁ ∧ d₁.step w .takeCommand = some d₂ ∧
      d₁.order? .takeCommand = some c ∧ d₂.run w after = some d' ∧ orders w d₂ after = [] := by
  induction moves generalizing d with
  | nil => cases hlast
  | cons m ms ih =>
    obtain ⟨d₂, hm, hrun'⟩ := Option.bind_eq_some_iff.1 hrun
    have hcons : orders w d (m :: ms) =
        ((d.order? m).map fun c => (d, c)).toList ++ orders w d₂ ms := by
      simp only [orders, hm, Option.map_some, Option.getD_some]
    rw [hcons] at hlast ⊢
    cases hnil : (orders w d₂ ms).getLast? with
    | none =>
      have hnone : orders w d₂ ms = [] := List.getLast?_eq_none_iff.1 hnil
      rw [hnone, List.append_nil] at hlast ⊢
      cases hc : d.order? m with
      | none => simp [hc] at hlast
      | some c' =>
        rw [hc] at hlast
        cases hlast
        obtain ⟨rfl, -⟩ := step_of_order hm hc
        exact ⟨[], ms, d₂, rfl, rfl, hm, hc, hrun', hnone⟩
    | some o =>
      have ho : o = (d₁, c) := by
        rw [List.getLast?_append, hnil] at hlast
        exact Option.some.inj hlast
      rw [ho] at hnil
      obtain ⟨before, after, d₃, horders, hbefore, hrest⟩ := ih hrun' hnil
      refine ⟨m :: before, after, d₃, ?_, by simp [run, hm, hbefore], hrest⟩
      rw [horders]
      simp only [orders, hm, Option.map_some, Option.getD_some, List.append_assoc]

/-! ### A track that goes on -/

namespace Control.Sketch

/-- A report leads to a new session, or it sends nothing, and then a player that has stopped or fades
does not go on. -/
theorem Heard.same_session {e : DeviceEvent} (h : k.Heard e k') (hs : k'.session ≤ k.session) :
    k'.session = k.session ∧ k'.sent = k.sent ∧
      (k'.state = k.state ∨ k'.state = .stopped ∨
        (k.state.isRunning ∨ k.state = .paused) ∧ (k'.state = .playing ∨ k'.state = .paused)) := by
  cases h with
  | next | arrive | skip => exact absurd hs (Nat.not_succ_le_self _)
  | play hst => exact ⟨rfl, rfl, .inr (.inr ⟨hst, .inl rfl⟩)⟩
  | pause hst => exact ⟨rfl, rfl, .inr (.inr ⟨hst, .inr rfl⟩)⟩
  | finish | giveUp => exact ⟨rfl, rfl, .inr (.inl rfl)⟩
  | mark | ignored => exact ⟨rfl, rfl, .inl rfl⟩

/-- A pause or resume that is heeded is passed on; one that is not does nothing. -/
theorem Ordered.wants (h : k.Ordered c k') (hc : c.wants = some running) :
    k'.session = k.session ∧ k'.state = k.state ∧
      heading k.session k'.sent =
        if heeds k.state running then running else heading k.session k.sent := by
  cases h with
  | suspend hs hc' =>
    rcases hc' with rfl | rfl
    · cases hc
      simp [ask, Request.heads, heeds, hs]
    · cases hc
  | resume hs hc' =>
    rcases hc' with rfl | rfl
    · cases hc
      simp [ask, Request.heads, heeds, hs]
    · cases hc
  | ignored _ hpause hresume =>
    refine ⟨rfl, rfl, ?_⟩
    cases c <;> cases hc
    · simp [heeds, hpause rfl]
    · simp [heeds, hresume rfl]
  | fade _ hc' => rcases hc' with ⟨rfl, -⟩ | ⟨rfl, -⟩ | ⟨rfl, -⟩ | ⟨rfl, -⟩ <;> cases hc
  | cut hc' =>
    rcases hc' with ⟨-, rfl, -⟩ | ⟨-, ⟨rfl, -⟩ | ⟨rfl, -⟩⟩ <;> cases hc
  | step _ hc' => rcases hc' with ⟨rfl, -⟩ | ⟨rfl, -⟩ <;> cases hc
  | begin | turn | halt | seek | remember | tempo | shutdown => cases hc

end Control.Sketch

/-- Sessions are numbered upwards. -/
theorem session_le_of_run (hrun : d.run w moves = some d') :
    d.control.session ≤ d'.control.session := by
  have hkeeps := run_keeps_orders (fun k => d.control.session ≤ k.session) (fun _ => True)
    ?_ ?_ (Nat.le_refl _) hrun fun _ _ => trivial
  · exact hkeeps
  · intro e k k' hle hk
    obtain ⟨news, hsends⟩ := hk.sends
    exact Nat.le_trans hle hsends.later
  · intro c k k' _ hle hk
    obtain ⟨news, hsends⟩ := hk.sends
    exact Nat.le_trans hle hsends.later

/-- A property of the state that a session keeps while only pauses and resumes are taken. -/
theorem run_keeps_state {Q : State → Prop}
    (hstay : ∀ {s s' : State}, Q s → s' = .stopped ∨
      (s.isRunning ∨ s = .paused) ∧ (s' = .playing ∨ s' = .paused) → Q s')
    (hd : Q d.control.state) (hrun : d.run w moves = some d')
    (hall : ∀ o ∈ orders w d moves, o.2.wants.isSome)
    (hsame : d'.control.session = d.control.session) : Q d'.control.state := by
  have hkeeps := run_keeps_orders
    (fun k => d.control.session ≤ k.session ∧ (k.session = d.control.session → Q k.state))
    (fun c => c.wants.isSome) ?_ ?_ ⟨Nat.le_refl _, fun _ => hd⟩ hrun hall
  · exact hkeeps.2 hsame
  · rintro e k k' ⟨hle, hq⟩ hk
    obtain ⟨news, hsends⟩ := hk.sends
    have hlater := hsends.later
    refine ⟨Nat.le_trans hle hlater, fun hs => ?_⟩
    obtain ⟨hsession, -, hstate | hstate⟩ := hk.same_session (by omega)
    · rw [hstate]
      exact hq (hsession.symm.trans hs)
    · exact hstay (hq (hsession.symm.trans hs)) hstate
  · rintro c k k' hc ⟨hle, hq⟩ hk
    obtain ⟨running, hc⟩ := Option.isSome_iff_exists.1 hc
    obtain ⟨hsession, hstate, -⟩ := hk.wants hc
    rw [hsession, hstate]
    exact ⟨hle, hq⟩

/-- Nothing is sent about a session while no command is taken. -/
theorem sent_of_no_order (hrun : d.run w moves = some d') (hnone : orders w d moves = [])
    (hsame : d'.control.session = d.control.session) : d'.control.sent = d.control.sent := by
  have hkeeps := run_keeps_orders
    (fun k => d.control.session ≤ k.session ∧
      (k.session = d.control.session → k.sent = d.control.sent))
    (fun _ => False) ?_ ?_ ⟨Nat.le_refl _, fun _ => rfl⟩ hrun (by simp [hnone])
  · exact hkeeps.2 hsame
  · rintro e k k' ⟨hle, hsent⟩ hk
    obtain ⟨news, hsends⟩ := hk.sends
    have hlater := hsends.later
    refine ⟨Nat.le_trans hle hlater, fun hs => ?_⟩
    obtain ⟨hsession, hsent', -⟩ := hk.same_session (by omega)
    exact hsent'.trans (hsent (hsession.symm.trans hs))
  · rintro c k k' ⟨⟩

/-! ### At rest -/

/-- When nothing is on its way, a player that has not stopped and does not fade does what the last
request about its stream wants. -/
theorem Quiet.follows (h : Quiet k f) (hs : Sound k f) (hheads : f.Heads (handled k f))
    (hst : k.state ≠ .stopped) (hf : k.state.isFading = false) :
    k.state = (if heading k.session k.sent then .playing else .paused) ∧
      ∃ z, f.session = some z ∧ z.id = k.session ∧
        z.stream = some (heading k.session k.sent) := by
  have hagrees := hs.agrees (h.closed hs)
  have hsent : handled k f = k.sent := List.take_of_length_le (List.drop_eq_nil_iff.1 h.pending)
  have runs : ∀ {running}, f.Runs running → running = heading k.session k.sent ∧
      ∃ z, f.session = some z ∧ z.id = k.session ∧ z.stream = some running := by
    intro running hruns
    obtain ⟨z, hz, hid, hr⟩ := h.runs hs hruns
    have hheading := hheads.stream z running hz hr (h.session hs hz).2
    rw [hsent, hid] at hheading
    exact ⟨hheading, z, hz, hid, hr⟩
  cases hstate : k.state with
  | playing =>
    obtain ⟨hheading, hz⟩ := runs ((agrees_playing hstate).1 hagrees).2
    rw [← hheading]
    exact ⟨rfl, hz⟩
  | paused =>
    obtain ⟨hheading, hz⟩ := runs ((agrees_paused hstate).1 hagrees).2
    rw [← hheading]
    exact ⟨rfl, hz⟩
  | starting =>
    obtain ⟨z, -, ⟨i, seek, hp⟩ | hp | hp⟩ :=
      ((agrees_starting hstate).1 hagrees).resolve_left fun hn => hn h.numbers <;>
        simp [h.phase] at hp
  | stopped => exact absurd hstate hst
  | fadingToStop | fadingTo => simp [hstate, State.isFading] at hf

theorem follows_of_isQuiet {fades : Fades} {playlist : Playlist} (hw : w.Complies)
    (h : Reachable w fades playlist d) (hq : d.isQuiet) (hst : d.control.state ≠ .stopped)
    (hf : d.control.state.isFading = false) :
    d.Follows w (heading d.control.session d.control.sent) := by
  obtain ⟨hstate, z, hz, hid, hr⟩ :=
    (quiet_of_isQuiet hq).follows h.sound (h.heads hw) hst hf
  exact ⟨hstate, plays_of_stream h.sound hst hz hid hr⟩

theorem not_follows_both (h : d.Follows w running) : ¬ d.Follows w (!running) := by
  intro h'
  have hstate := h.1.symm.trans h'.1
  cases running <;> cases hstate

/-- A command that is taken when nothing is on its way is never lost. -/
theorem Quiet.not_misses (hq : Quiet d.control.sketch d.output.sketch)
    (hs : Sound d.control.sketch d.output.sketch)
    (hheads : d.output.sketch.Heads (handled d.control.sketch d.output.sketch))
    (hst : d.control.state ≠ .stopped) (hf : d.control.state.isFading = false) :
    ¬ d.Misses running := by
  rintro ⟨hheeds, hheading⟩
  have hstate : d.control.state =
      (if heading d.control.session d.control.sent then .playing else .paused) :=
    (hq.follows hs hheads hst hf).1
  rw [hheading] at hstate
  rw [hstate] at hheeds
  cases running <;> cases hheeds

/-- What the last request about the stream wants is settled when the last command is taken, and a
player that has stopped by then has stopped in the end. -/
theorem heading_of_last_order {d₀ : Deck} (hrun : d₀.run w moves = some d)
    (hlast : (orders w d₀ moves).getLast? = some (d₁, c)) (hc : c.wants = some running)
    (hsame : d.control.session = d₀.control.session) :
    (∃ before, d₀.run w before = some d₁ ∧ orders w d₀ before ⊆ orders w d₀ moves) ∧
      d₁.control.session = d₀.control.session ∧
      (d₁.control.state = .stopped → d.control.state = .stopped) ∧
      heading d.control.session d.control.sent =
        if heeds d₁.control.state running then running
        else heading d₁.control.session d₁.control.sent := by
  obtain ⟨before, after, d₂, horders, hbefore, hstep, horder, hafter, hnone⟩ :=
    split_at_last_order hrun hlast
  obtain ⟨-, hordered⟩ := step_of_order hstep horder
  obtain ⟨hsession, hstate, hheading⟩ := hordered.wants hc
  have hsession' : d₂.control.session = d₁.control.session := hsession
  have hle := session_le_of_run hbefore
  have hle' := session_le_of_run hafter
  have hsame₁ : d₁.control.session = d₀.control.session := by omega
  have hsame₂ : d.control.session = d₂.control.session := by omega
  refine ⟨⟨before, hbefore, ?_⟩, hsame₁, fun hs => ?_, ?_⟩
  · rw [horders]
    exact List.subset_append_left ..
  · refine run_keeps_state (Q := (· = .stopped)) ?_ (hstate.trans hs) hafter (by simp [hnone]) hsame₂
    rintro s s' rfl (rfl | ⟨hs | hs, -⟩)
    · rfl
    · cases hs
    · cases hs
  · rw [sent_of_no_order hafter hnone hsame₂, hsame₂, hsession']
    exact hheading

/-- A track that is played and goes on does not fade, whatever is paused and resumed. -/
theorem not_fading_of_run (hst : d.control.state.isRunning ∨ d.control.state = .paused)
    (hrun : d.run w moves = some d') (hall : ∀ o ∈ orders w d moves, o.2.wants.isSome)
    (hsame : d'.control.session = d.control.session) : d'.control.state.isFading = false := by
  refine run_keeps_state (Q := fun s => s.isFading = false) ?_ ?_ hrun hall hsame
  · rintro s s' - (rfl | ⟨-, rfl | rfl⟩) <;> rfl
  · rcases hst with hs | hs
    · cases he : d.control.state <;> simp [he, State.isRunning] at hs <;> rfl
    · rw [hs]
      rfl

/-- Of the pauses and resumes of a track that goes on, on a card that pauses and plays when it is
asked to, the last one decides what the player does at rest, unless that one was lost; then the
player does the opposite. It is not lost if nothing was on its way when it was taken. -/
theorem last_word_decides_unless_missed {fades : Fades} {playlist : Playlist} {d₀ : Deck}
    (hw : w.Complies) (h₀ : Reachable w fades playlist d₀)
    (hst₀ : d₀.control.state.isRunning ∨ d₀.control.state = .paused)
    (hrun : d₀.run w moves = some d) (hall : ∀ o ∈ orders w d₀ moves, o.2.wants.isSome)
    (hlast : (orders w d₀ moves).getLast? = some (d₁, c)) (hc : c.wants = some running)
    (hq : d.isQuiet) (hsame : d.control.session = d₀.control.session)
    (hst : d.control.state ≠ .stopped) :
    (d.Follows w running ↔ ¬ d₁.Misses running) ∧
      (d₁.Misses running → d.Follows w (!running)) ∧
      (Quiet d₁.control.sketch d₁.output.sketch → ¬ d₁.Misses running) := by
  obtain ⟨⟨before, hbefore, hsubset⟩, hsame₁, hstopped, hheading⟩ :=
    heading_of_last_order hrun hlast hc hsame
  have hfollows := follows_of_isQuiet hw (h₀.run hrun) hq hst
    (not_fading_of_run hst₀ hrun hall hsame)
  rw [hheading] at hfollows
  have hlost : d₁.Misses running → d.Follows w (!running) := by
    rintro ⟨hheeds, hopposite⟩
    rw [hheeds, hopposite] at hfollows
    exact hfollows
  have hkept : ¬ d₁.Misses running → d.Follows w running := by
    intro hmiss
    cases hheeds : heeds d₁.control.state running with
    | true =>
      rw [hheeds] at hfollows
      exact hfollows
    | false =>
      have hagrees : heading d₁.control.session d₁.control.sent = running := by
        by_cases he : heading d₁.control.session d₁.control.sent = running
        · exact he
        · exact absurd ⟨hheeds, Bool.eq_not.2 he⟩ hmiss
      rw [hheeds, hagrees] at hfollows
      exact hfollows
  refine ⟨⟨fun hf hmiss => not_follows_both hf (hlost hmiss), hkept⟩, hlost, fun hquiet => ?_⟩
  have h₁ := h₀.run hbefore
  refine hquiet.not_misses h₁.sound (h₁.heads hw) (fun hs => hst (hstopped hs)) ?_
  exact not_fading_of_run hst₀ hbefore (fun o ho => hall o (hsubset ho)) hsame₁

/-- A pause, and a resume after it has been answered. -/
def unhurried : List Move :=
  [.give .pause, .takeCommand, .takeRequest, .takeNotice, .give .resume, .takeCommand, .takeRequest,
    .takeNotice]

theorem last_word_decides_unhurried : World.obedient.Complies ∧ ∃ d₀ d₁ d,
    (initial {} pair).run .obedient started = some d₀ ∧ d₀.run .obedient unhurried = some d ∧
      (orders .obedient d₀ unhurried).getLast? = some (d₁, .resume) ∧
      ¬ d₁.Misses true ∧ d.Follows .obedient true := by
  obtain ⟨d₀, d₁, d, hstart, hst₀, hrun, hall, hlast, hq₁, hq, hsame, hst⟩ : ∃ d₀ d₁ d,
      (initial {} pair).run .obedient started = some d₀ ∧ d₀.control.state.isRunning = true ∧
        d₀.run .obedient unhurried = some d ∧
        (orders .obedient d₀ unhurried).all (·.2.wants.isSome) = true ∧
        (orders .obedient d₀ unhurried).getLast? = some (d₁, .resume) ∧
        ({ d₁ with commands := [] }).isQuiet = true ∧ d.isQuiet = true ∧
        d.control.session = d₀.control.session ∧ d.control.state = .playing :=
    ⟨_, _, _, rfl, rfl, rfl, rfl, rfl, rfl, rfl, rfl, rfl⟩
  have hw : World.obedient.Complies := fun _ => ⟨rfl, rfl⟩
  obtain ⟨hiff, -, hquiet⟩ := last_word_decides_unless_missed hw ⟨_, hstart⟩ (.inl hst₀) hrun
    (List.all_eq_true.1 hall) hlast rfl hq hsame (by simp [hst])
  have hmiss : ¬ d₁.Misses true := hquiet (quiet_of_isQuiet (d := { d₁ with commands := [] }) hq₁)
  exact ⟨hw, d₀, d₁, d, hstart, hrun, hlast, hmiss, hiff.2 hmiss⟩

/-- A pause, and a resume before it has been answered. -/
def hurried : List Move :=
  [.give .pause, .give .resume, .takeCommand, .takeCommand, .takeRequest, .takeNotice]

/-- A track that plays is paused and resumed at once, and the resume is lost: it stays paused. -/
theorem resume_is_lost : World.obedient.Complies ∧ ∃ d₀ d₁ d,
    (initial {} pair).run .obedient started = some d₀ ∧ d₀.control.state = .playing ∧
      d₀.run .obedient hurried = some d ∧
      (orders .obedient d₀ hurried).all (·.2.wants.isSome) = true ∧
      (orders .obedient d₀ hurried).getLast? = some (d₁, .resume) ∧ d.isQuiet ∧
      d.control.session = d₀.control.session ∧ d.control.state = .paused ∧
      d.output.session.any (·.stream = some false) :=
  ⟨fun _ => ⟨rfl, rfl⟩, _, _, _, rfl, rfl, rfl, rfl, rfl, rfl, rfl, rfl, rfl⟩

end Jukebox.Deck
