import Jukebox.Proofs.Deck.Landing

/-!
What becomes of a seek. In a running track it is sent for the session of that track, and lands there
or nowhere, while the control side may already mean another session. While the player is stopped it
waits with the control side for the next start, unless another seek takes its place. While a track
fades it is lost.
-/

namespace Jukebox.Deck

open Transport (State)

variable {w : World} {m : Move} {d d' d₀ d₁ d₂ : Deck} {k k' : Control.Sketch}
  {f f' : Output.Sketch} {rs : List Request}

/-! ### Seeks while stopped -/

/-- What the seek of a start depends on: a seek that is taken while the player is stopped, and a start
that is asked for, with the seek it is given. -/
inductive Cue where
  | seek (position : Span)
  | start (session : Nat) (seek : Option Span)

/-- The start that a request is. -/
def Request.cue? : Request → Option Cue
  | .start id _ position? => some (.start id position?)
  | _ => none

/-- The seek that a step takes while the player is stopped. -/
def restingSeek? (d : Deck) : Move → Option Span
  | .takeCommand =>
    match d.control.state, d.commands with
    | .stopped, .seek position :: _ => some position
    | _, _ => none
  | _ => none

/-- The cues of a step. -/
def newCues (d : Deck) (m : Move) (d' : Deck) : List Cue :=
  ((d.restingSeek? m).map Cue.seek).toList ++
    (d'.control.sent.drop d.control.sent.length).filterMap Request.cue?

/-- The seeks that are taken while the player is stopped and the starts that are asked for in a run,
oldest first. -/
def cues (w : World) : Deck → List Move → List Cue := yields newCues w

/-- The seek that the next start is to be given: the last one, unless a start has come after it. -/
def standing? (cs : List Cue) : Option Span :=
  match cs.getLast? with
  | some (.seek position) => some position
  | _ => none

/-- What a step adds to the cues, and what then waits for the next start. -/
inductive Control.Sketch.Cues (k k' : Sketch) : List Cue → Prop where
  | nothing (hs : k'.pendingSeek = k.pendingSeek) : Cues k k' []
  | seek {position} (hs : k'.pendingSeek = some position) : Cues k k' [.seek position]
  | start {id} (hs : k'.pendingSeek = none) : Cues k k' [.start id k.pendingSeek]

open Control.Sketch (Cues)

theorem Control.Sketch.Ordered.cues {cmd : Command} (h : k.Ordered cmd k')
    (hc : ∀ position, cmd ≠ .seek position) :
    ∃ news, k'.sent = k.sent ++ news ∧ Cues k k' (news.filterMap Request.cue?) := by
  cases h with
  | begin => exact ⟨_, rfl, .start rfl⟩
  | fade | suspend | resume | halt | cut | tempo | shutdown => exact ⟨_, rfl, .nothing rfl⟩
  | turn | step | ignored => exact ⟨[], (List.append_nil _).symm, .nothing rfl⟩
  | @seek position | @remember position => exact absurd rfl (hc position)

theorem Control.Sketch.Heard.cues {e : DeviceEvent} (h : k.Heard e k') :
    ∃ news, k'.sent = k.sent ++ news ∧ Cues k k' (news.filterMap Request.cue?) := by
  cases h with
  | next | arrive | skip => exact ⟨_, rfl, .start rfl⟩
  | play | pause | finish | giveUp | mark | ignored =>
    exact ⟨[], (List.append_nil _).symm, .nothing rfl⟩

theorem Control.seek_of_stopped {c : Control} (hs : c.state = .stopped) (position : Span) :
    c.seek position = { c with pendingSeek := some position } := by simp [Control.seek, hs]

theorem Control.seek_of_awake {c : Control} (hs : c.state.isRunning ∨ c.state = .paused)
    (position : Span) : c.seek position = c.request (.seek c.session position) := by
  unfold Control.seek
  rcases hs with hs | hs
  · cases h : c.state <;> simp [h, State.isRunning] at hs ⊢
  · rw [hs]

theorem Control.seek_of_fading {c : Control} (hs : c.state.isFading) (position : Span) :
    c.seek position = c := by
  unfold Control.seek
  cases h : c.state <;> simp [h, State.isFading] at hs ⊢

theorem state_cases (s : State) :
    s = .stopped ∨ (s.isRunning = true ∨ s = .paused) ∨ s.isFading = true := by
  cases s <;> simp [State.isRunning, State.isFading]

theorem restingSeek?_of_ne (hs : d.control.state ≠ .stopped) : d.restingSeek? m = none := by
  unfold restingSeek?
  split
  · split
    · next hst _ => exact absurd hst hs
    · rfl
  · rfl

theorem newCues_of_sent (hno : d.restingSeek? m = none)
    (hsent : d'.control.sent = d.control.sent ++ rs) :
    newCues d m d' = rs.filterMap Request.cue? := by
  rw [newCues, hno, hsent, List.drop_left]
  rfl

/-- A seek is a cue exactly when the player is stopped. -/
theorem seek_cues {position : Span} {commands : List Command}
    (hc : d.commands = .seek position :: commands)
    (hseek : d'.control = d.control.seek position) :
    Cues d.control.sketch d'.control.sketch (newCues d .takeCommand d') := by
  rcases state_cases d.control.state with hs | hs | hs
  · rw [Control.seek_of_stopped hs] at hseek
    have hcues : newCues d .takeCommand d' = [.seek position] := by
      simp [newCues, restingSeek?, hs, hc, hseek]
    rw [hcues, hseek]
    exact .seek rfl
  · rw [Control.seek_of_awake hs] at hseek
    have hne : d.control.state ≠ .stopped := fun h => by simp [h, State.isRunning] at hs
    rw [newCues_of_sent (restingSeek?_of_ne hne) (congrArg Control.sent hseek), hseek]
    exact .nothing rfl
  · rw [Control.seek_of_fading hs] at hseek
    have hne : d.control.state ≠ .stopped := fun h => by simp [h, State.isFading] at hs
    have hsent : d'.control.sent = d.control.sent ++ [] := by rw [hseek, List.append_nil]
    rw [newCues_of_sent (restingSeek?_of_ne hne) hsent, hseek]
    exact .nothing rfl

theorem step_cues (hm : d.step w m = some d') :
    Cues d.control.sketch d'.control.sketch (newCues d m d') := by
  have still : d.restingSeek? m = none → d'.control = d.control →
      Cues d.control.sketch d'.control.sketch (newCues d m d') := by
    intro hno hsame
    have hsent : d'.control.sent = d.control.sent ++ [] := by rw [hsame, List.append_nil]
    rw [newCues_of_sent hno hsent, hsame]
    exact .nothing rfl
  cases stepped_of_step hm with
  | give | takeRequest | takeIdle | proceed | giveUp | render | produce => exact still rfl rfl
  | @takeNotice n =>
    have hn := Control.onNotice_heard (c := d.control) (d.output.played w) n
    by_cases hid : n.session = d.control.session
    · obtain ⟨news, hsent, hcues⟩ := (hn.1 hid).cues
      rw [newCues_of_sent rfl hsent]
      exact hcues
    · exact still rfl (if_neg hid)
  | @takeCommand c commands hc =>
    by_cases hseek : ∃ position, c = .seek position
    · obtain ⟨position, rfl⟩ := hseek
      exact seek_cues hc rfl
    · have hne : ∀ position, c ≠ .seek position := fun position he => hseek ⟨position, he⟩
      have hno : d.restingSeek? .takeCommand = none := by
        unfold restingSeek?
        dsimp only
        split
        · next hcs =>
          cases hc.symm.trans hcs
          exact absurd rfl (hne _)
        · rfl
      obtain ⟨news, hsent, hcues⟩ := (Control.onCommand_ordered (d.output.played w) c).cues hne
      rw [newCues_of_sent hno hsent]
      exact hcues

/-- Where one more cue stands in a list that ends with it. -/
theorem split_concat {cs front rest : List Cue} {x y : Cue} (h : cs ++ [x] = front ++ y :: rest) :
    cs = front ∧ x = y ∨ ∃ rest', cs = front ++ y :: rest' := by
  rcases rest.eq_nil_or_concat with rfl | ⟨rest', z, rfl⟩
  · obtain ⟨rfl, hx⟩ := List.append_inj' h rfl
    exact .inl ⟨rfl, (List.cons.inj hx).1⟩
  · rw [List.concat_eq_append, ← List.cons_append, ← List.append_assoc] at h
    exact .inr ⟨rest', (List.append_inj' h rfl).1⟩

/-- Every start in a list of cues is given the seek that stands, after others that were there
before. -/
def Handed (earlier cs : List Cue) : Prop :=
  ∀ front id position? rest, cs = front ++ .start id position? :: rest →
    position? = standing? (earlier ++ front)

theorem Handed.concat {earlier cs : List Cue} {x : Cue} (h : Handed earlier cs)
    (hx : ∀ id position?, x = .start id position? → position? = standing? (earlier ++ cs)) :
    Handed earlier (cs ++ [x]) := by
  intro front id position? rest hsplit
  rcases split_concat hsplit with ⟨rfl, hstart⟩ | ⟨rest', hcs⟩
  · exact hx id position? hstart
  · exact h front id position? rest' hcs

/-- In a run, what waits for the next start is the seek that stands, and each start has been given
it. Seeks may have stood before. -/
theorem handed_of_run {earlier : List Cue} {moves : List Move}
    (h₀ : d₀.control.pendingSeek = standing? earlier) (h : d₀.run w moves = some d) :
    d.control.pendingSeek = standing? (earlier ++ cues w d₀ moves) ∧
      Handed earlier (cues w d₀ moves) := by
  refine run_induction (P := fun before d =>
    d.control.pendingSeek = standing? (earlier ++ cues w d₀ before) ∧
      Handed earlier (cues w d₀ before)) ⟨?_, ?_⟩ (fun before m d d' hrun hm hbefore => ?_) h
  · rw [show cues w d₀ [] = [] from rfl, List.append_nil, h₀]
  · rintro (_ | ⟨_, front⟩) id position? rest hnil <;> cases hnil
  obtain ⟨hpending, hhanded⟩ := hbefore
  rw [show cues w d₀ (before ++ [m]) = _ from yields_concat _ hrun hm, ← List.append_assoc]
  have hcues := step_cues hm
  generalize newCues d m d' = news at hcues ⊢
  cases hcues with
  | nothing hs =>
    rw [List.append_nil, List.append_nil]
    exact ⟨hs.trans hpending, hhanded⟩
  | seek hs =>
    refine ⟨hs.trans ?_, hhanded.concat nofun⟩
    rw [standing?, List.getLast?_concat]
  | start hs =>
    refine ⟨hs.trans ?_, hhanded.concat ?_⟩
    · rw [standing?, List.getLast?_concat]
    · rintro id position? ⟨⟩
      exact hpending

/-! ### A seek and the track it was meant for -/

theorem step_seek {position : Span} (hseek : d.commands.head? = some (.seek position))
    (hm : d.step w .takeCommand = some d₁) :
    d₁ = { d with commands := d.commands.tail, control := d.control.seek position } := by
  cases stepped_of_step hm with
  | @takeCommand c commands hc =>
    rw [hc] at hseek ⊢
    cases hseek
    rfl

theorem sent_run {moves : List Move} (h : d.run w moves = some d') :
    d.control.sent <+: d'.control.sent :=
  run_keeps (P := fun k _ => d.control.sent <+: k.sent)
    (fun _ _ _ _ _ _ hsent hm => hsent.trans (sent_shift hm)) List.prefix_rfl h

/-- The landings on requests at different places are different, so a request has at most one. -/
theorem Landed.at_most_one {ls : List Landing} (h : Landed ls k f) (n : Nat) :
    (ls.filter (·.place = n)).length ≤ 1 := by
  have hplaces : (ls.filter (·.place = n)).Pairwise (·.place < ·.place) :=
    h.ordered.sublist List.filter_sublist
  have hplace : ∀ l ∈ ls.filter (·.place = n), l.place = n := fun l hl =>
    of_decide_eq_true (List.mem_filter.1 hl).2
  refine Nat.le_of_not_lt fun hmany => ?_
  have hlt := List.pairwise_iff_getElem.1 hplaces 0 1 (by omega) (by omega) Nat.zero_lt_one
  rw [hplace _ (List.getElem_mem _), hplace _ (List.getElem_mem _)] at hlt
  exact Nat.lt_irrefl n hlt

/-- A seek lands on the track it was meant for. In a track that goes on it is sent for the session of
that track, and lands at most once, on its reel and before any fade is on it. While the player is
stopped it waits, until another takes its place or the next start is given it. While a track fades
it is lost. All other cursors stay where they are. -/
theorem seek_lands_on_its_track {fades : Fades} {playlist : Playlist} {before after : List Move}
    {position : Span} (hbefore : (initial fades playlist).run w before = some d)
    (hseek : d.commands.head? = some (.seek position)) (htaken : d.step w .takeCommand = some d₁)
    (hafter : d₁.run w after = some d₂) :
    let ls := landings w (initial fades playlist) (before ++ .takeCommand :: after)
    (∀ m d₃, d₂.step w m = some d₃ → m.isAudio = false →
      Lands (d₂.landing? m) d₂.output d₃.output) ∧
    (∀ l ∈ ls, l.Meant d₂.control.sent) ∧ ls.Pairwise (·.place < ·.place) ∧
    (d.control.state.isRunning ∨ d.control.state = .paused →
      d₁.control = d.control.request (.seek d.control.session position) ∧
      (ls.filter (·.place = d.control.sent.length)).length ≤ 1 ∧
      ∀ l ∈ ls, l.place = d.control.sent.length → l.reel.session = d.control.session ∧
        l.position = position ∧ l.reel.chain.fade = none) ∧
    (d.control.state = .stopped →
      d₁.control = { d.control with pendingSeek := some position } ∧
      Handed [.seek position] (cues w d₁ after)) ∧
    (d.control.state.isFading → d₁ = { d with commands := d.commands.tail }) := by
  intro ls
  have hrun : (initial fades playlist).run w (before ++ .takeCommand :: after) = some d₂ := by
    simp [run_append, hbefore, run, htaken, hafter]
  have hlanded : Landed ls d₂.control.sketch d₂.output.sketch := landed_of_run hrun
  obtain rfl := step_seek hseek htaken
  refine ⟨fun m d₃ hm ha => step_lands hm ha, hlanded.meant, hlanded.ordered, fun hs => ?_,
    fun hs => ?_, fun hs => ?_⟩
  · have hcontrol := Control.seek_of_awake hs position
    refine ⟨hcontrol, hlanded.at_most_one _, fun l hl hplace => ?_⟩
    obtain ⟨news, hnews⟩ : d.control.sent ++ [.seek d.control.session position] <+:
        d₂.control.sent := by
      have hsent := sent_run hafter
      rw [hcontrol] at hsent
      exact hsent
    have hasked : d₂.control.sent[l.place]? = some (.seek d.control.session position) := by
      simp [hplace, ← hnews]
    obtain ⟨hunfaded, hl | hl⟩ := hlanded.meant l hl
    · have hrequest := Option.some.inj (hasked.symm.trans hl)
      injection hrequest with hid hposition
      exact ⟨hid.symm, hposition.symm, hunfaded⟩
    · have hrequest := Option.some.inj (hasked.symm.trans hl)
      injection hrequest
  · have hcontrol := Control.seek_of_stopped hs position
    have hpending : (d.control.seek position).pendingSeek = standing? [.seek position] := by
      rw [hcontrol]
      rfl
    exact ⟨hcontrol, (handed_of_run hpending hafter).2⟩
  · rw [Control.seek_of_fading hs]

/-- A seek that is given while a track plays. -/
def sought : List Move := started ++ [.give (.seek ⟨1000000⟩)]

theorem seek_lands_in_first_track : ∃ d d₁ d₂ l, (initial {} pair).run .obedient sought = some d ∧
    d.control.state = .playing ∧ d.commands.head? = some (.seek ⟨1000000⟩) ∧
    d.step .obedient .takeCommand = some d₁ ∧ d₁.run .obedient [.takeRequest] = some d₂ ∧
    landings .obedient (initial {} pair) (sought ++ [.takeCommand, .takeRequest]) = [l] ∧
    l.reel.session = d.control.session ∧ l.position = ⟨1000000⟩ ∧ l.reel.chain.fade = none := by
  obtain ⟨d, d₁, d₂, l, hbefore, hstate, hseek, htaken, hafter, hls, hplace⟩ : ∃ d d₁ d₂ l,
      (initial {} pair).run .obedient sought = some d ∧ d.control.state = .playing ∧
      d.commands.head? = some (.seek ⟨1000000⟩) ∧ d.step .obedient .takeCommand = some d₁ ∧
      d₁.run .obedient [.takeRequest] = some d₂ ∧
      landings .obedient (initial {} pair) (sought ++ [.takeCommand, .takeRequest]) = [l] ∧
      l.place = d.control.sent.length :=
    ⟨_, _, _, _, rfl, rfl, rfl, rfl, rfl, rfl, rfl⟩
  have hrunning : d.control.state.isRunning = true := by rw [hstate]; rfl
  obtain ⟨-, -, -, hawake, -, -⟩ := seek_lands_on_its_track hbefore hseek htaken hafter
  have hmeant := (hawake (.inl hrunning)).2.2 l (by rw [hls]; exact List.mem_singleton_self l) hplace
  exact ⟨d, d₁, d₂, l, hbefore, hstate, hseek, htaken, hafter, hls, hmeant⟩

/-- Of two seeks at rest the later one is given to the next start, and to no other. -/
example : cues .obedient (initial {} pair)
    [.give (.seek ⟨1⟩), .takeCommand, .give (.seek ⟨2⟩), .takeCommand, .give .play, .takeCommand,
      .takeRequest, .produce 0 (.write #[1, 2]), .produce 0 .abort, .proceed, .takeNotice] =
    [.seek ⟨1⟩, .seek ⟨2⟩, .start 1 (some ⟨2⟩), .start 2 none] := rfl

end Jukebox.Deck
