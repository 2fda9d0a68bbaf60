import NumberDuel.Page.Table
import NumberDuel.Proofs.Builder.Completion
import NumberDuel.Proofs.Game.Alternation
import NumberDuel.Proofs.Game.Progress

/-!
# The match on the page

A run of the play tab makes at most one move in the match that it shows. Whatever the moves are, the
rounds of the match are dealt and settled in turn, and the builder holds the hand of the round that
is open. So a move is never one that the match refuses.
-/

namespace NumberDuel.Page

variable {s : Session} {p p' : Play} {pressed : Option Button} {flow : Flow} {bet : Int} {e : Error}

/-! ## Moves -/

namespace Play

def Fresh (p : Play) : Prop :=
  ∃ (rules : Preset) (seed : Int), p =
    { preset := p.preset, game := Game.start rules.config seed p.preset, ai := rules.ai }

def tidy (p : Play) : Play := { p with game := p.game.takeNotes.2 }

def contest (p : Play) : Except Error RoundResult := do
  let theirs ← p.game.submission p.ai p.game.aiHand
  p.game.scored p.builder.expression theirs

/-- A submission is scored and settled. Where it comes to an error, all but the notes stays. -/
theorem submit_steps (p : Play) :
    ∃ kept,
      (∃ e, p.contest = .error e ∧
        p.submit = ({ p with game := { p.game with notes := kept } }, .error e)) ∨
      ∃ r, p.contest = .ok r ∧
        p.submit =
          ({ p with
              game := ({ p.game with notes := kept } : Game).settle r
              lastResult := some (r, p.game.aiHand.text)
              message := "" }, .ok ()) := by
  obtain ⟨kept, theirs_eq⟩ := p.game.play_eq p.ai p.game.aiHand
  simp only [submit, contest, theirs_eq]
  cases p.game.submission p.ai p.game.aiHand with
  | error e => exact ⟨kept, .inl ⟨e, rfl, rfl⟩⟩
  | ok theirs =>
    obtain ⟨last, scores⟩ :=
      ({ p.game with notes := kept } : Game).score_eq p.builder.expression theirs
    change _ = ({ p.game with notes := last }, p.game.scored p.builder.expression theirs) at scores
    simp only [scores]
    cases scored : p.game.scored p.builder.expression theirs with
    | error e => exact ⟨last, .inl ⟨e, scored, rfl⟩⟩
    | ok r => exact ⟨last, .inr ⟨r, scored, rfl⟩⟩

end Play

def Flow.behind : Except Error Unit → Flow
  | .ok () => .again
  | .error e => .stop e

/-- What one run of the play tab does to the match it shows, and how the page goes on. -/
inductive Turn (p : Play) : Option Button → Play → Flow → Prop
  | rest {pressed : Option Button} : Turn p pressed p .next
  | noSlider {pressed : Option Button} {e : Error}
      (bad : sliderError? (betBounds p.game) = some e) : Turn p pressed p (.stop e)
  | renew {p' : Play} (fresh : p'.Fresh) : Turn p (some .newMatch) p' .again
  | deal (going : p.game.isOver = false) (closed : p.game.dealt = false) (bet : Int) :
    Turn p (some .deal) (p.deal bet).1 (.behind (p.deal bet).2)
  | pick (opened : p.game.dealt = true) (round : Int) (place : Nat) :
    Turn p (some (.card round place)) (p.pick place) .again
  | reset (opened : p.game.dealt = true) : Turn p (some .reset) p.reset .again
  | submit (opened : p.game.dealt = true) :
    Turn p (some .submit) p.submit.1 (.behind p.submit.2)

/-! ## What a run of the tab does -/

/-- A part leads the match of a session through a turn, and changes no inputs. -/
structure Leads (inputs : Inputs) (p : Play) (pressed : Option Button) (part : Part) (p' : Play) :
    Prop where
  turn : Turn p pressed p' part.flow
  play : part.session.play = some p'
  preset : p'.preset = inputs.preset
  inputs : part.session.inputs = inputs

theorem fresh_begin (s : Session) : s.begin.2.Fresh := ⟨s.preset, s.nextSeed, rfl⟩

theorem Play.preset_deal (p : Play) (bet : Int) : (p.deal bet).1.preset = p.preset := by
  unfold Play.deal
  split <;> rfl

theorem Play.preset_submit (p : Play) : p.submit.1.preset = p.preset := by
  obtain ⟨kept, ⟨e, -, eq⟩ | ⟨r, -, eq⟩⟩ := p.submit_steps <;> rw [eq]

theorem exists_card_of_pressedPlace? {place : Nat} (found : pressedPlace? p pressed = some place) :
    ∃ round, pressed = some (.card round place) := by
  unfold pressedPlace? at found
  split at found
  · next round place' =>
    split at found
    · obtain rfl := Option.some.inj found
      exact ⟨round, rfl⟩
    · cases found
  · cases found

theorem leads_overPart (here : s.play = some p) (own : p.preset = s.inputs.preset)
    (pressed : Option Button) :
    ∃ p', Leads s.inputs p pressed (overPart s p.game pressed) p' := by
  unfold overPart
  dsimp only
  split
  · next same =>
    subst same
    exact ⟨s.begin.2, .renew (fresh_begin s), rfl, rfl, rfl⟩
  · exact ⟨p, .rest, here, own, rfl⟩

theorem leads_bettingPart (here : s.play = some p) (own : p.preset = s.inputs.preset)
    (going : p.game.isOver = false) (closed : p.game.dealt = false) (pressed : Option Button) :
    ∃ p', Leads s.inputs p pressed (bettingPart s p pressed) p' := by
  unfold bettingPart
  dsimp only
  split
  · next bad => exact ⟨p, .noSlider bad, here, own, rfl⟩
  split
  · next same =>
    subst same
    have turn := Turn.deal going closed (s.inputs.betWithin (betBounds p.game))
    have preset := p.preset_deal (s.inputs.betWithin (betBounds p.game))
    split
    · next p' dealt =>
      rw [dealt] at turn preset
      exact ⟨p', turn, rfl, preset.trans own, rfl⟩
    · next p' e failed =>
      rw [failed] at turn preset
      exact ⟨p', turn, rfl, preset.trans own, rfl⟩
  · exact ⟨p, .rest, here, own, rfl⟩

theorem leads_roundPart (here : s.play = some p) (own : p.preset = s.inputs.preset)
    (opened : p.game.dealt = true) (pressed : Option Button) :
    ∃ p', Leads s.inputs p pressed (roundPart s p pressed) p' := by
  unfold roundPart
  dsimp only
  split
  · next place found =>
    obtain ⟨round, rfl⟩ := exists_card_of_pressedPlace? found
    exact ⟨p.pick place, .pick opened round place, rfl, own, rfl⟩
  split
  · exact ⟨p.reset, .reset opened, rfl, own, rfl⟩
  · have turn := Turn.submit opened
    have preset := p.preset_submit
    split
    · next p' submitted =>
      rw [submitted] at turn preset
      exact ⟨p', turn, rfl, preset.trans own, rfl⟩
    · next p' e failed =>
      rw [failed] at turn preset
      exact ⟨p', turn, rfl, preset.trans own, rfl⟩
  · exact ⟨p, .rest, here, own, rfl⟩

/-- The match of a session is shown if it is one of the selected preset; else a new one begins. -/
theorem current_cases (s : Session) :
    (∃ p, s.play = some p ∧ p.preset = s.inputs.preset ∧ s.current = (s, p)) ∨
      (∀ p, s.play = some p → p.preset ≠ s.inputs.preset) ∧ s.current = s.begin := by
  cases here : s.play with
  | none => exact .inr ⟨by simp, by simp only [Session.current, here]⟩
  | some p =>
    by_cases own : p.preset = s.inputs.preset
    · exact .inl ⟨p, rfl, own, by simp only [Session.current, here, own, if_true]⟩
    · refine .inr ⟨?_, by simp only [Session.current, here, own, if_false]⟩
      rintro _ ⟨⟩
      exact own

theorem current_spec (s : Session) : s.current.1.play = some s.current.2 ∧
    s.current.2.preset = s.inputs.preset ∧ s.current.1.inputs = s.inputs := by
  rcases current_cases s with ⟨p, here, own, current⟩ | ⟨-, current⟩ <;> rw [current]
  · exact ⟨here, own, rfl⟩
  · exact ⟨rfl, rfl, rfl⟩

theorem play_gather {s : Session} (here : s.play = some p) :
    s.gather.play = some p.tidy ∧ s.gather.inputs = s.inputs := by
  unfold Session.gather
  rw [here]
  exact ⟨rfl, rfl⟩

/-- A run of the play tab leads the match that it shows through one turn, and takes its notes. -/
theorem playTab_turn (s : Session) (pressed : Option Button) :
    ∃ p', Turn s.current.2 pressed p' (playTab s pressed).flow ∧ p'.preset = s.inputs.preset ∧
      (playTab s pressed).session.play = some p'.tidy ∧
      (playTab s pressed).session.inputs = s.inputs := by
  obtain ⟨here, own, inputs⟩ := current_spec s
  rw [playTab]
  generalize s.current = current at here own inputs
  obtain ⟨s', p⟩ := current
  dsimp only at here own inputs ⊢
  rw [← inputs] at own
  -- the tab is in one of three states, and each has its own buttons
  obtain ⟨p', leads⟩ : ∃ p', Leads s'.inputs p pressed
      (if p.game.isOver then overPart s' p.game pressed
        else if !p.game.dealt then bettingPart s' p pressed
        else roundPart s' p pressed) p' := by
    cases ended : p.game.isOver with
    | true => exact leads_overPart here own pressed
    | false =>
      cases opened : p.game.dealt with
      | false => exact leads_bettingPart here own ended opened pressed
      | true => exact leads_roundPart here own opened pressed
  obtain ⟨gathered, kept⟩ := play_gather leads.play
  exact ⟨p', leads.turn, leads.preset.trans (congrArg _ inputs), gathered,
    kept.trans (leads.inputs.trans inputs)⟩

/-- Where the table can be dealt, pressing the button deals a round and the page starts over. -/
theorem playTab_deal (here : s.play = some p) (own : p.preset = s.inputs.preset)
    (going : p.game.isOver = false) (closed : p.game.dealt = false)
    (slider : sliderError? (betBounds p.game) = none)
    (deals : p.deal (s.inputs.betWithin (betBounds p.game)) = (p', .ok ())) :
    (playTab s (some .deal)).flow = .again ∧
      (playTab s (some .deal)).session.play = some p'.tidy ∧
      (playTab s (some .deal)).session.inputs = s.inputs := by
  have current : s.current = (s, p) := by
    simp only [Session.current, here, own, if_true]
  have part : ∃ elements, bettingPart s p (some .deal) =
      ⟨{ s with play := some p' }, elements, .again⟩ := by
    simp only [bettingPart, slider, deals, if_true]
    exact ⟨_, rfl⟩
  obtain ⟨elements, part⟩ := part
  simp only [playTab, current, going, closed, part, Bool.not_false, Bool.false_eq_true, if_false,
    if_true, true_and]
  exact play_gather rfl

/-! ## What every turn keeps -/

namespace Play

/-- Rounds were dealt and settled in turn so far, and while one is open the builder is on its hand,
which holds no card twice. -/
structure Sound (p : Play) : Prop where
  orderly : Game.Table.Orderly ⟨p.game, []⟩
  target : p.game.dealt = true → ∃ target, p.game.target = some target
  distinct : p.game.dealt = true → p.game.playerHand.Distinct
  built : p.game.dealt = true → ∃ log, Builder.Built p.game.playerHand log p.builder

theorem Fresh.closed (h : p.Fresh) : p.game.dealt = false ∧ p.game.results = [] := by
  obtain ⟨rules, seed, eq⟩ := h
  rw [eq]
  exact ⟨rfl, rfl⟩

theorem Fresh.sound (h : p.Fresh) : p.Sound := by
  have closed : p.game.dealt ≠ true := by
    simp [h.closed.1]
  refine ⟨?_, fun opened => absurd opened closed, fun opened => absurd opened closed,
    fun opened => absurd opened closed⟩
  obtain ⟨rules, seed, eq⟩ := h
  rw [eq]
  exact Game.Table.orderly_start rules.config seed p.preset

theorem Sound.withNotes (h : p.Sound) (notes : Array Note) :
    Sound { p with game := { p.game with notes := notes } } :=
  ⟨⟨h.orderly.alternates, h.orderly.opened⟩, h.target, h.distinct, h.built⟩

theorem Sound.tidy (h : p.Sound) : p.tidy.Sound := h.withNotes #[]

theorem Sound.deal (h : p.Sound) (closed : p.game.dealt = false) (bet : Int) :
    (p.deal bet).1.Sound := by
  have orderly := h.orderly.call (c := .deal none (some bet)) fun _ => closed
  change Game.Table.Orderly ⟨(p.game.deal none (some bet)).1, []⟩ at orderly
  have recorded := p.game.recorded_deal none (some bet)
  rw [Play.deal]
  rcases dealt : p.game.deal none (some bet) with ⟨g, e | ⟨⟩⟩
  · -- a deal that fails may have emptied the hands, but it opens no round
    rw [dealt] at orderly recorded
    have shut : g.dealt ≠ true := by
      cases recorded with
      | failed same => simp [same, closed]
    exact ⟨orderly, fun opened => absurd opened shut, fun opened => absurd opened shut,
      fun opened => absurd opened shut⟩
  · rw [dealt] at orderly
    obtain ⟨-, chooser, kept, kept', aim, -, rfl⟩ := Game.deal_ok dealt
    exact ⟨orderly, fun _ => ⟨aim, rfl⟩, fun _ => Game.distinct_dealHand _ _,
      fun _ => ⟨[], Builder.built_setHand _ _⟩⟩

theorem Sound.pick (h : p.Sound) (opened : p.game.dealt = true) (place : Nat) :
    (p.pick place).Sound := by
  obtain ⟨log, built⟩ := h.built opened
  exact ⟨h.orderly, h.target, h.distinct, fun _ => built.pick (h.distinct opened) _⟩

theorem Sound.reset (h : p.Sound) (opened : p.game.dealt = true) : p.reset.Sound := by
  obtain ⟨log, built⟩ := h.built opened
  exact ⟨h.orderly, h.target, h.distinct, fun _ => ⟨[], built.reset⟩⟩

theorem Sound.submit (h : p.Sound) (opened : p.game.dealt = true) : p.submit.1.Sound := by
  obtain ⟨kept, ⟨e, -, eq⟩ | ⟨r, -, eq⟩⟩ := p.submit_steps <;> rw [eq]
  · exact h.withNotes kept
  · have shut : (({ p.game with notes := kept } : Game).settle r).dealt ≠ true := by
      simp [Game.Table.dealt_settle]
    have scored : Game.Table.Orderly ⟨{ p.game with notes := kept }, [r]⟩ :=
      ⟨h.orderly.alternates, h.orderly.opened⟩
    have settled := scored.call (c := .settle 0) fun _ => opened
    exact ⟨⟨settled.alternates, settled.opened⟩, fun again => absurd again shut,
      fun again => absurd again shut, fun again => absurd again shut⟩

end Play

theorem Turn.sound (turn : Turn p pressed p' flow) (h : p.Sound) : p'.Sound := by
  cases turn with
  | rest | noSlider => exact h
  | renew fresh => exact fresh.sound
  | deal going closed bet => exact h.deal closed bet
  | pick opened round place => exact h.pick opened place
  | reset opened => exact h.reset opened
  | submit opened => exact h.submit opened

theorem sound_current (h : ∀ p, s.play = some p → p.Sound) : s.current.2.Sound := by
  rcases current_cases s with ⟨p, here, -, current⟩ | ⟨-, current⟩ <;> rw [current]
  · exact h p here
  · exact (fresh_begin s).sound

/-! ## What stops a turn -/

theorem isRefusal_of_sliderError? {b : Bounds} (bad : sliderError? b = some e) :
    e.isRefusal = false := by
  have ends (which : SliderEnd) (bound : Int) (bad : sliderEndError? which bound = some e) :
      e.isRefusal = false := by
    unfold sliderEndError? at bad
    split at bad
    · cases bad
      rfl
    split at bad
    · cases bad
      rfl
    · cases bad
  unfold sliderError? at bad
  split at bad
  · cases bad
    rfl
  · cases least : sliderEndError? .least b.least with
    | some e' =>
      rw [least] at bad
      obtain rfl := Option.some.inj bad
      exact ends _ _ least
    | none =>
      rw [least] at bad
      exact ends _ _ bad

theorem Play.isRefusal_of_contest (h : p.Sound) (opened : p.game.dealt = true)
    (failed : p.contest = .error e) : e.isRefusal = false := by
  obtain ⟨target, aimed⟩ := h.target opened
  rw [Play.contest, Game.submission_of_target aimed] at failed
  rcases bind_error failed with played | ⟨theirs, -, scored⟩
  · obtain ⟨rfl, -⟩ := Strategy.play_error played
    rfl
  · obtain ⟨rfl, -⟩ := Game.scored_error opened aimed scored
    rfl

/-- The match refuses no turn. -/
theorem Turn.isRefusal (turn : Turn p pressed p' flow) (h : p.Sound) (stopped : flow = .stop e) :
    e.isRefusal = false := by
  cases turn with
  | rest | renew | pick | reset => cases stopped
  | noSlider bad =>
    cases stopped
    exact isRefusal_of_sliderError? bad
  | deal going closed bet =>
    rw [Play.deal] at stopped
    rcases dealt : p.game.deal none (some bet) with ⟨g, e' | ⟨⟩⟩ <;> rw [dealt] at stopped <;>
      cases stopped
    exact (Game.deal_error going dealt).isRefusal
  | submit opened =>
    obtain ⟨_, ⟨e', failed, eq⟩ | ⟨r, -, eq⟩⟩ := p.submit_steps <;> rw [eq] at stopped <;>
      cases stopped
    exact Play.isRefusal_of_contest h opened failed

/-! ## What a turn scores -/

/-- Every number card of a hand is placed in an expression, and none of them twice. -/
def PlacesAll (hand : Hand) (e : Expression) : Prop :=
  ∃ cards : List (Copy CardValue), cards.Perm hand.numbers ∧
    e.values = cards.map fun card => card.face.toFloat

theorem placesAll_of_finished {hand : Hand} {log : List Card} {b : Builder}
    (h : Builder.Built hand log b) (distinct : hand.Distinct) (finished : b.isFinished = true) :
    PlacesAll hand b.expression := by
  obtain ⟨-, -, placed⟩ := h.complete_of_finished finished
  have values := h.values_perm distinct placed
  rw [Hand.numberValues, List.map_map] at values
  obtain ⟨cards, eq, perm⟩ := exists_of_perm_map values
  exact ⟨cards, perm, eq.symm⟩

/-- The results that a turn may leave behind: those there were, or one more, scored from an
expression that places every number card of the open round. -/
inductive Scores (p : Play) : List RoundResult → Prop
  | kept : Scores p p.game.results
  | scored {theirs : Expression} {r : RoundResult} (opened : p.game.dealt = true)
    (on_hand : p.builder.hand = some p.game.playerHand)
    (placed : PlacesAll p.game.playerHand p.builder.expression)
    (scored : p.game.scored p.builder.expression theirs = .ok r) :
    Scores p (p.game.results ++ [r])

theorem Scores.eq_nil {results : List RoundResult} (h : Scores p results) (fresh : p.Fresh) :
    results = [] := by
  cases h with
  | kept => exact fresh.closed.2
  | scored opened => cases fresh.closed.1.symm.trans opened

theorem results_deal (g : Game) (target bet : Option Int) :
    (g.deal target bet).1.results = g.results := by
  rcases g.deal_cases target bet with ⟨-, eq⟩ | ⟨-, _, _, _, _, _, _, _, _, _, _, eq, -⟩ <;> rw [eq]

/-- A turn begins a match anew or adds to its results. -/
theorem Turn.scores (turn : Turn p pressed p' flow) (h : p.Sound)
    (finished : pressed = some .submit → p.game.dealt = true → p.builder.isFinished = true) :
    p'.game.results = [] ∨ Scores p p'.game.results := by
  cases turn with
  | rest | noSlider | pick | reset => exact .inr .kept
  | renew fresh => exact .inl fresh.closed.2
  | deal going closed bet =>
    have same : (p.deal bet).1.game.results = p.game.results := by
      rw [← results_deal p.game none (some bet), Play.deal]
      split <;> next dealt => rw [dealt]
    rw [same]
    exact .inr .kept
  | submit opened =>
    obtain ⟨kept, ⟨e, -, eq⟩ | ⟨r, contested, eq⟩⟩ := p.submit_steps <;> rw [eq]
    · exact .inr .kept
    · obtain ⟨theirs, -, scored⟩ := bind_ok contested
      obtain ⟨log, built⟩ := h.built opened
      obtain ⟨history, kept', settled⟩ := Game.settle_eq { p.game with notes := kept } r
      rw [settled]
      exact .inr (.scored opened built.on_hand
        (placesAll_of_finished built (h.distinct opened) (finished rfl opened)) scored)

/-- A match that has just begun has no open round to score. -/
theorem Turn.results_of_fresh (turn : Turn p pressed p' flow) (h : p.Sound) (fresh : p.Fresh) :
    p'.game.results = [] := by
  have closed (opened : p.game.dealt = true) : p.builder.isFinished = true := by
    cases fresh.closed.1.symm.trans opened
  rcases turn.scores h fun _ => closed with none | scores
  · exact none
  · exact scores.eq_nil fresh

/-! ## Turns that leave the page as it is -/

/-- Without a pressed button nothing happens to the match. -/
theorem Turn.of_none (turn : Turn p none p' flow) : p' = p ∧ flow ≠ .again := by
  cases turn <;> exact ⟨rfl, nofun⟩

/-- Where the page does not start over, the round and the expression are those that it shows. -/
theorem Turn.steady (turn : Turn p pressed p' flow) (shown : flow ≠ .again) :
    p'.builder = p.builder ∧ p'.game.dealt = p.game.dealt := by
  cases turn with
  | rest | noSlider => exact ⟨rfl, rfl⟩
  | renew | pick | reset => exact absurd rfl shown
  | deal going closed bet =>
    have recorded := p.game.recorded_deal none (some bet)
    rw [Play.deal] at shown ⊢
    rcases dealt : p.game.deal none (some bet) with ⟨g, e | ⟨⟩⟩
    · rw [dealt] at recorded
      cases recorded with
      | failed same => exact ⟨rfl, same⟩
    · rw [dealt] at shown
      exact absurd rfl shown
  | submit opened =>
    obtain ⟨kept, ⟨e, -, eq⟩ | ⟨r, -, eq⟩⟩ := p.submit_steps <;> rw [eq] at shown ⊢
    · exact ⟨rfl, rfl⟩
    · exact absurd rfl shown

end NumberDuel.Page
