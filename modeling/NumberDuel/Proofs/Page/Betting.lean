import NumberDuel.Page.Table
import NumberDuel.Proofs.Game.Credits

/-!
# What the page offers and what the match takes

The page computes the bounds of the bet, and the match limits the bet, each in its own way. They
agree as long as the player can pay the least bet. With less the page still offers the least bet,
and the match takes what there is. By the built-in rules this happens in one place: with one credit
left where the least bet is two.
-/

namespace NumberDuel.Page

open Game

variable {g : Game}

/-! ## Bounds and limits -/

theorem Bounds.contain_iff {b : Bounds} {n : Int} :
    b.contain n = true ↔ b.least ≤ n ∧ n ≤ b.most := by
  simp [contain]

/-- A bet that is offered is the bet that the player then has in the round, and can be paid. -/
structure Honoured (g : Game) (bet : Int) : Prop where
  allowed : g.allowedBet bet = bet
  affordable : bet ≤ g.playerCredits
  taken : ∀ target g', g.deal target (some bet) = (g', .ok ()) → g'.bet = bet

theorem honoured_of_allowed {bet : Int} (allowed : g.allowedBet bet = bet) : Honoured g bet := by
  refine ⟨allowed, ?_, fun target g' dealt => ?_⟩
  · rw [← allowed]
    exact min_le_right _ _
  · exact (bet_of_deal dealt).2.trans allowed

/-- Every bet within the bounds is honoured if and only if the player can pay the least one. -/
theorem forall_honoured_iff (g : Game) :
    (∀ bet, (betBounds g).contain bet = true → Honoured g bet) ↔
      g.config.minBet ≤ g.playerCredits := by
  constructor
  · intro all
    have least : (betBounds g).contain g.config.minBet = true :=
      Bounds.contain_iff.mpr ⟨le_rfl, le_max_left _ _⟩
    exact (all g.config.minBet least).affordable
  · intro pays bet within
    obtain ⟨least, most⟩ := Bounds.contain_iff.mp within
    simp only [betBounds] at least most
    refine honoured_of_allowed ?_
    unfold allowedBet
    omega

/-- A player who holds less is offered the least bet alone, and stakes all there is instead. -/
theorem bounds_of_short (short : g.playerCredits < g.config.minBet) :
    betBounds g = ⟨g.config.minBet, g.config.minBet⟩ ∧
      g.allowedBet g.config.minBet = g.playerCredits := by
  simp only [betBounds, allowedBet, Bounds.mk.injEq, true_and]
  omega

/-! ## What is shown -/

def Element.isBet : Element → Bool
  | .integer .bet _ _ => true
  | _ => false

theorem any_isBet_overElement (g : Game) : [overElement g].any Element.isBet = false := by
  unfold overElement
  split <;> rfl

theorem any_isBet_overPart (s : Session) (g : Game) (pressed : Option Button) :
    (overPart s g pressed).elements.any Element.isBet = false := by
  have element := any_isBet_overElement g
  unfold overPart
  dsimp only
  split <;> simpa [Element.isBet] using element

theorem any_isBet_roundPart (s : Session) (p : Play) (pressed : Option Button) :
    (roundPart s p pressed).elements.any Element.isBet = false := by
  have message : (if p.message.isEmpty then [] else [Element.text .caption p.message]).any
      Element.isBet = false := by
    split <;> rfl
  have buttons : (cardButtons p).any Element.isBet = false := by
    simp [cardButtons, Element.isBet]
  have cards : (roundHead p ++ cardButtons p).any Element.isBet = false := by
    rw [List.any_append, buttons, roundHead, List.any_append, message]
    rfl
  unfold roundPart
  dsimp only
  split
  · exact cards
  split
  · rw [List.any_append, cards]
    rfl
  · split <;> (rw [List.any_append, List.any_append, cards]; rfl)
  · rw [List.any_append, List.any_append, cards]
    rfl

theorem any_isBet_lastElements (p : Play) (flow : Flow) :
    (if flow = .next then lastElements p else []).any Element.isBet = false := by
  unfold lastElements
  split
  · split <;> rfl
  · rfl

theorem mem_bettingPart {s : Session} {p : Play} {pressed : Option Button} {value : Int}
    {bounds : Bounds}
    (shown : .integer .bet value (some bounds) ∈ (bettingPart s p pressed).elements) :
    bounds = betBounds p.game ∧ sliderError? bounds = none := by
  unfold bettingPart at shown
  dsimp only at shown
  split at shown
  · cases shown
  next room =>
  obtain ⟨-, rfl⟩ : value = s.inputs.betWithin (betBounds p.game) ∧ bounds = betBounds p.game := by
    split at shown
    · split at shown <;> simpa using shown
    · simpa using shown
  exact ⟨rfl, room⟩

/-- The slider is shown between two rounds only, with the bounds of the bet, if it has room. -/
theorem mem_playTab {s : Session} {pressed : Option Button} {value : Int} {bounds : Bounds}
    (shown : .integer .bet value (some bounds) ∈ (playTab s pressed).elements) :
    s.current.2.game.isOver = false ∧ s.current.2.game.dealt = false ∧
      bounds = betBounds s.current.2.game ∧ sliderError? bounds = none := by
  rw [playTab] at shown
  generalize s.current = current at shown ⊢
  obtain ⟨s', p⟩ := current
  have hidden {elements : List Element} (none : elements.any Element.isBet = false) :
      .integer .bet value (some bounds) ∉ elements := by
    intro mem
    exact absurd (List.any_eq_false.mp none _ mem) (by simp [Element.isBet])
  rcases List.mem_append.mp shown with front | last
  · rcases List.mem_append.mp front with metrics | part
    · exact absurd metrics (hidden rfl)
    · cases ended : p.game.isOver with
      | true =>
        simp only [ended] at part
        exact absurd part (hidden (any_isBet_overPart s' p.game pressed))
      | false =>
        cases opened : p.game.dealt with
        | true =>
          simp only [ended, opened] at part
          exact absurd part (hidden (any_isBet_roundPart s' p pressed))
        | false =>
          simp only [ended, opened] at part
          exact ⟨rfl, rfl, mem_bettingPart part⟩
  · exact absurd last (hidden (any_isBet_lastElements p _))

/-- A slider has room only if the player can pay more than the least bet. -/
theorem least_of_sliderError? (room : sliderError? (betBounds g) = none) :
    g.config.minBet ≤ g.playerCredits := by
  by_contra short
  rw [not_le] at short
  rw [(bounds_of_short short).1] at room
  simp [sliderError?] at room

/-! ## Flat stakes -/

/-- Where every bet is the same, credits come and go in whole stakes. -/
structure FlatStakes (stake : Int) (l : Ledger) : Prop where
  least : l.game.config.minBet = stake
  most : l.game.config.maxBet = stake
  credits : stake ∣ l.game.playerCredits
  opened : l.game.dealt = true → l.game.bet = stake
  due : ∀ r, l.due = some r → Balanced r ∧ r.bet = stake

variable {stake : Int} {l : Ledger}

theorem FlatStakes.le_credits (h : FlatStakes stake l) (going : l.game.isOver = false) :
    stake ≤ l.game.playerCredits := by
  have positive : 0 < l.game.playerCredits := by
    simp only [isOver, Bool.or_eq_false_iff, decide_eq_false_iff_not] at going
    omega
  exact Int.le_of_dvd positive h.credits

theorem FlatStakes.allowedBet (h : FlatStakes stake l) (going : l.game.isOver = false)
    (asked : Int) : l.game.allowedBet asked = stake := by
  have pays := h.le_credits going
  rw [Game.allowedBet, h.least, h.most]
  omega

theorem FlatStakes.move (h : FlatStakes stake l) (m : Game.Move) : FlatStakes stake (l.move m) := by
  cases m with
  | deal target bet =>
    rw [Ledger.move]
    rcases l.game.deal_cases target bet with ⟨-, eq⟩ |
      ⟨going, _, _, _, _, _, taken, dealt, _, _, _, eq, ⟨rfl, rfl⟩ | rfl⟩
    · rw [eq]
      exact h
    · rw [eq]
      exact ⟨h.least, h.most, h.credits, h.opened, h.due⟩
    · rw [eq]
      exact ⟨h.least, h.most, h.credits, fun _ => h.allowedBet going _, h.due⟩
  | score player ai =>
    obtain ⟨kept, eq⟩ := l.game.score_eq player ai
    rw [Ledger.move, eq]
    cases scored : l.game.scored player ai with
    | error e => exact ⟨h.least, h.most, h.credits, h.opened, h.due⟩
    | ok r =>
      obtain ⟨dealt, bet, balanced⟩ := scored_ok scored
      refine ⟨h.least, h.most, h.credits, h.opened, ?_⟩
      rintro _ ⟨⟩
      exact ⟨balanced, bet.trans (h.opened dealt)⟩
  | settle =>
    rw [Ledger.move]
    cases waits : l.due with
    | none => exact h
    | some r =>
      obtain ⟨balanced, bet⟩ := h.due r waits
      obtain ⟨history, kept, eq⟩ := l.game.settle_eq r
      have change : stake ∣ r.playerScoreChange := by
        rw [balanced.player, bet]
        cases r.winner <;> simp [RoundResult.gain]
      dsimp only
      rw [eq]
      exact ⟨h.least, h.most, dvd_add h.credits change, by simp, by simp⟩

theorem flatStakes_run {config : GameConfig} (flat : config.minBet = config.maxBet)
    (whole : config.minBet ∣ config.startingCredits) (seed : Int) (preset : String)
    (moves : List Game.Move) :
    FlatStakes config.minBet ((Ledger.start config seed preset).run moves) := by
  have begun : FlatStakes config.minBet (Ledger.start config seed preset) := by
    obtain ⟨chooser, random, eq⟩ := start_eq config seed preset
    rw [Ledger.start, eq]
    exact ⟨rfl, flat.symm, whole, by simp, by simp⟩
  induction moves using List.reverseRecOn with
  | nil => exact begun
  | append_singleton moves m ih =>
    rw [Ledger.run_append]
    exact ih.move m

/-! ## The built-in rules -/

theorem config_run {config : GameConfig} (credits : 0 < config.startingCredits)
    (least : 1 ≤ config.minBet) (seed : Int) (preset : String) (moves : List Game.Move) :
    ((Ledger.start config seed preset).run moves).game.config = config :=
  ((solvent_start credits least seed preset).run least moves).rules

/-- The least bet is one, or it is the only one and the credits are whole stakes; except by the
hard rules. -/
theorem stakes_of_mem_builtIn : ∀ entry ∈ Preset.builtIn,
    0 < entry.2.config.startingCredits ∧ 1 ≤ entry.2.config.minBet ∧
      (entry.1 = "hard" → entry.2.config.minBet = 2) ∧
      (entry.1 ≠ "hard" → entry.2.config.minBet = 1 ∨
        entry.2.config.minBet = entry.2.config.maxBet ∧
          entry.2.config.minBet ∣ entry.2.config.startingCredits) := by
  decide

/-- In every match by the rules of a built-in preset that is not over, the bets within the bounds
are honoured, except under the hard preset with one credit left: then the bounds leave the bet of
two, and the match takes one. The page shows no slider there, for its bounds have no room, and
wherever it shows one, in whatever session, every bet on it is honoured. -/
theorem bets_honoured {key : String} {p : Preset} (built_in : (key, p) ∈ Preset.builtIn)
    (seed : Int) (moves : List Game.Move) :
    let g := ((Ledger.start p.config seed key).run moves).game
    (g.isOver = false →
      ((∀ bet, (betBounds g).contain bet = true → Honoured g bet) ↔
        ¬ (key = "hard" ∧ g.playerCredits = 1)) ∧
      (key = "hard" → g.playerCredits = 1 →
        betBounds g = ⟨2, 2⟩ ∧ g.allowedBet 2 = 1 ∧ sliderError? (betBounds g) ≠ none)) ∧
    ∀ (s : Session) (pressed : Option Button) (value : Int) (bounds : Bounds),
      .integer .bet value (some bounds) ∈ (playTab s pressed).elements →
        bounds = betBounds s.current.2.game ∧
          ∀ bet, bounds.contain bet = true → Honoured s.current.2.game bet := by
  intro g
  refine ⟨fun going => ?_, fun s pressed value bounds shown => ?_⟩
  · obtain ⟨credits, least, hard, others⟩ := stakes_of_mem_builtIn (key, p) built_in
    have rules : g.config = p.config := config_run credits least seed key moves
    have positive : 0 < g.playerCredits := by
      simp only [isOver, Bool.or_eq_false_iff, decide_eq_false_iff_not] at going
      omega
    refine ⟨?_, fun name one => ?_⟩
    · rw [forall_honoured_iff, rules]
      by_cases name : key = "hard"
      · rw [hard name]
        simp only [name, true_and]
        omega
      · simp only [name, false_and, not_false_iff, iff_true]
        rcases others name with one | ⟨flat, whole⟩
        · rw [one]
          exact positive
        · exact (flatStakes_run flat whole seed key moves).le_credits going
    · have two : g.config.minBet = 2 := (congrArg GameConfig.minBet rules).trans (hard name)
      obtain ⟨bounds, allowed⟩ := bounds_of_short (g := g) (by omega)
      rw [two] at bounds allowed
      exact ⟨bounds, allowed.trans one, by simp [bounds, sliderError?]⟩
  · obtain ⟨-, -, rfl, room⟩ := mem_playTab shown
    exact ⟨rfl, (forall_honoured_iff _).mpr (least_of_sliderError? room)⟩

/-- A match by the hard rules before its first round. -/
theorem bets_honoured_hard :
    ("hard", Preset.hard) ∈ Preset.builtIn ∧
      let g := (Ledger.start Preset.hard.config 7 "hard").game
      g.isOver = false ∧ ∀ bet, (betBounds g).contain bet = true → Honoured g bet := by
  have built_in : ("hard", Preset.hard) ∈ Preset.builtIn := by decide
  have going : (Ledger.start Preset.hard.config 7 "hard").game.isOver = false :=
    isOver_start (by decide) (by decide) 7 "hard"
  have fifteen : (Ledger.start Preset.hard.config 7 "hard").game.playerCredits = 15 := rfl
  refine ⟨built_in, going, (((bets_honoured built_in 7 []).1 going).1).mpr ?_⟩
  rintro ⟨-, one⟩
  exact absurd (fifteen.symm.trans one) (by decide)

/-! ## A bet that is not honoured -/

/-- Ten credits lost and then four: of the fifteen one is left, and the bounds offer a bet of two. -/
theorem not_all_bets_honoured :
    ¬ ∀ (key : String) (p : Preset), (key, p) ∈ Preset.builtIn →
      ∀ (seed : Int) (moves : List Game.Move),
        let g := ((Ledger.start p.config seed key).run moves).game
        g.isOver = false → g.dealt = false →
          ∀ bet, (betBounds g).contain bet = true → g.allowedBet bet = bet := by
  intro honoured
  have fair : GameConfig.hard.Fair :=
    @Preset.fair_of_mem_builtIn "hard" Preset.hard (by decide)
  set start := Ledger.start .hard 7 "hard" with begun
  have fresh : start.game.isOver = false ∧ start.game.config = .hard ∧
      start.game.playerCredits = 15 ∧ start.game.aiCredits = 15 ∧ start.game.roundNumber = 0 := by
    obtain ⟨chooser, random, eq⟩ := start_eq .hard 7 "hard"
    rw [begun, Ledger.start, eq]
    exact ⟨rfl, rfl, rfl, rfl, rfl⟩
  obtain ⟨going, rules, player, ai, round⟩ := fresh
  obtain ⟨first, rules', deck', player', ai', round', -⟩ :=
    exists_lost_round fair rules (ofRules_start .hard 7 "hard") going 10
  have ten : start.game.allowedBet 10 = 10 := by
    rw [allowedBet, rules, player]
    rfl
  rw [player, ten] at player'
  rw [ai, ten] at ai'
  rw [round] at round'
  have going' : (start.run first).game.isOver = false := by
    rw [isOver, rules', player', ai', round']
    rfl
  obtain ⟨second, rules'', -, player'', ai'', round'', closed⟩ :=
    exists_lost_round fair rules' deck' going' 4
  have four : (start.run first).game.allowedBet 4 = 4 := by
    rw [allowedBet, rules', player']
    rfl
  rw [player', four, ← Ledger.run_append] at player''
  rw [ai', four, ← Ledger.run_append] at ai''
  rw [round', ← Ledger.run_append] at round''
  rw [← Ledger.run_append] at rules'' closed
  have going'' : (start.run (first ++ second)).game.isOver = false := by
    rw [isOver, rules'', player'', ai'', round'']
    rfl
  have offered : (betBounds (start.run (first ++ second)).game).contain 2 = true := by
    rw [Bounds.contain_iff, betBounds, rules'', player'']
    decide
  have kept := honoured "hard" .hard (by decide) 7 (first ++ second) going'' closed 2 offered
  change (start.run (first ++ second)).game.allowedBet 2 = 2 at kept
  rw [allowedBet, rules'', player''] at kept
  exact absurd kept (by decide)

end NumberDuel.Page
