import NumberDuel.Proofs.Game.Match
import NumberDuel.Proofs.Game.Mirror

/-!
# Who can run into debt

The bet of a round is limited by what the player holds, and not by what the other side holds. So
the player is never in debt, whatever limits the table has. The other side may be, once: by losing
a round for more than it has, which ends the match. It then owes less than the highest bet.
-/

namespace NumberDuel.Game

/-- A match and the result that waits to be settled. -/
structure Ledger where
  game : Game
  due : Option RoundResult := none

inductive Move where
  | deal (target bet : Option Int)
  | score (player ai : Expression)
  | settle

namespace Ledger

def start (config : GameConfig) (seed : Int) (preset : String) : Ledger where
  game := Game.start config seed preset

/-- The ledger after one move. A result is settled once, and scoring again replaces it. -/
def move (l : Ledger) : Move → Ledger
  | .deal target bet => { l with game := (l.game.deal target bet).1 }
  | .score player ai =>
    match l.game.score player ai with
    | (game, .ok result) => ⟨game, some result⟩
    | (game, .error _) => { l with game := game }
  | .settle =>
    match l.due with
    | some result => ⟨l.game.settle result, none⟩
    | none => l

def run (l : Ledger) (moves : List Move) : Ledger := moves.foldl move l

theorem run_append (l : Ledger) (moves more : List Move) :
    l.run (moves ++ more) = (l.run moves).run more := List.foldl_append

end Ledger

/-! ## Stakes -/

/-- A bet that the player can pay, within the limit of the table, while the other side has credits
to play for. -/
structure Stake (limit player ai bet : Int) : Prop where
  positive : 0 < bet
  within : bet ≤ limit
  affordable : bet ≤ player
  ai : 0 < ai

/-- The highest bet of a table; where its limits cross this is the least one. -/
def topBet (config : GameConfig) : Int := max config.minBet config.maxBet

theorem stake_allowedBet {g : Game} (least : 1 ≤ g.config.minBet) (going : g.isOver = false)
    (asked : Int) : Stake (topBet g.config) g.playerCredits g.aiCredits (g.allowedBet asked) := by
  simp only [isOver, Bool.or_eq_false_iff, decide_eq_false_iff_not] at going
  obtain ⟨⟨player, ai⟩, -⟩ := going
  unfold allowedBet topBet
  exact ⟨by omega, by omega, by omega, by omega⟩

/-- Only a player who holds less than the least bet stakes less, and then stakes everything. -/
theorem le_allowedBet (g : Game) (asked : Int) :
    g.config.minBet ≤ g.allowedBet asked ∨
      g.playerCredits < g.config.minBet ∧ g.allowedBet asked = g.playerCredits := by
  unfold allowedBet
  omega

theorem bet_of_deal {g g' : Game} {asked bet : Option Int}
    (dealt : g.deal asked bet = (g', .ok ())) :
    g.isOver = false ∧ g'.bet = g.allowedBet (bet.getD g.config.minBet) := by
  rcases g.deal_steps asked bet with
    ⟨-, eq⟩ | ⟨going, ⟨-, eq⟩ | ⟨chooser, kept, aim, -, eq⟩⟩
  · cases eq.symm.trans dealt
  · cases eq.symm.trans dealt
  · obtain ⟨_, _, _, _, _, _, _, hands⟩ := (g.tableSet chooser aim bet kept).dealHands_eq aim
    cases (eq.trans hands).symm.trans dealt
    exact ⟨going, rfl⟩

/-- What a settlement moves from one side to the other. -/
structure Balanced (r : RoundResult) : Prop where
  player : r.playerScoreChange = RoundResult.gain r.winner r.bet
  ai : r.aiScoreChange = -RoundResult.gain r.winner r.bet

/-- Only an open round is scored, and for the bet that was taken. -/
theorem scored_ok {g : Game} {player ai : Expression} {r : RoundResult}
    (scored : g.scored player ai = .ok r) : g.dealt = true ∧ r.bet = g.bet ∧ Balanced r := by
  unfold Game.scored at scored
  split at scored
  · next target dealt _ =>
    obtain ⟨j, -, scored⟩ := bind_ok scored
    obtain ⟨k, -, scored⟩ := bind_ok scored
    cases scored
    exact ⟨dealt, rfl, rfl, rfl⟩
  · cases scored

/-! ## The invariant -/

/-- What holds of credits and bets throughout a match. -/
structure Solvent (config : GameConfig) (l : Ledger) : Prop where
  rules : l.game.config = config
  player : 0 ≤ l.game.playerCredits
  ai : -topBet config < l.game.aiCredits
  opened : l.game.dealt = true →
    Stake (topBet config) l.game.playerCredits l.game.aiCredits l.game.bet
  due : ∀ r, l.due = some r → Balanced r ∧
    Stake (topBet config) l.game.playerCredits l.game.aiCredits r.bet
  debt : l.game.aiCredits < 0 → ∃ r, l.game.results.getLast? = some r ∧ r.winner = .player ∧
    r.aiScoreChange = -r.bet ∧ -r.bet < l.game.aiCredits

variable {config : GameConfig} {l : Ledger}

theorem solvent_start (credits : 0 < config.startingCredits) (least : 1 ≤ config.minBet)
    (seed : Int) (preset : String) : Solvent config (.start config seed preset) := by
  obtain ⟨chooser, random, eq⟩ := start_eq config seed preset
  rw [Ledger.start, eq]
  refine ⟨rfl, credits.le, ?_, nofun, nofun, fun debt => ?_⟩
  · dsimp only
    unfold topBet
    omega
  · exact absurd debt (not_lt.mpr credits.le)

theorem Solvent.deal (h : Solvent config l) (least : 1 ≤ config.minBet)
    (target bet : Option Int) : Solvent config (l.move (.deal target bet)) := by
  obtain ⟨rules, player, ai, opened, due, debt⟩ := h
  subst rules
  rw [Ledger.move]
  rcases l.game.deal_cases target bet with ⟨-, eq⟩ |
    ⟨going, _, _, _, _, _, taken, dealt, _, _, _, eq, old | rfl⟩
  · rw [eq]
    exact ⟨rfl, player, ai, opened, due, debt⟩
  · obtain ⟨rfl, rfl⟩ := old
    rw [eq]
    exact ⟨rfl, player, ai, opened, due, debt⟩
  · rw [eq]
    exact ⟨rfl, player, ai, fun _ => stake_allowedBet least going _, due, debt⟩

theorem Solvent.score (h : Solvent config l) (player ai : Expression) :
    Solvent config (l.move (.score player ai)) := by
  obtain ⟨kept, eq⟩ := l.game.score_eq player ai
  rw [Ledger.move, eq]
  cases scored : l.game.scored player ai with
  | error e => exact ⟨h.rules, h.player, h.ai, h.opened, h.due, h.debt⟩
  | ok r =>
    obtain ⟨dealt, bet, balanced⟩ := scored_ok scored
    refine ⟨h.rules, h.player, h.ai, h.opened, ?_, h.debt⟩
    rintro _ ⟨⟩
    exact ⟨balanced, bet ▸ h.opened dealt⟩

/-- The player has what a lost bet costs; the other side had credits, but maybe fewer. -/
theorem Solvent.settle (h : Solvent config l) : Solvent config (l.move .settle) := by
  rw [Ledger.move]
  cases waits : l.due with
  | none => exact h
  | some r =>
    obtain ⟨⟨player_change, ai_change⟩, positive, within, affordable, ai⟩ := h.due r waits
    obtain ⟨history, kept, eq⟩ := l.game.settle_eq r
    have player := h.player
    dsimp only
    rw [eq, player_change, ai_change]
    refine ⟨h.rules, ?_, ?_, nofun, nofun, fun debt => ⟨r, by simp, ?_⟩⟩
    · cases r.winner <;> simp only [RoundResult.gain] <;> omega
    · cases r.winner <;> simp only [RoundResult.gain] <;> omega
    · -- every other outcome leaves the other side what it had
      have won : r.winner = .player := by
        cases winner : r.winner <;> simp only [winner, RoundResult.gain] at debt ⊢ <;> omega
      simp only [won, RoundResult.gain] at ai_change debt ⊢
      exact ⟨trivial, ai_change, by omega⟩

theorem Solvent.run (h : Solvent config l) (least : 1 ≤ config.minBet) (moves : List Move) :
    Solvent config (l.run moves) := by
  induction moves generalizing l with
  | nil => exact h
  | cons m moves ih =>
    cases m with
    | deal target bet => exact ih (h.deal least target bet)
    | score player ai => exact ih (h.score player ai)
    | settle => exact ih h.settle

/-- The player is never in debt. The other side is only after a round that it has lost for more
than it had; then the match is over, and it owes less than the highest bet. -/
theorem credits_of_run (credits : 0 < config.startingCredits) (least : 1 ≤ config.minBet)
    (range : config.minBet ≤ config.maxBet) (seed : Int) (preset : String) (moves : List Move) :
    let g := ((Ledger.start config seed preset).run moves).game
    0 ≤ g.playerCredits ∧ -config.maxBet < g.aiCredits ∧
      (g.aiCredits < 0 → g.isOver = true ∧ ∃ r, g.results.getLast? = some r ∧
        r.winner = .player ∧ r.aiScoreChange = -r.bet ∧ -r.bet < g.aiCredits) := by
  intro g
  have solvent := (solvent_start credits least seed preset).run least moves
  have top : topBet config = config.maxBet := max_eq_right range
  refine ⟨solvent.player, top ▸ solvent.ai, fun debt => ⟨?_, solvent.debt debt⟩⟩
  simp [isOver, debt.le]

/-- By the rules of the hard preset, for bets beyond the limit and moves out of turn. -/
theorem credits_of_run_hard :
    0 < GameConfig.hard.startingCredits ∧ 1 ≤ GameConfig.hard.minBet ∧
      GameConfig.hard.minBet ≤ GameConfig.hard.maxBet ∧
      let g := ((Ledger.start .hard 7 "hard").run
        [.settle, .deal none (some 50), .deal (some 1) none, .score {} {}, .settle]).game
      0 ≤ g.playerCredits ∧ -GameConfig.hard.maxBet < g.aiCredits ∧
        (g.aiCredits < 0 → g.isOver = true ∧ ∃ r, g.results.getLast? = some r ∧
          r.winner = .player ∧ r.aiScoreChange = -r.bet ∧ -r.bet < g.aiCredits) :=
  ⟨by decide, by decide, by decide,
    credits_of_run (by decide) (by decide) (by decide) 7 "hard" _⟩

/-- Whatever bets are asked for, and wherever the limits of the table lie: every bet that is taken
is one that the player can pay and the table allows. It is below the least one only where the player
stakes all there is. So the player is never in debt, and one who is out of credits has none left. -/
theorem stakes_of_run (credits : 0 < config.startingCredits) (least : 1 ≤ config.minBet)
    (seed : Int) (preset : String) (moves : List Move) :
    let g := ((Ledger.start config seed preset).run moves).game
    (∀ asked bet g', g.deal asked bet = (g', .ok ()) →
      1 ≤ g'.bet ∧ g'.bet ≤ g.playerCredits ∧ g'.bet ≤ max config.minBet config.maxBet ∧
        (config.minBet ≤ g'.bet ∨
          g.playerCredits < config.minBet ∧ g'.bet = g.playerCredits)) ∧
      0 ≤ g.playerCredits ∧ (g.playerCredits ≤ 0 → g.playerCredits = 0 ∧ g.isOver = true) := by
  intro g
  have solvent := (solvent_start credits least seed preset).run least moves
  have rules : g.config = config := solvent.rules
  refine ⟨fun asked bet g' dealt => ?_, solvent.player, fun broke => ⟨?_, ?_⟩⟩
  · obtain ⟨going, taken⟩ := bet_of_deal dealt
    have stake := stake_allowedBet (rules ▸ least) going (bet.getD g.config.minBet)
    have full := g.le_allowedBet (bet.getD g.config.minBet)
    rw [← taken, rules] at stake full
    exact ⟨stake.positive, stake.affordable, stake.within, full⟩
  · exact le_antisymm broke solvent.player
  · simp [isOver, broke]

/-- With a least bet beyond the highest one, and beyond the credits: the player stakes them all. -/
theorem stakes_of_run_crossed :
    let config : GameConfig := { GameConfig.hard with minBet := 20 }
    let g := (Ledger.start config 7 "hard").game
    0 < config.startingCredits ∧ 1 ≤ config.minBet ∧ config.maxBet < config.minBet ∧
      ∃ g', g.deal none (some 50) = (g', .ok ()) ∧ g'.bet = 15 := by
  intro config g
  have credits : 0 < config.startingCredits := by decide
  have least : 1 ≤ config.minBet := by decide
  have hard : GameConfig.hard.Fair := @Preset.fair_of_mem_builtIn "hard" Preset.hard (by decide)
  have fair : config.Fair := ⟨hard.slots, hard.numbers, hard.multiplies, hard.roots,
    hard.operators, hard.usable, hard.targets, hard.few, hard.near⟩
  have going : g.isOver = false := isOver_start (by decide) (by decide) 7 "hard"
  obtain ⟨g', dealt, -⟩ := (deals_deal going fair.targets (some 50)).exists_ready fair
    (ofRules_start config 7 "hard")
  have holds : g.playerCredits = 15 := rfl
  obtain ⟨stakes, -⟩ := stakes_of_run credits least 7 "hard" []
  obtain ⟨-, affordable, -, enough | ⟨-, all⟩⟩ := stakes none (some 50) g' dealt
  · have : (20 : Int) ≤ 15 := enough.trans (affordable.trans_eq holds)
    omega
  · exact ⟨credits, least, by decide, g', dealt, all.trans holds⟩

/-! ## Rounds won and lost -/

/-- The player wins a round in which the other side submits nothing. -/
theorem Ready.exists_won {g dealt : Game} {bet : Option Int} (ready : Ready g bet dealt)
    (fair : g.config.Fair) : ∃ e r, dealt.scored e {} = .ok r ∧ r.winner = .player := by
  obtain ⟨target, offered, aimed⟩ := ready.target
  obtain ⟨aim, converts, near⟩ := fair.near target offered
  obtain ⟨e, j, k, judged, refused, ahead⟩ :=
    ready.player.exists_ahead_of_empty converts near dealt.aiHand
  exact ⟨e, _, scored_of_judged ready.opened aimed judged refused, ahead⟩

/-- The player loses a round by submitting nothing. -/
theorem Ready.exists_lost {g dealt : Game} {bet : Option Int} (ready : Ready g bet dealt)
    (fair : g.config.Fair) : ∃ e r, dealt.scored {} e = .ok r ∧ r.winner = .ai := by
  obtain ⟨target, offered, aimed⟩ := ready.target
  obtain ⟨aim, converts, near⟩ := fair.near target offered
  obtain ⟨e, j, k, judged, refused, ahead⟩ :=
    ready.ai.exists_ahead_of_empty converts near dealt.playerHand
  have defined := isNaN_distance_of_judge converts judged
  have defined' := isNaN_distance_of_judge converts refused
  rw [← SideResult.distance_of] at defined defined'
  refine ⟨e, _, scored_of_judged ready.opened aimed refused judged, ?_⟩
  rw [RoundResult.of]
  dsimp only
  rw [decideWinner_mirrored defined defined', ahead]
  rfl

/-- By fair rules there are moves that settle a round as two submissions decide it. -/
theorem exists_round (fair : config.Fair) (rules : l.game.config = config)
    (deck : l.game.deck.OfRules config) (going : l.game.isOver = false) (bet : Int)
    {winner : Winner} (decided : ∀ dealt, Ready l.game (some bet) dealt →
      ∃ player ai r, dealt.scored player ai = .ok r ∧ r.winner = winner) :
    ∃ moves, (l.run moves).game.config = config ∧ (l.run moves).game.deck.OfRules config ∧
      (l.run moves).game.playerCredits =
        l.game.playerCredits + RoundResult.gain winner (l.game.allowedBet bet) ∧
      (l.run moves).game.aiCredits =
        l.game.aiCredits - RoundResult.gain winner (l.game.allowedBet bet) ∧
      (l.run moves).game.roundNumber = l.game.roundNumber + 1 ∧
      (l.run moves).game.dealt = false := by
  subst rules
  obtain ⟨dealt, dealt_eq, ready⟩ :=
    (deals_deal going fair.targets (some bet)).exists_ready fair deck
  obtain ⟨player, ai, r, scored, won⟩ := decided dealt ready
  obtain ⟨-, bet_eq, player_change, ai_change⟩ := scored_ok scored
  rw [won, bet_eq, ready.bet] at player_change ai_change
  obtain ⟨kept, score_eq⟩ := dealt.score_eq player ai
  obtain ⟨history, kept', settle_eq⟩ := settle_eq { dealt with notes := kept } r
  refine ⟨[.deal none (some bet), .score player ai, .settle], ?_⟩
  have run_eq : (l.run [.deal none (some bet), .score player ai, .settle]).game =
      ({ dealt with notes := kept } : Game).settle r := by
    simp only [Ledger.run, List.foldl_cons, List.foldl_nil, Ledger.move, dealt_eq, score_eq, scored]
  rw [run_eq, settle_eq]
  refine ⟨ready.config, ready.deck, ?_, ?_, ?_, rfl⟩
  · exact congrArg₂ (· + ·) ready.playerCredits player_change
  · exact congrArg₂ (· + ·) ready.aiCredits ai_change
  · exact congrArg (· + 1) ready.roundNumber

/-- By fair rules there are moves that take the bet from the other side. -/
theorem exists_won_round (fair : config.Fair) (rules : l.game.config = config)
    (deck : l.game.deck.OfRules config) (going : l.game.isOver = false) (bet : Int) :
    ∃ moves, (l.run moves).game.config = config ∧ (l.run moves).game.deck.OfRules config ∧
      (l.run moves).game.playerCredits = l.game.playerCredits + l.game.allowedBet bet ∧
      (l.run moves).game.aiCredits = l.game.aiCredits - l.game.allowedBet bet ∧
      (l.run moves).game.roundNumber = l.game.roundNumber + 1 := by
  obtain ⟨moves, rules', deck', player, ai, round, -⟩ :=
    exists_round fair rules deck going bet fun dealt ready => by
      obtain ⟨e, r, scored, won⟩ := ready.exists_won (rules ▸ fair)
      exact ⟨e, {}, r, scored, won⟩
  exact ⟨moves, rules', deck', player, ai, round⟩

/-- By fair rules there are moves that take the bet from the player. -/
theorem exists_lost_round (fair : config.Fair) (rules : l.game.config = config)
    (deck : l.game.deck.OfRules config) (going : l.game.isOver = false) (bet : Int) :
    ∃ moves, (l.run moves).game.config = config ∧ (l.run moves).game.deck.OfRules config ∧
      (l.run moves).game.playerCredits = l.game.playerCredits - l.game.allowedBet bet ∧
      (l.run moves).game.aiCredits = l.game.aiCredits + l.game.allowedBet bet ∧
      (l.run moves).game.roundNumber = l.game.roundNumber + 1 ∧
      (l.run moves).game.dealt = false := by
  obtain ⟨moves, rules', deck', player, ai, round, closed⟩ :=
    exists_round fair rules deck going bet fun dealt ready => by
      obtain ⟨e, r, scored, lost⟩ := ready.exists_lost (rules ▸ fair)
      exact ⟨{}, e, r, scored, lost⟩
  simp only [RoundResult.gain, Int.sub_neg] at player ai
  exact ⟨moves, rules', deck', player, ai, round, closed⟩

/-! ## A debt -/

/-- Two lost rounds for ten cost the other side more than the fifteen it starts with. -/
theorem not_ai_solvent :
    ¬ ∀ (config : GameConfig) (seed : Int) (preset : String) (moves : List Move),
      0 < config.startingCredits → 1 ≤ config.minBet → config.minBet ≤ config.maxBet →
        0 ≤ ((Ledger.start config seed preset).run moves).game.playerCredits ∧
          0 ≤ ((Ledger.start config seed preset).run moves).game.aiCredits := by
  intro solvent
  have fair : GameConfig.hard.Fair :=
    @Preset.fair_of_mem_builtIn "hard" Preset.hard (by decide)
  have fresh : (Ledger.start .hard 7 "hard").game.isOver = false ∧
      (Ledger.start .hard 7 "hard").game.config = .hard ∧
      (Ledger.start .hard 7 "hard").game.playerCredits = 15 ∧
      (Ledger.start .hard 7 "hard").game.aiCredits = 15 ∧
      (Ledger.start .hard 7 "hard").game.roundNumber = 0 := by
    obtain ⟨chooser, random, eq⟩ := start_eq .hard 7 "hard"
    rw [Ledger.start, eq]
    exact ⟨rfl, rfl, rfl, rfl, rfl⟩
  obtain ⟨going, rules, player, ai, round⟩ := fresh
  obtain ⟨first, rules', deck', player', ai', round'⟩ :=
    exists_won_round fair rules (ofRules_start .hard 7 "hard") going 10
  set l := (Ledger.start .hard 7 "hard").run first
  have ten : (Ledger.start .hard 7 "hard").game.allowedBet 10 = 10 := by
    rw [allowedBet, rules, player]
    rfl
  rw [player, ten] at player'
  rw [ai, ten] at ai'
  rw [round] at round'
  have going' : l.game.isOver = false := by
    rw [isOver, rules', player', ai', round']
    rfl
  obtain ⟨second, -, -, -, ai'', -⟩ := exists_won_round fair rules' deck' going' 10
  have ten' : l.game.allowedBet 10 = 10 := by
    rw [allowedBet, rules', player']
    rfl
  rw [ai', ten'] at ai''
  have owes := (solvent .hard 7 "hard" (first ++ second) (by decide) (by decide) (by decide)).2
  rw [Ledger.run_append, ai''] at owes
  exact absurd owes (by decide)

end NumberDuel.Game
