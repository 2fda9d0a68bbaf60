import NumberDuel.Game.State

/-!
# What the transitions of a match change

Each step of a match written as an update of the state: what is not named stays. The notes and
the history are the only parts that are left open.
-/

namespace NumberDuel.Game

variable {g : Game}

theorem start_eq (config : GameConfig) (seed : Int) (preset : String) :
    ∃ chooser random, start config seed preset =
      { config := config
        chooser := chooser
        deck := .ofConfig config random
        history := { preset := preset }
        playerCredits := config.startingCredits
        aiCredits := config.startingCredits
        bet := config.minBet } :=
  ⟨_, _, rfl⟩

theorem config_start (config : GameConfig) (seed : Int) (preset : String) :
    (start config seed preset).config = config := rfl

/-- Where there are credits and rounds to play for, a new match is not over. -/
theorem isOver_start {config : GameConfig} (credits : 0 < config.startingCredits)
    (rounds : 0 < config.maxRounds) (seed : Int) (preset : String) :
    (start config seed preset).isOver = false := by
  obtain ⟨chooser, random, eq⟩ := start_eq config seed preset
  rw [eq]
  simp [isOver, credits, rounds]

theorem foldl_note_eq (notes : List Note) (g : Game) :
    ∃ kept, notes.foldl note g = { g with notes := kept } := by
  induction notes generalizing g with
  | nil => exact ⟨g.notes, rfl⟩
  | cons n notes ih =>
    obtain ⟨kept, eq⟩ := ih (g.note n)
    exact ⟨kept, eq⟩

theorem noteSpecials_eq (faces : List Face) (g : Game) :
    ∃ kept, g.noteSpecials faces = { g with notes := kept } := by
  rw [noteSpecials]
  induction faces generalizing g with
  | nil => exact ⟨g.notes, rfl⟩
  | cons face faces ih =>
    rw [List.foldl_cons]
    cases face with
    | special mark =>
      obtain ⟨kept, eq⟩ := ih (g.note (.specialDealt mark))
      exact ⟨kept, eq⟩
    | number | operator => exact ih g

/-- The targets that a deal may play for: the one that is asked for, or those of the rules. -/
def targetsFor (g : Game) (asked : Option Int) : List Int :=
  asked.elim g.config.targetValues fun target => [target]

theorem chooseTarget_cases (asked : Option Int) :
    (g.targetsFor asked = [] ∧ g.chooseTarget asked = .error .noTargets) ∨
      ∃ aim ∈ g.targetsFor asked, ∃ chooser,
        g.chooseTarget asked = .ok (aim, { g with chooser := chooser }) := by
  cases asked with
  | some target => exact .inr ⟨target, List.mem_singleton_self _, g.chooser, rfl⟩
  | none =>
    unfold chooseTarget
    rcases chosen : g.chooser.choose? g.config.targetValues with ⟨_ | aim, chooser⟩
    · cases values : g.config.targetValues with
      | nil => exact .inl ⟨values, rfl⟩
      | cons => simp [values, Random.Twister.choose?] at chosen
    · have offered : aim ∈ g.config.targetValues :=
        Random.Twister.mem_of_choose? (congrArg Prod.fst chosen)
      exact .inr ⟨aim, offered, chooser, rfl⟩

theorem takeBet_eq (asked : Option Int) (g : Game) :
    ∃ kept, g.takeBet asked =
      { g with bet := g.allowedBet (asked.getD g.config.minBet), notes := kept } := by
  unfold takeBet clampBet
  dsimp only
  split
  · exact ⟨g.notes, rfl⟩
  · exact ⟨_, rfl⟩

theorem dealPlayer_eq (g : Game) :
    ∃ kept, g.dealPlayer =
      ({ g with
          playerHand := (dealHand g.config g.deck).1
          deck := (dealHand g.config g.deck).2.deck
          notes := kept }, (dealHand g.config g.deck).2.stopped) := by
  unfold dealPlayer
  obtain ⟨kept, eq⟩ := noteSpecials_eq (dealHand g.config g.deck).2.faces
    { g with
      playerHand := (dealHand g.config g.deck).1
      deck := (dealHand g.config g.deck).2.deck }
  exact ⟨kept, congrArg (·, (dealHand g.config g.deck).2.stopped) eq⟩

theorem dealAi_eq (g : Game) :
    ∃ kept, g.dealAi =
      ({ g with
          aiHand := (dealHand g.config g.deck).1
          deck := (dealHand g.config g.deck).2.deck
          notes := kept }, (dealHand g.config g.deck).2.stopped) := by
  unfold dealAi
  obtain ⟨kept, eq⟩ := noteSpecials_eq (dealHand g.config g.deck).2.faces
    { g with
      aiHand := (dealHand g.config g.deck).1
      deck := (dealHand g.config g.deck).2.deck }
  exact ⟨kept, congrArg (·, (dealHand g.config g.deck).2.stopped) eq⟩

theorem play_eq (g : Game) (strategy : Strategy) (hand : Hand) :
    ∃ kept, g.play strategy hand = ({ g with notes := kept }, g.submission strategy hand) :=
  ⟨_, rfl⟩

theorem score_eq (g : Game) (player ai : Expression) :
    ∃ kept, g.score player ai = ({ g with notes := kept }, g.scored player ai) := by
  obtain ⟨kept, eq⟩ := foldl_note_eq (g.scoringNotes player ai) g
  exact ⟨kept, congrArg (·, g.scored player ai) eq⟩

theorem settle_eq (g : Game) (result : RoundResult) :
    ∃ history kept, g.settle result =
      { g with
        playerCredits := g.playerCredits + result.playerScoreChange
        aiCredits := g.aiCredits + result.aiScoreChange
        roundNumber := g.roundNumber + 1
        dealt := false
        results := g.results ++ [result]
        history := history
        notes := kept } := by
  unfold settle closeMatch
  dsimp only
  split <;> exact ⟨_, _, rfl⟩

/-- Both hands are dealt, from one deck and one after the other. -/
theorem dealHands_of_drawn (target : Int) {mine theirs : Hand} {first second : List Face}
    {deck deck' : Deck} (player : dealHand g.config g.deck = (mine, ⟨first, deck, none⟩))
    (ai : dealHand g.config deck = (theirs, ⟨second, deck', none⟩)) :
    ∃ history kept, g.dealHands target =
      ({ g with
          playerHand := mine
          aiHand := theirs
          deck := deck'
          dealt := true
          history := history
          notes := kept }, .ok ()) := by
  obtain ⟨kept, player_eq⟩ := g.dealPlayer_eq
  rw [player] at player_eq
  obtain ⟨kept', ai_eq⟩ :=
    dealAi_eq { g with playerHand := mine, deck := deck, notes := kept }
  dsimp only at ai_eq
  rw [ai] at ai_eq
  simp only [dealHands, player_eq, ai_eq]
  exact ⟨_, _, rfl⟩

def firstHand (g : Game) : Hand × Deck.Drawn := dealHand g.config g.deck

/-- The hand of the other side, dealt from what the player's hand has left. -/
def secondHand (g : Game) : Hand × Deck.Drawn := dealHand g.config g.firstHand.2.deck

def handsDealt (g : Game) (kept : Array Note) : Game :=
  { g with
    playerHand := g.firstHand.1
    aiHand := g.secondHand.1
    deck := g.secondHand.2.deck
    notes := kept }

/-- The hands are dealt one after the other, and the round is opened unless a drawing stopped. -/
theorem dealHands_steps (g : Game) (target : Int) :
    ∃ kept,
      (∃ e, g.firstHand.2.stopped = some e ∧ g.dealHands target =
        ({ g with
            playerHand := g.firstHand.1
            deck := g.firstHand.2.deck
            notes := kept }, .error e)) ∨
      (∃ e, g.firstHand.2.stopped = none ∧ g.secondHand.2.stopped = some e ∧
        g.dealHands target = (g.handsDealt kept, .error e)) ∨
      (g.firstHand.2.stopped = none ∧ g.secondHand.2.stopped = none ∧
        g.dealHands target = ((g.handsDealt kept).openRound target, .ok ())) := by
  obtain ⟨kept, player_eq⟩ := g.dealPlayer_eq
  unfold dealHands
  rw [player_eq]
  cases first : (dealHand g.config g.deck).2.stopped with
  | some e => exact ⟨kept, .inl ⟨e, first, rfl⟩⟩
  | none =>
    obtain ⟨kept', ai_eq⟩ := dealAi_eq
      { g with
        playerHand := (dealHand g.config g.deck).1
        deck := (dealHand g.config g.deck).2.deck
        notes := kept }
    simp only [ai_eq]
    cases second : (dealHand g.config (dealHand g.config g.deck).2.deck).2.stopped with
    | some e => exact ⟨kept', .inr (.inl ⟨e, first, second, rfl⟩)⟩
    | none => exact ⟨kept', .inr (.inr ⟨first, second, rfl⟩)⟩

theorem dealHands_eq (g : Game) (target : Int) :
    ∃ mine theirs deck dealt history kept outcome, g.dealHands target =
      ({ g with
          playerHand := mine
          aiHand := theirs
          deck := deck
          dealt := dealt
          history := history
          notes := kept }, outcome) := by
  obtain ⟨kept, ⟨e, -, eq⟩ | ⟨e, -, -, eq⟩ | ⟨-, -, eq⟩⟩ := g.dealHands_steps target
  · exact ⟨_, g.aiHand, _, g.dealt, g.history, kept, .error e, eq⟩
  · exact ⟨_, _, _, g.dealt, g.history, kept, .error e, eq⟩
  · exact ⟨_, _, _, true, _, _, .ok (), eq⟩

def tableSet (g : Game) (chooser : Random.Twister) (aim : Int) (bet : Option Int)
    (kept : Array Note) : Game :=
  { g.clearTable with
    chooser := chooser
    target := some aim
    bet := g.allowedBet (bet.getD g.config.minBet)
    notes := kept }

/-- A deal is refused once the match is over. Else it clears the table, and where there is a target
to play for takes the bet and deals both hands. -/
theorem deal_steps (g : Game) (target bet : Option Int) :
    g.isOver = true ∧ g.deal target bet = (g, .error .matchOver) ∨
      g.isOver = false ∧
        ((g.targetsFor target = [] ∧ g.deal target bet = (g.clearTable, .error .noTargets)) ∨
          ∃ chooser kept, ∃ aim ∈ g.targetsFor target,
            g.deal target bet = (g.tableSet chooser aim bet kept).dealHands aim) := by
  unfold deal
  cases ended : g.isOver with
  | true => exact .inl ⟨rfl, rfl⟩
  | false =>
    refine .inr ⟨rfl, ?_⟩
    simp only [Bool.false_eq_true, if_false]
    rcases g.clearTable.chooseTarget_cases target with
      ⟨none, chosen⟩ | ⟨aim, offered, chooser, chosen⟩
    · exact .inl ⟨none, by rw [chosen]⟩
    · obtain ⟨kept, bet_eq⟩ := takeBet_eq bet
        { g.clearTable with chooser := chooser, target := some aim }
      refine .inr ⟨chooser, kept, aim, offered, ?_⟩
      rw [chosen]
      exact congrArg (dealHands · aim) bet_eq

/-- A deal moves no credits. It is refused once the match is over; else it either fails before the
bet is taken, or takes the allowed one. -/
theorem deal_cases (g : Game) (target bet : Option Int) :
    g.isOver = true ∧ g.deal target bet = (g, .error .matchOver) ∨
      g.isOver = false ∧
        ∃ mine theirs deck chooser aim taken dealt history kept outcome, g.deal target bet =
          ({ g with
              playerHand := mine
              aiHand := theirs
              deck := deck
              chooser := chooser
              target := aim
              bet := taken
              dealt := dealt
              history := history
              notes := kept }, outcome) ∧
          (taken = g.bet ∧ dealt = g.dealt ∨
            taken = g.allowedBet (bet.getD g.config.minBet)) := by
  rcases g.deal_steps target bet with ended | ⟨going, ⟨-, eq⟩ | ⟨chooser, kept, aim, -, eq⟩⟩
  · exact .inl ended
  · exact .inr ⟨going, {}, {}, g.deck.build, g.chooser, g.target, g.bet, g.dealt, g.history, g.notes,
      .error .noTargets, eq, .inl ⟨rfl, rfl⟩⟩
  · obtain ⟨mine, theirs, deck, dealt, history, kept', outcome, hands⟩ :=
      (g.tableSet chooser aim bet kept).dealHands_eq aim
    exact .inr ⟨going, mine, theirs, deck, chooser, some aim, _, dealt, history, kept', outcome,
      eq.trans hands, .inr rfl⟩

/-- No deal ends a match. -/
theorem isOver_deal (g : Game) (asked bet : Option Int) :
    (g.deal asked bet).1.isOver = g.isOver := by
  rcases g.deal_cases asked bet with ⟨-, eq⟩ | ⟨-, _, _, _, _, _, _, _, _, _, _, eq, -⟩
  · rw [eq]
  · rw [eq]
    rfl

end NumberDuel.Game
