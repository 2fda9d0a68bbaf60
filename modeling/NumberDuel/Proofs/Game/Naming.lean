import NumberDuel.Proofs.Game.Round

/-!
# The name of a match is only written down

A match carries the name of its preset in its history, and nothing reads it there. Under another
name every step does what it did before, so a whole match differs in this name alone.
-/

namespace NumberDuel.Game

def renamed (g : Game) (name : String) : Game :=
  { g with history := { g.history with preset := name } }

def renamedIn {α : Type} (name : String) (done : Game × α) : Game × α :=
  (done.1.renamed name, done.2)

variable (g : Game) (name : String)

/-! ## What does not change -/

@[simp] theorem config_renamed : (g.renamed name).config = g.config := rfl

@[simp] theorem chooser_renamed : (g.renamed name).chooser = g.chooser := rfl

@[simp] theorem playerHand_renamed : (g.renamed name).playerHand = g.playerHand := rfl

@[simp] theorem aiHand_renamed : (g.renamed name).aiHand = g.aiHand := rfl

@[simp] theorem isOver_renamed : (g.renamed name).isOver = g.isOver := rfl

@[simp] theorem allowedBet_renamed : (g.renamed name).allowedBet = g.allowedBet := rfl

theorem foldl_note_renamed (notes : List Note) :
    notes.foldl note (g.renamed name) = (notes.foldl note g).renamed name := by
  induction notes generalizing g with
  | nil => rfl
  | cons n notes ih => exact ih (g.note n)

/-! ## Dealing -/

theorem takeBet_renamed (asked : Option Int) :
    (g.renamed name).takeBet asked = (g.takeBet asked).renamed name := by
  unfold takeBet clampBet
  dsimp only
  rw [allowedBet_renamed, config_renamed]
  split <;> rfl

theorem noteSpecials_renamed (faces : List Face) :
    (g.renamed name).noteSpecials faces = (g.noteSpecials faces).renamed name := by
  rw [noteSpecials, noteSpecials]
  induction faces generalizing g with
  | nil => rfl
  | cons face faces ih =>
    cases face with
    | special mark => exact ih (g.note (.specialDealt mark))
    | number | operator => exact ih g

theorem dealPlayer_renamed : (g.renamed name).dealPlayer = renamedIn name g.dealPlayer := by
  unfold dealPlayer
  exact congrArg (·, (dealHand g.config g.deck).2.stopped)
    (noteSpecials_renamed
      { g with
        playerHand := (dealHand g.config g.deck).1
        deck := (dealHand g.config g.deck).2.deck } name _)

theorem dealAi_renamed : (g.renamed name).dealAi = renamedIn name g.dealAi := by
  unfold dealAi
  exact congrArg (·, (dealHand g.config g.deck).2.stopped)
    (noteSpecials_renamed
      { g with
        aiHand := (dealHand g.config g.deck).1
        deck := (dealHand g.config g.deck).2.deck } name _)

theorem dealHands_renamed (target : Int) :
    (g.renamed name).dealHands target = renamedIn name (g.dealHands target) := by
  rw [dealHands, dealHands, dealPlayer_renamed]
  rcases g.dealPlayer with ⟨g, _ | stopped⟩
  · simp only [renamedIn, dealAi_renamed]
    rcases g.dealAi with ⟨g, _ | stopped⟩ <;> rfl
  · rfl

theorem chooseTarget_renamed (asked : Option Int) :
    (g.renamed name).chooseTarget asked =
      (g.chooseTarget asked).map fun (aim, g) => (aim, g.renamed name) := by
  cases asked with
  | some target => rfl
  | none =>
    unfold chooseTarget
    simp only [chooser_renamed, config_renamed]
    rcases g.chooser.choose? g.config.targetValues with ⟨_ | aim, chooser⟩ <;> rfl

theorem deal_renamed (target bet : Option Int) :
    (g.renamed name).deal target bet = renamedIn name (g.deal target bet) := by
  have cleared : (g.renamed name).clearTable = g.clearTable.renamed name := rfl
  unfold deal
  simp only [isOver_renamed, cleared, chooseTarget_renamed]
  split
  · rfl
  rcases g.clearTable.chooseTarget target with e | ⟨aim, g⟩
  · rfl
  · exact (congrArg (dealHands · aim) (takeBet_renamed { g with target := some aim } name bet)).trans
      (dealHands_renamed _ name aim)

/-! ## Playing -/

theorem play_renamed (strategy : Strategy) (hand : Hand) :
    (g.renamed name).play strategy hand = renamedIn name (g.play strategy hand) := rfl

theorem score_renamed (player ai : Expression) :
    (g.renamed name).score player ai = renamedIn name (g.score player ai) :=
  congrArg (·, g.scored player ai) (foldl_note_renamed g name (g.scoringNotes player ai))

theorem closeMatch_renamed : (g.renamed name).closeMatch = g.closeMatch.renamed name := by
  unfold closeMatch
  rw [isOver_renamed]
  split <;> rfl

theorem settle_renamed (result : RoundResult) :
    (g.renamed name).settle result = (g.settle result).renamed name := by
  unfold settle
  exact closeMatch_renamed
    (({ g with
        playerCredits := g.playerCredits + result.playerScoreChange
        aiCredits := g.aiCredits + result.aiScoreChange
        roundNumber := g.roundNumber + 1
        dealt := false
        results := g.results ++ [result]
        history := g.history.addRoundResult (g.roundNumber + 1) result.record } : Game).note
      (.settled (g.roundNumber + 1) result)) name

theorem playDealt_renamed (players : Players) (dealt : Game × Except Error Unit) :
    playDealt players (renamedIn name dealt) = renamedIn name (playDealt players dealt) := by
  obtain ⟨g, e | ⟨⟩⟩ := dealt
  · rfl
  simp only [playDealt, renamedIn, playerHand_renamed, play_renamed]
  obtain ⟨g, e | mine⟩ := g.play players.player g.playerHand
  · rfl
  simp only [renamedIn, aiHand_renamed, play_renamed]
  obtain ⟨g, e | theirs⟩ := g.play players.ai g.aiHand
  · rfl
  simp only [renamedIn, score_renamed]
  obtain ⟨g, e | result⟩ := g.score mine theirs
  · rfl
  · simp only [settle_renamed]

theorem playRound_renamed (players : Players) (target bet : Option Int) :
    (g.renamed name).playRound players target bet =
      renamedIn name (g.playRound players target bet) := by
  rw [playRound_eq, playRound_eq, deal_renamed, playDealt_renamed]

/-! ## Whole matches -/

theorem playRounds_renamed (players : Players) (bet : Option Int) (rounds : Nat) :
    playRounds players bet rounds (g.renamed name) =
      renamedIn name (playRounds players bet rounds g) := by
  induction rounds generalizing g with
  | zero => rfl
  | succ rounds ih =>
    unfold playRounds
    simp only [playRound_renamed, isOver_renamed]
    split
    · rfl
    rcases g.playRound players none bet with ⟨g, e | result⟩
    · rfl
    · exact ih g

theorem finish_renamed (players : Players) (bet : Option Int) :
    finish players bet (g.renamed name) = renamedIn name (finish players bet g) :=
  playRounds_renamed g name players bet g.roundsLeft

theorem start_renamed (config : GameConfig) (seed : Int) (preset : String) :
    (start config seed preset).renamed name = start config seed name := by
  -- what the seed brings is put aside, or it would be computed to compare the two
  obtain ⟨chooser, deck, eq⟩ : ∃ chooser deck, ∀ preset, start config seed preset =
      { config := config
        chooser := chooser
        deck := deck
        history := { preset := preset }
        playerCredits := config.startingCredits
        aiCredits := config.startingCredits
        bet := config.minBet } := ⟨_, _, fun _ => rfl⟩
  rw [eq, eq]
  rfl

/-- A match under another name is the same match under another name. -/
theorem simulate_renamed (config : GameConfig) (players : Players) (seed : Int)
    (preset : String) (bet : Option Int) :
    simulate config players seed name bet =
      renamedIn name (simulate config players seed preset bet) := by
  rw [simulate, simulate, ← start_renamed name config seed preset, finish_renamed]

end NumberDuel.Game
