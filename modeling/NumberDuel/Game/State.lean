import NumberDuel.Deck
import NumberDuel.Game.Config
import NumberDuel.History
import NumberDuel.Note

/-!
# The state of a match

A match goes round by round: `deal` shuffles a fresh deck, chooses a target, takes a bet and deals
both hands; `score` judges two submissions; `settle` moves the credits and closes the round. Any
of them may be called at any time, and what a refused call had already changed stays changed.
-/

namespace NumberDuel

structure Game where
  config : GameConfig
  chooser : Random.Twister
  deck : Deck
  history : History
  playerCredits : Int
  aiCredits : Int
  playerHand : Hand := {}
  aiHand : Hand := {}
  roundNumber : Int := 0
  target : Option Int := none
  bet : Int
  dealt : Bool := false
  results : List RoundResult := []
  notes : Array Note := #[]

def Deck.ofConfig (config : GameConfig) (random : Random.Twister) : Deck where
  copiesPerValue := config.numberCopiesPerValue
  multiplyCards := config.multiplyCardsPerRound
  rootCards := config.squareRootCardsPerRound
  random := random

namespace Game

def deckSeeds : Nat := Nat.pow 2 32

/-- A new match: the seed decides the choice of targets and the seed of the deck. -/
def start (config : GameConfig) (seed : Int) (preset : String) : Game :=
  let drawn := (Random.Twister.ofSeed seed).below deckSeeds
  { config := config
    chooser := drawn.2
    deck := .ofConfig config (.ofSeed drawn.1)
    history := { preset := preset }
    playerCredits := config.startingCredits
    aiCredits := config.startingCredits
    bet := config.minBet }

/-- The match ends when a side is out of credits, or with the last round. -/
def isOver (g : Game) : Bool :=
  g.playerCredits ≤ 0 || g.aiCredits ≤ 0 || g.config.maxRounds ≤ g.roundNumber

def winner (g : Game) : Option Winner :=
  if !g.isOver then none
  else if g.playerCredits ≤ 0 then some .ai
  else if g.aiCredits ≤ 0 then some .player
  else if g.playerCredits = g.aiCredits then some .draw
  else if g.aiCredits < g.playerCredits then some .player
  else some .ai

def note (g : Game) (n : Note) : Game := { g with notes := g.notes.push n }

def takeNotes (g : Game) : List Note × Game := (g.notes.toList, { g with notes := #[] })

/-- The bet within the limits of the table and what the player can afford. -/
def allowedBet (g : Game) (bet : Int) : Int :=
  min (max g.config.minBet (min bet g.config.maxBet)) g.playerCredits

def clampBet (g : Game) (bet : Int) : Int × Game :=
  let allowed := g.allowedBet bet
  if allowed = bet then (allowed, g)
  else (allowed, g.note (.betAdjusted bet allowed g.config.maxBet g.playerCredits))

def clearTable (g : Game) : Game :=
  { g with playerHand := {}, aiHand := {}, deck := g.deck.build }

def chooseTarget (g : Game) (asked : Option Int) : Except Error (Int × Game) :=
  match asked with
  | some target => .ok (target, g)
  | none =>
    match g.chooser.choose? g.config.targetValues with
    | (some target, chooser) => .ok (target, { g with chooser := chooser })
    | (none, _) => .error .noTargets

/-- Takes the bet of the player, the least one if none was asked for. -/
def takeBet (g : Game) (asked : Option Int) : Game :=
  let (bet, g) := g.clampBet (asked.getD g.config.minBet)
  { g with bet := bet }

def dealHand (config : GameConfig) (deck : Deck) : Hand × Deck.Drawn :=
  let operators := config.basicOperators.foldl (fun h op => h.deal (.operator op)) ({} : Hand)
  let drawn := deck.drawSlots config.initialCardCount config.numberCardsPerHand
  (drawn.faces.foldl Hand.deal operators, drawn)

def noteSpecials (g : Game) (faces : List Face) : Game :=
  faces.foldl (fun g face =>
    match face with
    | .special mark => g.note (.specialDealt mark)
    | _ => g) g

def dealPlayer (g : Game) : Game × Option Error :=
  let (hand, drawn) := dealHand g.config g.deck
  (({ g with playerHand := hand, deck := drawn.deck } : Game).noteSpecials drawn.faces,
    drawn.stopped)

def dealAi (g : Game) : Game × Option Error :=
  let (hand, drawn) := dealHand g.config g.deck
  (({ g with aiHand := hand, deck := drawn.deck } : Game).noteSpecials drawn.faces,
    drawn.stopped)

def openRound (g : Game) (target : Int) : Game :=
  ({ g with
      dealt := true
      history := g.history.addRoundStart (g.roundNumber + 1) target g.bet g.playerHand.text
        g.aiHand.text } : Game).note
    (.roundDealt (g.roundNumber + 1) target g.playerHand g.aiHand)

def dealHands (g : Game) (target : Int) : Game × Except Error Unit :=
  match g.dealPlayer with
  | (g, some e) => (g, .error e)
  | (g, none) =>
    match g.dealAi with
    | (g, some e) => (g, .error e)
    | (g, none) => (g.openRound target, .ok ())

def deal (g : Game) (target bet : Option Int) : Game × Except Error Unit :=
  if g.isOver then (g, .error .matchOver)
  else
    let g := g.clearTable
    match g.chooseTarget target with
    | .error e => (g, .error e)
    | .ok (aim, g) => (({ g with target := some aim } : Game).takeBet bet).dealHands aim

/-- The result of the open round under two submissions; the game itself stays as it is. -/
def scored (g : Game) (player ai : Expression) : Except Error RoundResult :=
  match g.dealt, g.target with
  | true, some target => do
    let playerJudgement ← judge player g.playerHand target
    let aiJudgement ← judge ai g.aiHand target
    return .of target g.bet (.of player playerJudgement) (.of ai aiJudgement)
  | _, _ => .error .noOpenRound

/-- The notes that scoring brings: the second submission is judged only after the first. -/
def scoringNotes (g : Game) (player ai : Expression) : List Note :=
  match g.dealt, g.target with
  | true, some target =>
    match judge player g.playerHand target with
    | .ok _ => [.judged player g.playerHand, .judged ai g.aiHand]
    | .error _ => [.judged player g.playerHand]
  | _, _ => []

def score (g : Game) (player ai : Expression) : Game × Except Error RoundResult :=
  ((g.scoringNotes player ai).foldl note g, g.scored player ai)

def closeMatch (g : Game) : Game :=
  if g.isOver then
    { g with
      history := g.history.addMatchEnd g.roundNumber (g.winner.map Winner.name) g.playerCredits
        g.aiCredits }
  else g

def settle (g : Game) (result : RoundResult) : Game :=
  let round := g.roundNumber + 1
  (({ g with
      playerCredits := g.playerCredits + result.playerScoreChange
      aiCredits := g.aiCredits + result.aiScoreChange
      roundNumber := round
      dealt := false
      results := g.results ++ [result]
      history := g.history.addRoundResult round result.record } : Game).note
    (.settled round result)).closeMatch

/-- What a strategy plays from a hand. Without a target, a distance cannot be told. -/
def submission (g : Game) (strategy : Strategy) (hand : Hand) : Except Error Expression :=
  match strategy, g.target with
  | strategy, some target => strategy.play hand target
  | .basic, none => .ok hand.fallback
  | .smart, none =>
    if (Search.explore .standard hand 0).best.isSome then .error .targetUnset
    else .ok hand.fallback

def play (g : Game) (strategy : Strategy) (hand : Hand) : Game × Except Error Expression :=
  (g.note (.played strategy hand g.target), g.submission strategy hand)

def playRound (players : Players) (target bet : Option Int) (g : Game) :
    Game × Except Error RoundResult :=
  match g.deal target bet with
  | (g, .error e) => (g, .error e)
  | (g, .ok ()) =>
    match g.play players.player g.playerHand with
    | (g, .error e) => (g, .error e)
    | (g, .ok mine) =>
      match g.play players.ai g.aiHand with
      | (g, .error e) => (g, .error e)
      | (g, .ok theirs) =>
        match g.score mine theirs with
        | (g, .error e) => (g, .error e)
        | (g, .ok result) => (g.settle result, .ok result)

/-- Plays at most this many rounds, and none once the match is over. A round that cannot be
played stops the match where it is. -/
def playRounds (players : Players) (bet : Option Int) : Nat → Game → Game × Except Error Unit
  | 0, g => (g, .ok ())
  | rounds + 1, g =>
    if g.isOver then (g, .ok ())
    else
      match g.playRound players none bet with
      | (g, .error e) => (g, .error e)
      | (g, .ok _) => playRounds players bet rounds g

def roundsLeft (g : Game) : Nat := (g.config.maxRounds - g.roundNumber).toNat

def finish (players : Players) (bet : Option Int) (g : Game) : Game × Except Error Unit :=
  playRounds players bet g.roundsLeft g

def simulate (config : GameConfig) (players : Players) (seed : Int) (preset : String)
    (bet : Option Int) : Game × Except Error Unit :=
  (start config seed preset).finish players bet

end Game

end NumberDuel
