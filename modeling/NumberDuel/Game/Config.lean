import NumberDuel.Card

/-!
# The rules of a match

A configuration says how hands are dealt, what the sides stake, and when a match ends. Nothing
bounds its numbers: a count below zero deals nothing.
-/

namespace NumberDuel

structure GameConfig where
  /-- Slot draws before numbers are topped up. -/
  initialCardCount : Int := 3
  numberCardsPerHand : Int := 3
  numberCopiesPerValue : Int := 4
  multiplyCardsPerRound : Int := 2
  squareRootCardsPerRound : Int := 2
  basicOperators : List Operator := [.add, .subtract, .divide]
  startingCredits : Int := 20
  minBet : Int := 1
  maxBet : Int := 5
  targetValues : List Int := [1, 20]
  maxRounds : Int := 100
  deriving DecidableEq, Repr

namespace GameConfig

def standard : GameConfig := {}

def easy : GameConfig := { startingCredits := 30, targetValues := [5, 10] }

def hard : GameConfig :=
  { startingCredits := 15, minBet := 2, maxBet := 10, targetValues := [1, 50, 100] }

end GameConfig

/-- One rule set to another value. -/
inductive Setting where
  | initialCardCount (n : Int)
  | numberCardsPerHand (n : Int)
  | numberCopiesPerValue (n : Int)
  | multiplyCardsPerRound (n : Int)
  | squareRootCardsPerRound (n : Int)
  | basicOperators (ops : List Operator)
  | startingCredits (n : Int)
  | minBet (n : Int)
  | maxBet (n : Int)
  | targetValues (targets : List Int)
  | maxRounds (n : Int)
  deriving DecidableEq, Repr

/-- How a rule is set from data: by a number, by operators, or by targets. -/
inductive Setter where
  | number (set : Int → Setting)
  | operators (set : List Operator → Setting)
  | targets (set : List Int → Setting)

def Setter.all : List (String × Setter) :=
  [("initial_card_count", .number .initialCardCount),
    ("number_cards_per_hand", .number .numberCardsPerHand),
    ("number_copies_per_value", .number .numberCopiesPerValue),
    ("multiply_cards_per_round", .number .multiplyCardsPerRound),
    ("square_root_cards_per_round", .number .squareRootCardsPerRound),
    ("basic_operators", .operators .basicOperators),
    ("starting_credits", .number .startingCredits),
    ("min_bet", .number .minBet),
    ("max_bet", .number .maxBet),
    ("target_values", .targets .targetValues),
    ("max_rounds", .number .maxRounds)]

def Setter.named? (name : String) : Option Setter := Setter.all.lookup name

def GameConfig.set (config : GameConfig) : Setting → GameConfig
  | .initialCardCount n => { config with initialCardCount := n }
  | .numberCardsPerHand n => { config with numberCardsPerHand := n }
  | .numberCopiesPerValue n => { config with numberCopiesPerValue := n }
  | .multiplyCardsPerRound n => { config with multiplyCardsPerRound := n }
  | .squareRootCardsPerRound n => { config with squareRootCardsPerRound := n }
  | .basicOperators ops => { config with basicOperators := ops }
  | .startingCredits n => { config with startingCredits := n }
  | .minBet n => { config with minBet := n }
  | .maxBet n => { config with maxBet := n }
  | .targetValues targets => { config with targetValues := targets }
  | .maxRounds n => { config with maxRounds := n }

end NumberDuel
