import NumberDuel.Text.Quoted

/-!
# Why an operation is refused

Each cause has its own constructor, and `Error.message` is the only place that words them. What
the rules of the game forbid is no error: it is reported by the verdict and the evaluation of an
expression.
-/

namespace NumberDuel

/-- The closed vocabularies that text is looked up in. -/
inductive Vocabulary where
  | operator
  | special
  | strategy
  | difficulty
  deriving DecidableEq, Repr

def Vocabulary.label : Vocabulary → String
  | .operator => "OperatorType"
  | .special => "SpecialType"
  | .strategy => "StrategyType"
  | .difficulty => "Difficulty"

inductive SliderEnd where
  | least
  | most
  deriving DecidableEq, Repr

def SliderEnd.label : SliderEnd → String
  | .least => "`min_value`"
  | .most => "`max_value`"

/-- The causes of a refusal. -/
inductive Error where
  /-- The text is no word of the vocabulary. -/
  | unknownWord (vocabulary : Vocabulary) (text : String)
  /-- A number card cannot hold an undefined value. -/
  | undefinedCardValue
  /-- A number card cannot hold an infinite value. -/
  | infiniteCardValue
  /-- A whole number lies beyond the doubles. -/
  | integerTooLarge
  /-- A number comes without its root flag. -/
  | missingRootFlag
  /-- A rate over no matches at all. -/
  | noMatches
  /-- A card is wanted, and even a fresh deck has none. -/
  | emptyDeck
  /-- A number card is wanted, and no deck of this make holds one. -/
  | endlessDeal
  /-- The rules offer no target to choose from. -/
  | noTargets
  /-- A distance is wanted before any target was set. -/
  | targetUnset
  /-- The match has ended. -/
  | matchOver
  /-- There is no open round to score. -/
  | noOpenRound
  /-- No preset answers to the name. -/
  | unknownPreset (name : String) (available : List String)
  /-- A slider needs room between its bounds. -/
  | sliderBoundsEqual (bound : Int)
  /-- An end of a slider lies below what an input can hold. -/
  | sliderEndTooLow (which : SliderEnd) (bound : Int)
  /-- An end of a slider lies above what an input can hold. -/
  | sliderEndTooHigh (which : SliderEnd) (bound : Int)
  /-- A column of a chart holds a number that fits in no machine word. -/
  | chartNumberTooLarge
  /-- A column of numbers has no mean among the doubles. -/
  | meanTooLarge
  deriving DecidableEq, Repr

def Error.message : Error → String
  | .unknownWord vocabulary text => Text.quote text ++ " is not a valid " ++ vocabulary.label
  | .undefinedCardValue => "cannot convert float NaN to integer"
  | .infiniteCardValue => "cannot convert float infinity to integer"
  | .integerTooLarge => "int too large to convert to float"
  | .missingRootFlag => "list index out of range"
  | .noMatches => "division by zero"
  | .emptyDeck => "pop from empty list"
  | .endlessDeal => "no deck of this make holds a number card"
  | .noTargets => "Cannot choose from an empty sequence"
  | .targetUnset => "unsupported operand type(s) for -: 'float' and 'NoneType'"
  | .matchOver => "The match is over"
  | .noOpenRound => "No round has been dealt"
  | .unknownPreset name available =>
    "Unknown preset: " ++ name ++ ". Available: " ++ Text.quoteList available
  | .sliderBoundsEqual bound =>
    "The `min_value` and `max_value` parameters are both set to " ++ toString bound ++
      ". They must not be equal."
  | .sliderEndTooLow which bound =>
    which.label ++ " (" ++ toString bound ++ ") must be >= -((1 << 53) - 1)"
  | .sliderEndTooHigh which bound =>
    which.label ++ " (" ++ toString bound ++ ") must be <= (1 << 53) - 1"
  | .chartNumberTooLarge =>
    "Unable to convert dataframe to Arrow table.\nPython int too large to convert to C long"
  | .meanTooLarge => "agg function failed [how->mean,dtype->object]"

end NumberDuel
