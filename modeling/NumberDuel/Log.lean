/-!
# Log records

A record has a level, the part of the game that it comes from, and a text.
-/

namespace NumberDuel.Log

inductive Level where
  | debug
  | info
  | warning
  | error
  deriving DecidableEq, Repr

def Level.label : Level → String
  | .debug => "DEBUG"
  | .info => "INFO"
  | .warning => "WARNING"
  | .error => "ERROR"

/-- The part of the game that a record comes from. -/
inductive Origin where
  | cards
  | evaluator
  | validator
  | strategy
  | builder
  | game
  deriving DecidableEq, Repr

structure Record where
  level : Level
  origin : Origin
  text : String
  deriving DecidableEq, Repr

end NumberDuel.Log
