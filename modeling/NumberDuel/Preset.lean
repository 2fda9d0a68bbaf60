import NumberDuel.Game.Config
import NumberDuel.Strategy

/-!
# Presets

A preset pairs the rules of a match with the strategies of both sides. Its rules are those of its
difficulty with some of them set to other values.
-/

namespace NumberDuel

/-- The base of a preset's rules. -/
inductive Difficulty where
  | default
  | easy
  | hard
  deriving DecidableEq, Repr

namespace Difficulty

def all : List Difficulty := [default, easy, hard]

def key : Difficulty → String
  | default => "default"
  | easy => "easy"
  | hard => "hard"

def config : Difficulty → GameConfig
  | default => .standard
  | easy => .easy
  | hard => .hard

def ofKey (text : String) : Except Error Difficulty :=
  match all.find? (·.key == text) with
  | some difficulty => .ok difficulty
  | none => .error (.unknownWord .difficulty text)

/-- Every difficulty is found under its own word. -/
theorem ofKey_key (difficulty : Difficulty) : ofKey difficulty.key = .ok difficulty := by
  cases difficulty <;> rfl

end Difficulty

/-- A value in a preset that is to replace one of its rules: a rule, or a name that is none. -/
inductive Override where
  | rule (setting : Setting)
  | other (name : String)
  deriving DecidableEq, Repr

structure Preset where
  name : String
  description : String
  difficulty : Difficulty := .default
  player : Strategy := .basic
  ai : Strategy := .smart
  overrides : List Override := []
  deriving DecidableEq, Repr

namespace Preset

/-- Sets one rule; names that are no rules are passed over. -/
def apply (config : GameConfig) : Override → GameConfig
  | .rule setting => config.set setting
  | .other _ => config

def config (p : Preset) : GameConfig := p.overrides.foldl apply p.difficulty.config

/-- The names besides its rules that a preset may give a value to: those of the difficulties. -/
def sideNames : List String := Difficulty.all.map Difficulty.key

def sideValues (p : Preset) : List String :=
  sideNames.filter fun name => p.overrides.contains (.other name)

def players (p : Preset) : Players := ⟨p.player, p.ai⟩

def standard : Preset where
  name := "Standard"
  description := "Default rules, naive player against the searching AI"

def easy : Preset where
  name := "Easy"
  description := "More credits and friendlier targets (5 or 10)"
  difficulty := .easy

def hard : Preset where
  name := "Hard"
  description := "Fewer credits, bigger bets, targets of 1, 50 or 100"
  difficulty := .hard

def mirror : Preset where
  name := "Mirror Match"
  description := "Searching AI on both sides"
  player := .smart
  overrides := [.rule (.maxRounds 50)]

def noSpecials : Preset where
  name := "No Specials"
  description := "Deck without √ or forced × cards"
  overrides := [.rule (.multiplyCardsPerRound 0), .rule (.squareRootCardsPerRound 0)]

def highStakes : Preset where
  name := "High Stakes"
  description := "Maximum bet every round"
  overrides := [.rule (.minBet 5), .rule (.maxBet 5)]

def builtIn : List (String × Preset) :=
  [("standard", standard), ("easy", easy), ("hard", hard), ("mirror", mirror),
    ("no_specials", noSpecials), ("high_stakes", highStakes)]

def keys : List String := builtIn.map (·.1)

/-- One character of a name as it is looked up: a small letter, or `_` for a blank. The Kelvin
sign is the one capital letter outside of ASCII whose small letter lies inside. -/
def foldChar (c : Char) : Char :=
  if c = ' ' then '_' else if c = '\u212a' then 'k' else c.toLower

def keyOf (name : String) : String := String.ofList (name.toList.map foldChar)

def named? (name : String) : Option Preset := builtIn.lookup (keyOf name)

end Preset

inductive PresetChoice where
  | named (name : String)
  | given (preset : Preset)

namespace PresetChoice

/-- The preset, and the name that reports use for it: the one it was asked for by. -/
def resolve : PresetChoice → Except Error (Preset × String)
  | named name =>
    match Preset.named? name with
    | some preset => .ok (preset, name)
    | none => .error (.unknownPreset name Preset.keys)
  | given preset => .ok (preset, preset.name)

end PresetChoice

end NumberDuel
