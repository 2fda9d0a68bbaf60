import NumberDuel.Search.Basic

/-!
# Strategies

The basic strategy plays the numbers as they were dealt. The smart one plays the closest legal
arrangement, and falls back to the basic construction where the search has nothing legal.
-/

namespace NumberDuel

inductive Strategy where
  | basic
  | smart
  deriving DecidableEq, Repr

namespace Strategy

def all : List Strategy := [basic, smart]

def key : Strategy → String
  | basic => "basic"
  | smart => "smart"

def name : Strategy → String
  | basic => "Basic"
  | smart => "Smart"

def ofKey (text : String) : Except Error Strategy :=
  match all.find? (·.key == text) with
  | some strategy => .ok strategy
  | none => .error (.unknownWord .strategy text)

/-- Every strategy is found under its own word. -/
theorem ofKey_key (strategy : Strategy) : ofKey strategy.key = .ok strategy := by
  cases strategy <;> rfl

end Strategy

structure Players where
  player : Strategy := .basic
  ai : Strategy := .smart
  deriving DecidableEq, Repr

/-- The operators for `gaps` gaps: first `forced` times `×`, then the cards in held order, then
`+` once those run out. -/
def fallbackOperators : (gaps forced : Nat) → List Operator → List Operator
  | 0, _, _ => []
  | gaps + 1, forced + 1, cards => .multiply :: fallbackOperators gaps forced cards
  | gaps + 1, 0, op :: cards => op :: fallbackOperators gaps 0 cards
  | gaps + 1, 0, [] => .add :: fallbackOperators gaps 0 []

/-- The numbers in held order with the roots on the first ones. It may break the rules where the
hand leaves no other way. -/
def Hand.fallback (hand : Hand) : Expression :=
  let numbers := hand.numberValues.map CardValue.toFloat
  let roots := hand.rootCount
  { terms := numbers.zipIdx.map fun (value, i) => ⟨value, decide (i < roots)⟩
    connectives := fallbackOperators (numbers.length - 1) hand.multiplyCount hand.operatorValues }

/-- The distance of a value to a target; an undefined or missing value is infinitely far. -/
def distanceTo (value : Option Float) (target : Int) : Except Error Float :=
  match value with
  | none => .ok infiniteDistance
  | some x =>
    if x.isNaN then .ok infiniteDistance
    else
      match doubleOfInt? target with
      | some aim => .ok (x - aim).abs
      | none => .error .integerTooLarge

def playSmart (hand : Hand) (target : Int) : Except Error Expression := do
  let outcome ← Search.search .standard hand target
  let found := outcome.expression
  if (found.validate hand).valid then return found else return hand.fallback

def Strategy.play (strategy : Strategy) (hand : Hand) (target : Int) : Except Error Expression :=
  match strategy with
  | .basic => .ok hand.fallback
  | .smart => playSmart hand target

end NumberDuel
