import NumberDuel.Strategy

/-!
# Solving a hand

The best expression for a hand that is given by plain values, with its value, its distance, and
what is wrong with it where the hand has no legal expression.
-/

namespace NumberDuel

structure Solution where
  expression : String
  value : Float
  distance : Float
  valid : Bool
  error : String := ""

namespace Solution

/-- The operators of a hand that names none. -/
def usualOperators : List Operator := [.add, .subtract, .divide]

def ofExpression (e : Expression) (hand : Hand) (target : Int) : Except Error Solution :=
  let verdict := e.validate hand
  match e.evaluate with
  | .error failure =>
    .ok { expression := e.text
          value := undefinedValue
          distance := infiniteDistance
          valid := false
          error := failure.message }
  | .ok value =>
    match doubleOfInt? target with
    | none => .error .integerTooLarge
    | some aim =>
      .ok { expression := e.text
            value := value
            distance := (value - aim).abs
            valid := verdict.valid
            error := verdict.detail }

def solve (hand : Hand) (target : Int) : Except Error Solution := do
  ofExpression (← playSmart hand target) hand target

end Solution

end NumberDuel
