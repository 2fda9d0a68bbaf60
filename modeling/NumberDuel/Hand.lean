import NumberDuel.Card

/-!
# Hands

A hand holds number cards, operator cards and special cards in the order they came, and a set of
operators that are disabled for the round. The special cards are demands: every root and every
forced `×` has to appear in the expression.
-/

namespace NumberDuel

/-- The cards that one side holds for a round. -/
structure Hand where
  numbers : List (Copy CardValue) := []
  operators : List (Copy Operator) := []
  specials : List (Copy Special) := []
  disabled : List Operator := []
  deriving DecidableEq, Repr

namespace Hand

def add (hand : Hand) (card : Card) : Hand :=
  match card.face with
  | .number value => { hand with numbers := hand.numbers ++ [⟨card.serial, value⟩] }
  | .operator op => { hand with operators := hand.operators ++ [⟨card.serial, op⟩] }
  | .special mark => { hand with specials := hand.specials ++ [⟨card.serial, mark⟩] }

/-- Every card held: numbers, then operators, then specials, each in held order. -/
def cards (hand : Hand) : List Card :=
  hand.numbers.map (·.map .number) ++ hand.operators.map (·.map .operator) ++
    hand.specials.map (·.map .special)

def size (hand : Hand) : Nat :=
  hand.numbers.length + hand.operators.length + hand.specials.length

def isEmpty (hand : Hand) : Bool := hand.size == 0

/-- Adds a fresh card with this face, numbered by its place in the hand. -/
def deal (hand : Hand) (face : Face) : Hand := hand.add ⟨hand.size, face⟩

/-- The hand with these cards, numbered from `first` on in the order of `cards`. -/
def ofFaces (first : Nat) (numbers : List CardValue) (operators : List Operator)
    (specials : List Special) : Hand :=
  let tag {α : Type} (start : Nat) (faces : List α) : List (Copy α) :=
    faces.zipIdx start |>.map fun (face, serial) => ⟨serial, face⟩
  { numbers := tag first numbers
    operators := tag (first + numbers.length) operators
    specials := tag (first + numbers.length + operators.length) specials }

def holds (hand : Hand) (card : Card) : Bool := hand.cards.contains card

/-- Takes this very card out of the hand. A card held twice leaves once. -/
def remove (hand : Hand) (card : Card) : Hand :=
  match card.face with
  | .number _ => { hand with numbers := hand.numbers.eraseP (·.isSame card) }
  | .operator _ => { hand with operators := hand.operators.eraseP (·.isSame card) }
  | .special _ => { hand with specials := hand.specials.eraseP (·.isSame card) }

def numberValues (hand : Hand) : List CardValue := hand.numbers.map (·.face)

def countSpecial (hand : Hand) (mark : Special) : Nat := hand.specials.countP (·.face == mark)

def multiplyCount (hand : Hand) : Nat := hand.countSpecial .multiply

def rootCount (hand : Hand) : Nat := hand.countSpecial .squareRoot

def isEnabled (hand : Hand) (op : Operator) : Bool := !hand.disabled.contains op

def disable (hand : Hand) (op : Operator) : Hand :=
  { hand with disabled := hand.disabled.insert op }

def operatorValues (hand : Hand) : List Operator := hand.operators.map (·.face)

/-- The enabled operators held, in held order and with repetitions: each card once. -/
def operatorPool (hand : Hand) : List Operator := hand.operatorValues.filter hand.isEnabled

/-- The distinct enabled operators held, in the order they first appear. -/
def availableOperators (hand : Hand) : List Operator := hand.operatorPool.eraseDups

def text (hand : Hand) : String := ", ".intercalate (hand.cards.map (·.face.text))

def describe (hand : Hand) : String :=
  "Hand(" ++ toString hand.numbers.length ++ " numbers, " ++ toString hand.operators.length ++
    " operators, " ++ toString hand.specials.length ++ " specials)"

end Hand

end NumberDuel
