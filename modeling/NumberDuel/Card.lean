import NumberDuel.Decimal.Dyadic
import NumberDuel.Error

/-!
# Cards

A card shows a number from 0 to 10, a binary operator, or a special mark: a forced `×` or a `√`.
Two cards may show the same face, so each physical card is a `Copy` with a serial number, which
tells it from all others on the table.
-/

namespace NumberDuel

inductive Operator where
  | add
  | subtract
  | multiply
  | divide
  deriving DecidableEq, Repr

namespace Operator

def all : List Operator := [add, subtract, multiply, divide]

def name : Operator → String
  | add => "ADD"
  | subtract => "SUBTRACT"
  | multiply => "MULTIPLY"
  | divide => "DIVIDE"

def symbol : Operator → String
  | add => "+"
  | subtract => "-"
  | multiply => "×"
  | divide => "÷"

/-- Binding strength: `×` and `÷` bind tighter than `+` and `-`. -/
def precedence : Operator → Nat
  | add | subtract => 1
  | multiply | divide => 2

def ofSymbol (text : String) : Except Error Operator :=
  match all.find? (·.symbol == text) with
  | some op => .ok op
  | none => .error (.unknownWord .operator text)

/-- Every operator is found under its own sign. -/
theorem ofSymbol_symbol (op : Operator) : ofSymbol op.symbol = .ok op := by
  cases op <;> rfl

theorem symbol_injective : Function.Injective symbol := by
  intro op op' same
  have found := ofSymbol_symbol op
  rw [same, ofSymbol_symbol op'] at found
  exact (Except.ok.inj found).symm

end Operator

inductive Special where
  /-- Forces a `×` into the expression. -/
  | multiply
  /-- Puts a root on one number. -/
  | squareRoot
  deriving DecidableEq, Repr

namespace Special

def all : List Special := [multiply, squareRoot]

def name : Special → String
  | multiply => "MULTIPLY"
  | squareRoot => "SQUARE_ROOT"

def symbol : Special → String
  | multiply => "×"
  | squareRoot => "√"

/-- The root acts on one number, the forced `×` stands between two. -/
def isUnary : Special → Bool
  | multiply => false
  | squareRoot => true

def ofSymbol (text : String) : Except Error Special :=
  match all.find? (·.symbol == text) with
  | some mark => .ok mark
  | none => .error (.unknownWord .special text)

/-- Every special mark is found under its own sign. -/
theorem ofSymbol_symbol (mark : Special) : ofSymbol mark.symbol = .ok mark := by
  cases mark <;> rfl

end Special

def maxCardValue : Nat := 10

abbrev CardValue := Fin (maxCardValue + 1)

namespace CardValue

/-- The card value nearest to a whole number. -/
def ofInt (n : Int) : CardValue :=
  ⟨min n.toNat maxCardValue, Nat.lt_succ_of_le (Nat.min_le_right _ _)⟩

/-- The card value nearest to the whole part of a double. -/
def ofFloat (x : Float) : Except Error CardValue :=
  match Reading.ofFloat x with
  | .notANumber => .error .undefinedCardValue
  | .infinite _ => .error .infiniteCardValue
  | .finite d => .ok (ofInt d.truncate)

def all : List CardValue := List.finRange (maxCardValue + 1)

def toFloat (v : CardValue) : Float := Float.ofNat v.val

end CardValue

inductive CardKind where
  | number
  | operator
  | special
  deriving DecidableEq, Repr

def CardKind.label : CardKind → String
  | number => "Number"
  | operator => "Operator"
  | special => "Special"

inductive Face where
  | number (value : CardValue)
  | operator (op : Operator)
  | special (mark : Special)
  deriving DecidableEq, Repr

namespace Face

def kind : Face → CardKind
  | number _ => .number
  | operator _ => .operator
  | special _ => .special

def text : Face → String
  | number value => toString value.val
  | operator op => op.symbol
  | special mark => mark.symbol

/-- The card in full: its kind, its face, and for a special one whether it is consumed. -/
def describe (consumed : Bool) (face : Face) : String :=
  match face with
  | number _ => "NumberCard(" ++ face.text ++ ")"
  | operator _ => "OperatorCard(" ++ face.text ++ ")"
  | special _ => "SpecialCard(" ++ face.text ++ (if consumed then ", consumed)" else ")")

end Face

/-- One physical card: the serial number tells it from every other card with the same face. -/
structure Copy (α : Type) where
  serial : Nat
  face : α
  deriving DecidableEq, Repr

abbrev Card := Copy Face

namespace Copy

def map {α β : Type} (f : α → β) (c : Copy α) : Copy β := ⟨c.serial, f c.face⟩

/-- One and the same physical card. -/
def isSame {α β : Type} (a : Copy α) (b : Copy β) : Bool := a.serial == b.serial

end Copy

/-- A set of physical cards, kept as their serial numbers. -/
structure CardSet where
  serials : List Nat := []
  deriving DecidableEq, Repr

namespace CardSet

variable {α : Type}

def has (s : CardSet) (c : Copy α) : Bool := s.serials.contains c.serial

def insert (s : CardSet) (c : Copy α) : CardSet := ⟨s.serials.insert c.serial⟩

def erase (s : CardSet) (c : Copy α) : CardSet := ⟨s.serials.filter (· != c.serial)⟩

def eraseAll (s : CardSet) (cards : List (Copy α)) : CardSet :=
  cards.foldl erase s

end CardSet

/-- A number as it is handed in: whole, or a double. -/
inductive Quantity where
  | whole (n : Int)
  | double (x : Float)

namespace Quantity

def toFloat : Quantity → Except Error Float
  | double x => .ok x
  | whole n =>
    match doubleOfInt? n with
    | some x => .ok x
    | none => .error .integerTooLarge

/-- The value of the number card made from a quantity. -/
def toCardValue : Quantity → Except Error CardValue
  | whole n => .ok (CardValue.ofInt n)
  | double x => CardValue.ofFloat x

end Quantity

end NumberDuel
