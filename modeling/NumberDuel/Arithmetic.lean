import NumberDuel.Card

/-!
# Arithmetic on the terms of a formula

An `Arithmetic` says what the four operators and the root mean on a type of values: only the
quotient and the root can be missing. A `Calculus` is what the evaluator needs: how tight a
connective binds, what it does to two values, and what a root does to one. Every arithmetic is
the calculus of its operators; `Arithmetic.mixed` extends it to special marks, which no rule
can apply.
-/

namespace NumberDuel

/-- Defects of the evaluator's own bookkeeping. -/
inductive Fault where
  | unknownConnective (mark : Special)
  | operandUnderflow
  | operandsLeft (count : Nat)
  | nothingPending
  | noOperand
  deriving DecidableEq, Repr

def Fault.message : Fault → String
  | .unknownConnective mark =>
    "Unknown operator: <SpecialType." ++ mark.name ++ ": " ++ Text.quote mark.symbol ++ ">"
  | .operandUnderflow => "Operand stack underflow"
  | .operandsLeft count => toString count ++ " operands left after evaluation"
  | .nothingPending => "pop from empty list"
  | .noOperand => "list index out of range"

/-- Why a formula has no value. -/
inductive Failure where
  | empty
  | incomplete
  | negativeRoot
  | divisionByZero
  | fault (defect : Fault)
  deriving DecidableEq, Repr

namespace Failure

/-- The wording of a failure; a defect is not explained to the player. -/
def message : Failure → String
  | empty => "Empty expression."
  | incomplete => "Incomplete expression."
  | negativeRoot => "Negative argument to unary root."
  | divisionByZero => "Division by zero."
  | fault _ => "Internal evaluation error."

def isFault : Failure → Bool
  | fault _ => true
  | _ => false

end Failure

/-- The four operators and the root on a type of values. -/
structure Arithmetic (α : Type) where
  add : α → α → α
  subtract : α → α → α
  multiply : α → α → α
  divide? : α → α → Option α
  root? : α → Option α

/-- What an evaluator needs to know of connectives and roots. -/
structure Calculus (ω α : Type) where
  precedence : ω → Nat
  apply : α → ω → α → Except Failure α
  root : α → Except Failure α

namespace Arithmetic

variable {α : Type}

def apply (a : Arithmetic α) (left : α) (op : Operator) (right : α) : Except Failure α :=
  match op with
  | .add => .ok (a.add left right)
  | .subtract => .ok (a.subtract left right)
  | .multiply => .ok (a.multiply left right)
  | .divide =>
    match a.divide? left right with
    | some value => .ok value
    | none => .error .divisionByZero

def root (a : Arithmetic α) (x : α) : Except Failure α :=
  match a.root? x with
  | some value => .ok value
  | none => .error .negativeRoot

def calculus (a : Arithmetic α) : Calculus Operator α where
  precedence := Operator.precedence
  apply := a.apply
  root := a.root

/-- The calculus in which a special mark may stand where an operator belongs. -/
def mixed (a : Arithmetic α) : Calculus (Operator ⊕ Special) α where
  precedence
    | .inl op => op.precedence
    | .inr _ => 0
  apply left connective right :=
    match connective with
    | .inl op => a.apply left op right
    | .inr mark => .error (.fault (.unknownConnective mark))
  root := a.root

end Arithmetic

/-- A divisor this close to zero counts as zero. -/
def zeroTolerance : Float := 1e-6

def undefinedValue : Float := 0.0 / 0.0

def infiniteDistance : Float := 1.0 / 0.0

/-- Arithmetic on doubles: a quotient needs a divisor that is not close to zero, and a root an
argument that is not negative. -/
def doubles : Arithmetic Float where
  add := (· + ·)
  subtract := (· - ·)
  multiply := (· * ·)
  divide? left right := if isClose zeroTolerance right 0 then none else some (left / right)
  root? x := if x < 0 then none else some x.sqrt

/-- What a special card does to a number: a root card takes the root, which is undefined for a
negative number, and every other card leaves the number as it is. -/
def Special.applyTo (mark : Special) (x : Float) : Float :=
  match mark with
  | .squareRoot => if x < 0 then undefinedValue else x.sqrt
  | .multiply => x

end NumberDuel
