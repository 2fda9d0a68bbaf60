import NumberDuel.Card
import NumberDuel.Decimal.Fixed

/-!
# Expressions

A formula is a row of terms and a row of connectives: term, connective, term, connective, term.
The two rows are kept apart, so a formula may also be in the making: while it is built in turn,
it either expects a term or a connective. It is complete when one connective stands between each
two terms. The value type and the type of connectives are parameters; an `Expression` has doubles
and the four operators.
-/

namespace NumberDuel

/-- One number of a formula, maybe under a square root. -/
structure Term (α : Type) where
  value : α
  rooted : Bool := false
  deriving DecidableEq, Repr

/-- Terms and the connectives between them. -/
structure Formula (ω α : Type) where
  terms : List (Term α) := []
  connectives : List ω := []
  deriving DecidableEq, Repr

/-- What a side submits for a round. -/
abbrev Expression := Formula Operator Float

/-- A number with at most two places, zeros at the end dropped and zero without a sign. -/
def formatNumber (x : Float) : String :=
  let text := Decimal.dropTrailing '.' (Decimal.dropTrailing '0' (Decimal.fixed 2 x))
  if text = "-0" then "0" else text

def Term.text (t : Term Float) : String :=
  (if t.rooted then "√" else "") ++ formatNumber t.value

namespace Formula

variable {ω α : Type}

def addNumber (e : Formula ω α) (value : α) (rooted : Bool) : Formula ω α :=
  { e with terms := e.terms ++ [⟨value, rooted⟩] }

def addConnective (e : Formula ω α) (op : ω) : Formula ω α :=
  { e with connectives := e.connectives ++ [op] }

def isEmpty (e : Formula ω α) : Bool := e.terms.isEmpty

/-- One connective between each two terms. -/
def isComplete (e : Formula ω α) : Bool :=
  !e.terms.isEmpty && e.connectives.length + 1 == e.terms.length

/-- As many connectives as terms, so a number comes next. -/
def expectsNumber (e : Formula ω α) : Bool := e.terms.length == e.connectives.length

/-- Takes back one step: the last connective of a complete formula, otherwise the last number. -/
def removeLast (e : Formula ω α) : Formula ω α :=
  if !e.connectives.isEmpty && e.connectives.length + 1 == e.terms.length then
    { e with connectives := e.connectives.dropLast }
  else { e with terms := e.terms.dropLast }

def rootCount (e : Formula ω α) : Nat := e.terms.countP (·.rooted)

def count [BEq ω] (e : Formula ω α) (op : ω) : Nat := e.connectives.count op

def values (e : Formula ω α) : List α := e.terms.map (·.value)

def rootFlags (e : Formula ω α) : List Bool := e.terms.map (·.rooted)

/-- Terms and connectives in turn. Connectives beyond the last term are not shown. -/
def interleave (term : Term α → String) (connective : ω → String) :
    List (Term α) → List ω → List String
  | [], _ => []
  | t :: ts, [] => term t :: interleave term connective ts []
  | t :: ts, op :: ops => term t :: connective op :: interleave term connective ts ops

def render (connective : ω → String) (e : Formula ω Float) : String :=
  " ".intercalate (interleave Term.text connective e.terms e.connectives)

end Formula

namespace Expression

def text (e : Expression) : String := e.render Operator.symbol

def ofParts (numbers : List Float) (roots : List Bool) (operators : List Operator) : Expression :=
  { terms := List.zipWith Term.mk numbers roots
    connectives := operators.take numbers.length }

/-- The terms made of numbers and their root flags; every number needs a flag. -/
def readTerms : List Quantity → List Bool → Except Error (List (Term Float))
  | [], _ => .ok []
  | _ :: _, [] => .error .missingRootFlag
  | n :: numbers, rooted :: roots => do
    let value ← n.toFloat
    return ⟨value, rooted⟩ :: (← readTerms numbers roots)

def build (numbers : List Quantity) (roots : List Bool) (operators : List Operator) :
    Except Error Expression := do
  let terms ← readTerms numbers roots
  return { terms := terms, connectives := operators.take numbers.length }

/-- Same terms and same operators; as for doubles, the two zeros are equal. -/
def equal (a b : Expression) : Bool :=
  a.connectives == b.connectives && a.terms.length == b.terms.length &&
    (List.zip a.terms b.terms).all fun (s, t) => s.value == t.value && s.rooted == t.rooted

end Expression

end NumberDuel
