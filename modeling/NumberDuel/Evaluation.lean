import NumberDuel.Arithmetic
import NumberDuel.Expression

/-!
# The value of a formula

Roots come first. With precedence, `×` and `÷` bind tighter than `+` and `-`, and operators that
bind alike apply from left to right. The evaluator keeps a stack of operands and a stack of
pending connectives, top first: before a connective is pushed, `settle` applies all pending ones
that bind at least as tight. Without precedence the connectives simply apply from left to right.
-/

namespace NumberDuel

namespace Calculus

variable {ω α : Type}

def combineTop (c : Calculus ω α) (op : ω) : List α → Except Failure (List α)
  | right :: left :: operands => (c.apply left op right).map (· :: operands)
  | _ => .error (.fault .operandUnderflow)

def reduce (c : Calculus ω α) (operands : List α) :
    List ω → Except Failure (List α × List ω)
  | op :: pending => (c.combineTop op operands).map (·, pending)
  | [] =>
    if operands.length < 2 then .error (.fault .operandUnderflow)
    else .error (.fault .nothingPending)

/-- Applies pending connectives from the top for as long as they bind at least as tight as
`level`. -/
def settle (c : Calculus ω α) (level : Nat) (operands : List α) :
    List ω → Except Failure (List α × List ω)
  | [] => .ok (operands, [])
  | op :: pending =>
    if level ≤ c.precedence op then
      match c.combineTop op operands with
      | .error failure => .error failure
      | .ok operands => c.settle level operands pending
    else .ok (operands, op :: pending)

/-- Reads connectives with the number behind each, onto the two stacks. -/
def scan (c : Calculus ω α) :
    List (ω × α) → List α → List ω → Except Failure (List α × List ω)
  | [], operands, pending => .ok (operands, pending)
  | (op, number) :: rest, operands, pending =>
    match c.settle (c.precedence op) operands pending with
    | .error failure => .error failure
    | .ok (operands, pending) => c.scan rest (number :: operands) (op :: pending)

def single : List α → Except Failure α
  | [value] => .ok value
  | operands => .error (.fault (.operandsLeft operands.length))

/-- The value with precedence. Numbers and connectives without a partner are not read. -/
def withPrecedence (c : Calculus ω α) (numbers : List α) (connectives : List ω) :
    Except Failure α :=
  match numbers with
  | [] => .error (.fault .noOperand)
  | first :: rest => do
    let (operands, pending) ← c.scan (connectives.zip rest) [first] []
    let (operands, _) ← c.settle 0 operands pending
    single operands

/-- The value from left to right. Numbers and connectives without a partner are not read. -/
def leftToRight (c : Calculus ω α) (numbers : List α) (connectives : List ω) :
    Except Failure α :=
  match numbers with
  | [] => .error (.fault .noOperand)
  | first :: rest =>
    (connectives.zip rest).foldlM (fun value (op, number) => c.apply value op number) first

/-- The values of the terms, roots applied from the first term on. -/
def rootedValues (c : Calculus ω α) (terms : List (Term α)) : Except Failure (List α) :=
  terms.mapM fun t => if t.rooted then c.root t.value else .ok t.value

def run (c : Calculus ω α) (combine : List α → List ω → Except Failure α)
    (e : Formula ω α) : Except Failure α :=
  if e.isEmpty then .error .empty
  else if !e.isComplete then .error .incomplete
  else do combine (← c.rootedValues e.terms) e.connectives

def evaluate (c : Calculus ω α) (e : Formula ω α) : Except Failure α :=
  c.run c.withPrecedence e

def evaluateSimple (c : Calculus ω α) (e : Formula ω α) : Except Failure α :=
  c.run c.leftToRight e

end Calculus

def Expression.evaluate (e : Expression) : Except Failure Float := doubles.calculus.evaluate e

/-- The outcome of an evaluation as it is reported. -/
structure Evaluation where
  success : Bool := true
  value : Float := 0
  message : String := ""
  fault : Bool := false

namespace Evaluation

def failed (message : String) (fault : Bool) : Evaluation :=
  { success := false, value := undefinedValue, message := message, fault := fault }

def ofResult : Except Failure Float → Evaluation
  | .ok value => { value := value }
  | .error failure => failed failure.message failure.isFault

end Evaluation

end NumberDuel
