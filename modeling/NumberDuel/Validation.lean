import NumberDuel.Expression
import NumberDuel.Hand

/-!
# The rules for a submission

An expression has to use the number cards of its hand exactly, as a multiset, exactly as many
roots and `×` as the hand demands, and no disabled operator. The rules are checked in a fixed
order, and the first one that is broken is reported with the amount by which it is.
-/

namespace NumberDuel

inductive Breach where
  | empty
  | incomplete
  | notFinite (value : Float)
  | numberShort (value : Int) (count : Nat)
  | numberSurplus (value : Int) (count : Nat)
  | rootShort (count : Nat)
  | rootSurplus (count : Nat)
  | multiplyShort (count : Nat)
  | multiplySurplus (count : Nat)
  | disabledOperator (op : Operator)

namespace Breach

def short (subject : String) (count : Nat) : String :=
  subject ++ " must be used " ++ toString count ++ " more time(s)."

def surplus (subject : String) (count : Nat) : String :=
  subject ++ " was used " ++ toString count ++ " time(s) too many."

def nonFiniteText (x : Float) : String :=
  match Reading.ofFloat x with
  | .infinite negative => Decimal.infinity negative
  | _ => Decimal.undefined

def detail : Breach → String
  | empty => "The expression is empty."
  | incomplete => "The expression is not complete."
  | notFinite value => "Number " ++ nonFiniteText value ++ " is not a card value."
  | numberShort value count => short ("Number " ++ toString value) count
  | numberSurplus value count => surplus ("Number " ++ toString value) count
  | rootShort count => short "√" count
  | rootSurplus count => surplus "√" count
  | multiplyShort count => short "×" count
  | multiplySurplus count => surplus "×" count
  | disabledOperator op => "Disabled operator used: " ++ op.symbol

end Breach

namespace Expression

def checkCount (required used : Nat) (short surplus : Nat → Breach) : Option Breach :=
  if used < required then some (short (required - used))
  else if required < used then some (surplus (used - required))
  else none

def checkNotEmpty (e : Expression) : Option Breach := if e.isEmpty then some .empty else none

def checkComplete (e : Expression) : Option Breach :=
  if e.isComplete then none else some .incomplete

def checkFinite (e : Expression) : Option Breach :=
  (e.values.find? fun x => !x.isFinite).map .notFinite

/-- The terms as whole numbers, a half to the even neighbour. -/
def roundedValues (e : Expression) : List Int := e.values.filterMap roundHalfEven?

/-- Each number of the hand in held order, then each other number the expression uses. -/
def checkCounts (held used : List Int) : Option Breach :=
  (held ++ used.filter fun n => !held.contains n).eraseDups.findSome? fun n =>
    checkCount (held.count n) (used.count n) (.numberShort n) (.numberSurplus n)

def checkNumbers (e : Expression) (hand : Hand) : Option Breach :=
  e.checkFinite <|> checkCounts (hand.numberValues.map fun v => (v.val : Int)) e.roundedValues

def checkRoots (e : Expression) (hand : Hand) : Option Breach :=
  checkCount hand.rootCount e.rootCount .rootShort .rootSurplus

def checkMultiplies (e : Expression) (hand : Hand) : Option Breach :=
  checkCount hand.multiplyCount (e.count .multiply) .multiplyShort .multiplySurplus

/-- No disabled operator; `×` is never treated as disabled. -/
def checkDisabled (e : Expression) (hand : Hand) : Option Breach :=
  (e.connectives.find? fun op => op != .multiply && !hand.isEnabled op).map .disabledOperator

def breach? (e : Expression) (hand : Hand) : Option Breach :=
  e.checkNotEmpty <|> e.checkComplete <|> e.checkNumbers hand <|> e.checkRoots hand <|>
    e.checkMultiplies hand <|> e.checkDisabled hand

end Expression

structure Verdict where
  valid : Bool := true
  message : String := ""
  reasons : List String := []
  deriving DecidableEq, Repr

namespace Verdict

def refusal : String := "The expression does not satisfy this hand's rules."

def detail (v : Verdict) : String := v.reasons.headD ""

/-- Refuses the submission; an empty reason is not recorded. -/
def reject (v : Verdict) (reason : String) : Verdict :=
  { valid := false
    message := refusal
    reasons := if reason.isEmpty then v.reasons else v.reasons ++ [reason] }

end Verdict

def Expression.validate (e : Expression) (hand : Hand) : Verdict :=
  match e.breach? hand with
  | none => {}
  | some breach => ({} : Verdict).reject breach.detail

end NumberDuel
