import NumberDuel.Evaluation
import NumberDuel.Search.Space
import NumberDuel.Validation

/-!
# The expression closest to a target

The search visits every arrangement of a hand, drops those that a referee refuses or cannot
evaluate, and keeps the closest one; of equally close ones the first. A hand with special cards
prefers the closest one that uses them all.
-/

namespace NumberDuel.Search

/-- Who judges the arrangements: the rules and the evaluator. -/
structure Referee where
  validate : Expression → Hand → Verdict
  evaluate : Expression → Except Failure Float

def Referee.standard : Referee := ⟨Expression.validate, Expression.evaluate⟩

structure Candidate where
  expression : Expression
  value : Float
  distance : Float

structure Stats where
  orderings : Nat := 0
  candidates : Nat := 0
  invalid : Nat := 0
  failed : Nat := 0
  faults : Nat := 0
  deriving DecidableEq, Repr

structure Outcome where
  best : Option Candidate := none
  prioritized : Option Candidate := none
  prioritizes : Bool := false
  stats : Stats := {}

namespace Outcome

/-- The candidate to play: the prioritized one where the hand has special cards. -/
def chosen (o : Outcome) : Option Candidate :=
  if o.prioritizes then o.prioritized <|> o.best else o.best

/-- The expression to play; the empty one if nothing was found. -/
def expression (o : Outcome) : Expression :=
  match o.chosen with
  | some candidate => candidate.expression
  | none => {}

end Outcome

/-- Whether an expression carries exactly the roots and `×` that a hand demands. -/
def usesSpecials (e : Expression) (hand : Hand) : Bool :=
  e.rootCount == hand.rootCount && e.count .multiply == hand.multiplyCount

/-- Of two candidates the one closer to the target; the held one on a tie. -/
def closer (held : Option Candidate) (found : Candidate) : Option Candidate :=
  match held with
  | none => some found
  | some candidate => if found.distance < candidate.distance then some found else held

def accept (hand : Hand) (found : Candidate) (o : Outcome) : Outcome :=
  { o with
    best := closer o.best found
    prioritized :=
      if o.prioritizes && usesSpecials found.expression hand then closer o.prioritized found
      else o.prioritized }

/-- Judges one arrangement; `aim` is the target as a double. -/
def consider (referee : Referee) (hand : Hand) (aim : Float) (e : Expression) (o : Outcome) :
    Outcome :=
  let o := { o with stats.candidates := o.stats.candidates + 1 }
  if !(referee.validate e hand).valid then
    { o with stats.invalid := o.stats.invalid + 1 }
  else
    match referee.evaluate e with
    | .error (.fault _) => { o with stats.faults := o.stats.faults + 1 }
    | .error _ => { o with stats.failed := o.stats.failed + 1 }
    | .ok value => accept hand ⟨e, value, (value - aim).abs⟩ o

def countOrdering (o : Outcome) : Outcome :=
  { o with stats.orderings := o.stats.orderings + 1 }

def explore (referee : Referee) (hand : Hand) (aim : Float) : Outcome :=
  (Space.ofHand hand).walk countOrdering (consider referee hand aim)
    { prioritizes := decide (0 < hand.rootCount ∨ 0 < hand.multiplyCount) }

/-- Searches a hand. A target beyond the doubles is refused as soon as a distance to it is
wanted, which is so if and only if an arrangement is accepted. -/
def search (referee : Referee) (hand : Hand) (target : Int) : Except Error Outcome :=
  match doubleOfInt? target with
  | some aim => .ok (explore referee hand aim)
  | none =>
    let outcome := explore referee hand 0
    if outcome.best.isSome then .error .integerTooLarge else .ok outcome

end NumberDuel.Search
