import NumberDuel.Decimal.Shortest
import NumberDuel.Report.Match

/-!
# A tour of the game

Five sections show by example how expressions are evaluated, how they are checked, how the search
works, and how a round and a match go.
-/

namespace NumberDuel.Tour

def plain (numbers : List Nat) (operators : List Operator) : Expression :=
  { terms := numbers.map fun n => ⟨Float.ofNat n, false⟩, connectives := operators }

def titled (title : String) : String :=
  rule '=' 60 ++ "\n" ++ title ++ "\n" ++ rule '=' 60 ++ "\n"

def samples : List Expression :=
  [plain [4, 3, 2] [.multiply, .add], plain [2, 3, 4] [.add, .multiply],
    plain [8, 2, 2] [.divide, .divide],
    { terms := [⟨9, true⟩, ⟨1, false⟩], connectives := [.subtract] },
    plain [5, 0] [.divide]]

def valueText (result : Except Failure Float) : String :=
  match result with
  | .ok value => Decimal.general value
  | .error _ => Decimal.undefined

def evaluationText (e : Expression) : String :=
  "\n" ++ e.text ++ "\n" ++
    match e.evaluate with
    | .ok value =>
      "  With precedence: " ++ Decimal.general value ++ "\n  Left to right:   " ++
        valueText (doubles.calculus.evaluateSimple e) ++ "\n"
    | .error failure => "  Failed: " ++ failure.message ++ "\n"

def evaluation : Printed Unit := do
  .say (titled "EVALUATION DEMO")
  samples.forM fun e => .say (evaluationText e)

def validationHand : Hand :=
  .ofFaces 0 [4, 5, 1] [.add, .subtract, .divide] [.multiply]

def submissions : List Expression :=
  [plain [4, 5, 1] [.multiply, .add], plain [4, 5, 1] [.add, .add], plain [4, 5] [.multiply],
    plain [4, 5] [.multiply, .subtract]]

def validationText (e : Expression) : String :=
  let verdict := e.validate validationHand
  "  " ++ Decimal.alignLeft 16 e.text ++ " " ++
    (if verdict.valid then "OK" else "REJECTED - " ++ verdict.detail) ++ "\n"

def validation : Printed Unit := do
  .say ("\n" ++ titled "VALIDATION DEMO" ++ "\nHand: " ++ validationHand.text ++ "\n")
  submissions.forM fun e => do
    .note (.validated e validationHand)
    .say (validationText e)

def searches : List (Hand × Int) :=
  [(.ofFaces 0 [4, 5, 10] [.add, .subtract, .divide] [], 20),
    (.ofFaces 0 [9, 2, 7] [.add, .subtract, .divide] [.squareRoot], 1),
    (.ofFaces 0 [3, 6, 8, 2] [.add, .subtract, .divide] [.multiply], 20)]

def searchText (hand : Hand) (target : Int) (outcome : Search.Outcome) : String :=
  "\nHand: " ++ hand.text ++ " | Target: " ++ toString target ++ "\n" ++
    match outcome.chosen with
    | none => "  No legal expression\n"
    | some c =>
      "  Best: " ++ c.expression.text ++ " = " ++ Decimal.fixed 2 c.value ++
        " (off by " ++ Decimal.fixed 2 c.distance ++ ")\n  Searched " ++
        toString outcome.stats.orderings ++ " orderings, " ++
        toString outcome.stats.candidates ++ " candidates\n"

def search : Printed Unit := do
  .say ("\n" ++ titled "SEARCH DEMO")
  searches.forM fun (hand, target) => do
    .note (.searched hand target)
    let outcome ← Search.search .standard hand target
    .say (searchText hand target outcome)

def singleRound : Printed Unit := do
  .say ("\n" ++ titled "SINGLE ROUND DEMO")
  let (g, result) ← .ofGame ((Game.start .standard 7 "standard").playRound {} none (some 3))
  .say ("\n" ++ result.detail ++ "\n  " ++ result.summary ++ "\n  Credits: player $" ++
    toString g.playerCredits ++ " / AI $" ++ toString g.aiCredits ++ "\n")

def wholeMatch : Printed Unit := do
  .say ("\n" ++ titled "FULL MATCH DEMO")
  let report ← MatchReport.ofPreset .standard "standard" none 42
  .say (report.text ++ "\n")
  (report.rounds.take 5).forM fun d =>
    .say ("  Round " ++ toString d.round ++ ": target " ++ toString d.target ++ " -> " ++
      d.winner ++ "\n")

def section? (name : String) : Option (Printed Unit) :=
  match name with
  | "evaluation" => some evaluation
  | "validation" => some validation
  | "search" => some search
  | "single_round" => some singleRound
  | "match" => some wholeMatch
  | _ => none

end NumberDuel.Tour
