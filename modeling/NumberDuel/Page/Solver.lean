import NumberDuel.Page.Session
import NumberDuel.Report.Solution
import NumberDuel.Text.Integer

/-!
# The solver tab

The solver takes number cards as text, operator cards and special cards, and shows the best
expression for a target.
-/

namespace NumberDuel.Page

def operatorChoices : List Operator := Solution.usualOperators

def splitAtCommas : List Char → List (List Char)
  | [] => [[]]
  | ',' :: rest => [] :: splitAtCommas rest
  | c :: rest =>
    match splitAtCommas rest with
    | [] => [[c]]
    | part :: parts => (c :: part) :: parts

/-- The whole numbers of a text: blanks are dropped, and so are empty parts. -/
def readNumbers? (s : String) : Option (List Int) :=
  let parts := splitAtCommas (s.toList.filter (· != ' '))
  (parts.filter (!·.isEmpty)).mapM fun part => Text.readInteger? (String.ofList part)

def solutionElements (s : Solution) : List Element :=
  if s.valid then
    [.text .success ("**" ++ s.expression ++ "** = " ++ Decimal.fixed 2 s.value),
      .metric "Distance to target" (Decimal.fixed 2 s.distance)]
  else
    .text .error ("No legal expression for this hand: " ++ s.error) ::
      if s.expression.isEmpty then []
      else [.text .caption ("Closest attempt: " ++ s.expression)]

def solverInputs (i : Inputs) : List Element :=
  [.text .subheader "Find the best expression",
    .line .numbers i.numbers,
    .integer .target i.target none,
    .several .operators i.operators (operatorChoices.map Operator.symbol),
    .integer .multiplies i.multiplies (some .ofSpecials),
    .integer .roots i.roots (some .ofSpecials),
    .button .solve "Solve" false]

def Inputs.hand (i : Inputs) (numbers : List Int) : Hand :=
  let operators := i.operators.filterMap fun symbol =>
    operatorChoices.find? fun op => op.symbol == symbol
  let specials := List.replicate i.multiplies.toNat Special.multiply ++
    List.replicate i.roots.toNat .squareRoot
  .ofFaces 0 (numbers.map CardValue.ofInt) operators specials

def solvedPart (s : Session) (hand : Hand) : Part :=
  let target := s.inputs.target
  let s := s.keep [.solved hand target]
  match Solution.solve hand target with
  | .ok solution => ⟨s, solverInputs s.inputs ++ solutionElements solution, .next⟩
  | .error e => ⟨s, solverInputs s.inputs, .stop e⟩

/-- The solver tab. A text that holds no number shows nothing. -/
def solverTab (s : Session) (pressed : Option Button) : Part :=
  let inputs := solverInputs s.inputs
  if pressed = some .solve then
    match readNumbers? s.inputs.numbers with
    | none => ⟨s, inputs ++ [.text .error "Number cards must be whole numbers."], .next⟩
    | some [] => ⟨s, inputs, .next⟩
    | some numbers => solvedPart s (s.inputs.hand numbers)
  else ⟨s, inputs, .next⟩

end NumberDuel.Page
