import NumberDuel.Builder
import NumberDuel.Decimal.Shortest
import NumberDuel.Log
import NumberDuel.Note

/-!
# What the log says

The log is a view of what the game does: each operation that has something to report has a
function here that lists its records in order. The operations themselves know nothing of it.
-/

namespace NumberDuel.Journal

open Log

def ofValidation (e : Expression) (hand : Hand) : List Record :=
  match e.breach? hand with
  | none => []
  | some breach =>
    [⟨.debug, .validator, "Rejected '" ++ e.text ++ "': " ++ breach.detail⟩]

def ofEvaluation {ω : Type} (connective : ω → String) (e : Formula ω Float)
    (result : Except Failure Float) : List Record :=
  match result with
  | .error (.fault defect) =>
    [⟨.error, .evaluator,
      "Evaluation fault on '" ++ e.render connective ++ "': " ++ defect.message⟩]
  | _ => []

def ofRoot (mark : Special) (consumed : Bool) (x : Float) : List Record :=
  match mark with
  | .multiply =>
    [⟨.warning, .cards,
      (Face.special mark).describe consumed ++ " is not a square root card"⟩]
  | .squareRoot =>
    if x < 0 then
      [⟨.warning, .cards, "Cannot take the square root of " ++ Decimal.exact x⟩]
    else []

def ofPick (b : Builder) (card : Option Card) : List Record :=
  match card, b.hand with
  | some card, some hand =>
    if hand.holds card then []
    else
      [⟨.warning, .builder,
        "Card " ++ card.face.describe (b.consumed.has card) ++ " is not in this hand"⟩]
  | _, _ => []

def numberList (items : List Nat) : String :=
  "[" ++ ", ".intercalate (items.map toString) ++ "]"

def targetText (target : Option Int) : String := target.elim "None" toString

def searchStart (hand : Hand) (target : Option Int) : Record :=
  ⟨.debug, .strategy,
    "Searching target=" ++ targetText target ++
      " numbers=" ++ numberList (hand.numberValues.map (·.val)) ++
      " operators=" ++ Text.quoteList (hand.operatorPool.map Operator.symbol) ++
      " √=" ++ toString hand.rootCount ++ " ×=" ++ toString hand.multiplyCount⟩

def searchRefused (space : Search.Space) : Search.Infeasible → List Record
  | .noNumbers => []
  | .tooManyMultiplies =>
    [⟨.debug, .strategy,
      "Infeasible: " ++ toString space.multiplies ++ " forced × for " ++ toString space.gaps ++
        " gaps"⟩]
  | .tooFewOperators =>
    [⟨.debug, .strategy,
      "Infeasible: " ++ toString (space.gaps - space.multiplies) ++
        " gaps need operator cards, " ++ toString space.pool.length ++ " held"⟩]

def searchEnd (stats : Search.Stats) : Record :=
  ⟨.debug, .strategy,
    "Search done: " ++ toString stats.orderings ++ " orderings, " ++
      toString stats.candidates ++ " candidates (" ++ toString stats.invalid ++ " invalid, " ++
      toString stats.failed ++ " failed, " ++ toString stats.faults ++ " faults)"⟩

/-- The records of the arrangements that a walk refuses, the last one first, and whether the walk
has stopped: it does so at the first accepted arrangement when no distance can be told. -/
structure Walk where
  records : List Record := []
  stopped : Bool := false

def Walk.step (referee : Search.Referee) (hand : Hand) (target : Option Float)
    (e : Expression) (w : Walk) : Walk :=
  if w.stopped then w
  else
    let accepted := (referee.validate e hand).valid && (referee.evaluate e).toBool
    { records := (ofValidation e hand).reverse ++ w.records
      stopped := accepted && target.isNone }

def ofSearch (referee : Search.Referee) (hand : Hand) (target : Option Int) : List Record :=
  let space := Search.Space.ofHand hand
  searchStart hand target ::
    match space.infeasible? with
    | some reason => searchRefused space reason
    | none =>
      let aim := target.bind doubleOfInt?
      let walk := space.walk id (Walk.step referee hand aim) ({} : Walk)
      let stats := (Search.explore referee hand (aim.getD 0)).stats
      walk.records.reverse ++ (if walk.stopped then [] else [searchEnd stats])

def ofSmart (hand : Hand) (target : Option Int) : List Record :=
  let found := Search.explore .standard hand ((target.bind doubleOfInt?).getD 0)
  let search := ofSearch .standard hand target
  if (target.bind doubleOfInt?).isNone && found.best.isSome then search
  else
    let e := found.expression
    let verdict := e.validate hand
    let last (e : Expression) : Record := ⟨.info, .strategy, "AI chose: " ++ e.text⟩
    search ++ ofValidation e hand ++
      if verdict.valid then [last e]
      else
        let fallback := hand.fallback
        let second := fallback.validate hand
        [⟨.warning, .strategy,
          "Search result is invalid (" ++ verdict.detail ++ "); using fallback"⟩] ++
          ofValidation fallback hand ++
          (if second.valid then []
          else [⟨.warning, .strategy,
            "Fallback expression also breaks the rules: " ++ second.detail⟩]) ++
          [last fallback]

def ofStrategy (strategy : Strategy) (hand : Hand) (target : Option Int) : List Record :=
  match strategy with
  | .basic => []
  | .smart => ofSmart hand target

def ofJudgement (e : Expression) (hand : Hand) : List Record :=
  match ofValidation e hand with
  | [] => ofEvaluation Operator.symbol e e.evaluate
  | records => records

/-- The records of solving a hand: what is played is checked and evaluated once more. -/
def ofSolution (hand : Hand) (target : Int) : List Record :=
  ofSmart hand (some target) ++
    match playSmart hand target with
    | .ok e => ofValidation e hand ++ ofEvaluation Operator.symbol e e.evaluate
    | .error _ => []

def ofNote : Note → List Record
  | .betAdjusted bet allowed limit credits =>
    [⟨.warning, .game,
      "Bet of " ++ toString bet ++ " adjusted to " ++ toString allowed ++
        " (limit " ++ toString limit ++ ", credits " ++ toString credits ++ ")"⟩]
  | .specialDealt mark => [⟨.debug, .game, "Special card dealt: " ++ mark.symbol⟩]
  | .roundDealt round target player ai =>
    [⟨.debug, .game,
      "Round " ++ toString round ++ " dealt: target=" ++ toString target ++
        " player=[" ++ player.text ++ "] ai=[" ++ ai.text ++ "]"⟩]
  | .played strategy hand target => ofStrategy strategy hand target
  | .judged e hand => ofJudgement e hand
  | .settled round result =>
    [⟨.info, .game, "Round " ++ toString round ++ ": " ++ result.summary⟩]
  | .validated e hand => ofValidation e hand
  | .searched hand target => ofSearch .standard hand (some target)
  | .solved hand target => ofSolution hand target

def ofNotes (notes : List Note) : List Record := notes.flatMap ofNote

end NumberDuel.Journal
