import NumberDuel.Datum
import NumberDuel.Evaluation
import NumberDuel.Strategy

/-!
# Scoring a round

Each submission is validated and evaluated on its own; a refused one is infinitely far from the
target. The closer side wins the bet, and sides that are equally far apart from the target share
the round.
-/

namespace NumberDuel

/-- Who wins a round or a match. A round without a legal submission is void. -/
inductive Winner where
  | player
  | ai
  | draw
  | invalid
  deriving DecidableEq, Repr

def Winner.name : Winner → String
  | .player => "PLAYER"
  | .ai => "AI"
  | .draw => "DRAW"
  | .invalid => "INVALID"

structure Judgement where
  evaluation : Evaluation
  distance : Float

def Verdict.explanation (v : Verdict) : String :=
  if v.detail.isEmpty then v.message else v.message ++ " (" ++ v.detail ++ ")"

def judge (e : Expression) (hand : Hand) (target : Int) : Except Error Judgement :=
  let verdict := e.validate hand
  if !verdict.valid then
    .ok ⟨.failed verdict.explanation false, infiniteDistance⟩
  else
    match e.evaluate with
    | .error failure => .ok ⟨.ofResult (.error failure), infiniteDistance⟩
    | .ok value => do
      let distance ← distanceTo (some value) target
      return ⟨.ofResult (.ok value), distance⟩

/-- Distances this close are equal. -/
def distanceTolerance : Float := 1e-6

def decideWinner (player ai : Float) : Winner :=
  if player.isInf && ai.isInf then .invalid
  else if isClose distanceTolerance player ai then .draw
  else if player < ai then .player
  else .ai

/-- The outcome of one side in a round. -/
structure SideResult where
  expression : String := "-"
  value : Float := undefinedValue
  distance : Float := infiniteDistance
  error : String := ""

def SideResult.of (e : Expression) (j : Judgement) : SideResult :=
  if j.evaluation.success then
    { expression := e.text, value := j.evaluation.value, distance := j.distance }
  else { distance := j.distance, error := j.evaluation.message }

structure RoundResult where
  target : Int
  bet : Int
  player : SideResult := {}
  ai : SideResult := {}
  winner : Winner := .invalid
  playerScoreChange : Int := 0
  aiScoreChange : Int := 0

namespace RoundResult

def summary (r : RoundResult) : String :=
  match r.winner with
  | .player => "Player wins! (+$" ++ toString r.playerScoreChange ++ ")"
  | .ai => "AI wins! (-$" ++ toString (-r.playerScoreChange) ++ ")"
  | .draw => "Draw"
  | .invalid => "Round void"

def sideLine (label : String) (s : SideResult) : String :=
  label ++ ": " ++
    (if s.error.isEmpty then
      s.expression ++ " = " ++ Decimal.fixed 2 s.value ++ " (off by " ++
        Decimal.fixed 2 s.distance ++ ")"
    else s.error)

def lines (r : RoundResult) : List String :=
  ["Target: " ++ toString r.target ++ " | Bet: $" ++ toString r.bet,
    sideLine "Player" r.player, sideLine "AI" r.ai]

def detail (r : RoundResult) : String := "\n".intercalate r.lines

def record (r : RoundResult) : List (String × Datum) :=
  [("target", .whole r.target), ("bet", .whole r.bet),
    ("player_expression", .text r.player.expression), ("player_value", .double r.player.value),
    ("player_distance", .double r.player.distance), ("player_error", .text r.player.error),
    ("ai_expression", .text r.ai.expression), ("ai_value", .double r.ai.value),
    ("ai_distance", .double r.ai.distance), ("ai_error", .text r.ai.error),
    ("winner", .text r.winner.name), ("player_score_change", .whole r.playerScoreChange)]

/-- What the player gains from a round: the bet, its loss, or nothing. -/
def gain (winner : Winner) (bet : Int) : Int :=
  match winner with
  | .player => bet
  | .ai => -bet
  | .draw | .invalid => 0

def of (target bet : Int) (player ai : SideResult) : RoundResult :=
  let winner := decideWinner player.distance ai.distance
  { target := target
    bet := bet
    player := player
    ai := ai
    winner := winner
    playerScoreChange := gain winner bet
    aiScoreChange := -gain winner bet }

end RoundResult

end NumberDuel
