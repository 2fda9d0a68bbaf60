import NumberDuel.Game.State
import NumberDuel.Preset
import NumberDuel.Report.Printed

/-!
# The report on a match

A match that is over is told in a few counts over its results, and in the details of its rounds
as its history recorded them.
-/

namespace NumberDuel

/-- What was done to a match, with the match behind it; the notes of the match come along. -/
def Printed.ofGame {α : Type} (done : Game × Except Error α) : Printed (Game × α) :=
  let (notes, g) := done.1.takeNotes
  { output := "", result := done.2.map fun a => (g, a), notes := notes }

def rule (sign : Char) (width : Nat) : String := String.ofList (List.replicate width sign)

structure RoundDetail where
  round : Int
  target : Int
  bet : Int
  playerExpression : String
  playerValue : Float
  playerDistance : Float
  aiExpression : String
  aiValue : Float
  aiDistance : Float
  winner : String

namespace RoundDetail

/-- Whether one of two distances is none at all. -/
def isExact (player ai : Float) : Bool := player == 0 || ai == 0

def exactHit (d : RoundDetail) : Bool := isExact d.playerDistance d.aiDistance

/-- The details of a round, read off the event that records its result. -/
def ofEvent (e : Event) : RoundDetail :=
  let whole (name : String) : Int := (Datum.get e.data name).toInt
  let double (name : String) : Float := (Datum.get e.data name).toFloat?.getD undefinedValue
  let text (name : String) : String := (Datum.get e.data name).toText
  { round := e.round
    target := whole "target"
    bet := whole "bet"
    playerExpression := text "player_expression"
    playerValue := double "player_value"
    playerDistance := double "player_distance"
    aiExpression := text "ai_expression"
    aiValue := double "ai_value"
    aiDistance := double "ai_distance"
    winner := text "winner" }

def line (d : RoundDetail) : String :=
  "Round " ++ toString d.round ++ ": target " ++ toString d.target ++ " | player " ++
    d.playerExpression ++ " | AI " ++ d.aiExpression ++ " -> " ++ d.winner

end RoundDetail

structure MatchReport where
  winner : Option String
  roundsPlayed : Int
  playerCredits : Int
  aiCredits : Int
  playerRoundWins : Int
  aiRoundWins : Int
  draws : Int
  presetUsed : String
  rounds : List RoundDetail := []

namespace MatchReport

def countWins (results : List RoundResult) (winner : Winner) : Nat :=
  results.countP (·.winner == winner)

def ofGame (preset : String) (g : Game) : MatchReport where
  winner := g.winner.map Winner.name
  roundsPlayed := g.roundNumber
  playerCredits := g.playerCredits
  aiCredits := g.aiCredits
  playerRoundWins := countWins g.results .player
  aiRoundWins := countWins g.results .ai
  draws := countWins g.results .draw
  presetUsed := preset
  rounds := (g.history.ofKind History.roundResult).map RoundDetail.ofEvent

/-- The winner as it is shown; a match without one is unfinished. -/
def winnerText (r : MatchReport) : String :=
  match r.winner with
  | some name => if name.isEmpty then "UNFINISHED" else name
  | none => "UNFINISHED"

def text (r : MatchReport) : String :=
  "\n".intercalate
    [rule '=' 50,
      "  " ++ r.winnerText ++ " - after " ++ toString r.roundsPlayed ++ " rounds",
      rule '=' 50,
      "  Credits: player $" ++ toString r.playerCredits ++ " / AI $" ++ toString r.aiCredits,
      "  Rounds won: player " ++ toString r.playerRoundWins ++ ", AI " ++
        toString r.aiRoundWins ++ ", draws " ++ toString r.draws,
      rule '=' 50]

def ofPreset (preset : Preset) (name : String) (playerOverride : Option Strategy) (seed : Int) :
    Printed MatchReport := do
  let players := { preset.players with player := playerOverride.getD preset.player }
  let (g, ()) ← .ofGame (Game.simulate preset.config players seed name none)
  return ofGame name g

def run (choice : PresetChoice) (verbose : Bool) (playerOverride : Option Strategy)
    (seed : Int) : Printed MatchReport := do
  let (preset, name) ← choice.resolve
  let report ← ofPreset preset name playerOverride seed
  .say (if verbose then String.join (report.rounds.map fun d => d.line ++ "\n") else "")
  return report

end MatchReport

end NumberDuel
