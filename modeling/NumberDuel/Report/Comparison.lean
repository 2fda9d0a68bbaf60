import NumberDuel.Report.Batch

/-!
# Comparing strategies

Each strategy plays the same number of default matches against the search, and the results stand
in a table. A single match can also be told round by round.
-/

namespace NumberDuel

structure Contestant where
  title : String
  strategy : Strategy

namespace Comparison

def contestants : List Contestant :=
  [⟨"Basic (dealt order)", .basic⟩, ⟨"Smart (exhaustive search)", .smart⟩]

structure Row where
  title : String
  wins : Nat
  losses : Nat
  winRate : Float
  roundWinRate : Float
  exactRate : Float
  avgDistance : Float
  time : Float

def play (strategy : Strategy) (seed : Int) : (left played : Nat) → Printed (List Game)
  | 0, _ => return []
  | left + 1, played => do
    let (g, ()) ←
      .ofGame (Game.simulate .standard ⟨strategy, .smart⟩ (seed + played) "standard" none)
    let others ← play strategy seed left (played + 1)
    return g :: others

def countWins (games : List Game) (winner : Winner) : Nat :=
  games.countP fun g => g.winner == some winner

def row (title : String) (runs : Int) (time : Float) (games : List Game) : Row :=
  let results := games.flatMap (·.results)
  let total := max 1 (games.foldl (fun n g => n + g.roundNumber) 0)
  { title := title
    wins := countWins games .player
    losses := countWins games .ai
    winRate := BatchReport.percent (countWins games .player) runs
    roundWinRate := BatchReport.percent (MatchReport.countWins results .player) total
    exactRate := BatchReport.percent (results.countP (·.player.distance == 0)) total
    avgDistance := BatchReport.mean ((results.map (·.player.distance)).filter Float.isFinite)
    time := time }

def heading (runs : Int) : String :=
  rule '=' 70 ++ "\nSTRATEGY COMPARISON (" ++ toString runs ++
    " matches each, opponent: Smart)\n" ++ rule '=' 70 ++ "\n"

def announcement (title : String) : String := "\nTesting: " ++ title ++ "... "

def completion (time : Float) : String := "Done (" ++ Decimal.fixed 1 time ++ "s)\n"

def tableLine (r : Row) : String :=
  Decimal.alignLeft 30 r.title ++ " " ++
    Decimal.alignRight 7 (Decimal.fixed 1 r.winRate) ++ "% " ++
    Decimal.alignRight 8 (Decimal.fixed 1 r.roundWinRate) ++ "% " ++
    Decimal.alignRight 8 (Decimal.fixed 1 r.exactRate) ++ "% " ++
    Decimal.alignRight 10 (Decimal.fixed 2 r.avgDistance) ++ "\n"

def table (rows : List Row) : String :=
  "\n" ++ rule '=' 70 ++ "\nRESULTS\n" ++ rule '=' 70 ++ "\n" ++
    Decimal.alignLeft 30 "Strategy" ++ " " ++ Decimal.alignRight 8 "Win %" ++ " " ++
    Decimal.alignRight 9 "Round %" ++ " " ++ Decimal.alignRight 9 "Exact %" ++ " " ++
    Decimal.alignRight 10 "Avg Dist" ++ "\n" ++ rule '-' 70 ++ "\n" ++
    String.join (rows.map tableLine)

/-- Plays the matches of one strategy. A rate over no matches is refused, after they are
announced. -/
def test (runs seed : Int) (time : Float) (c : Contestant) : Printed Row := do
  .say (announcement c.title)
  if runs = 0 then .fail .noMatches
  let games ← play c.strategy seed runs.toNat 0
  .say (completion time)
  return row c.title runs time games

def compare (runs seed : Int) (time : Float) : Printed (List Row) := do
  .say (heading runs)
  let rows ← contestants.mapM (test runs seed time)
  .say (table rows)
  return rows

end Comparison

namespace Narration

/-- The strategy of a name; any other name means the basic one. -/
def strategyNamed (name : String) : Strategy :=
  (Strategy.all.find? (·.name == name)).getD .basic

def roundText (g : Game) (result : RoundResult) : String :=
  "Round " ++ toString g.roundNumber ++ "\n" ++
    String.join (result.lines.map fun line => "  " ++ line ++ "\n") ++
    "  " ++ result.summary ++ "\n" ++
    "  Credits: player $" ++ toString g.playerCredits ++ " / AI $" ++ toString g.aiCredits ++
    "\n\n"

def tellRounds (players : Players) : Nat → Game → Printed Game
  | 0, g => return g
  | rounds + 1, g =>
    if g.isOver then return g
    else do
      let (g, result) ← .ofGame (g.playRound players none none)
      .say (roundText g result)
      tellRounds players rounds g

def opening (name : String) : String :=
  rule '=' 70 ++ "\nDETAILED MATCH - " ++ name ++ " vs Smart\n" ++ rule '=' 70 ++ "\n"

def ending (g : Game) : String :=
  rule '=' 70 ++ "\nMATCH OVER after " ++ toString g.roundNumber ++ " rounds - " ++
    (g.winner.map Winner.name).getD "UNDECIDED" ++ "\n"

def tell (name : String) (seed : Int) : Printed Unit := do
  .say (opening name)
  let start := Game.start .standard seed "standard"
  let g ← tellRounds ⟨strategyNamed name, .smart⟩ start.roundsLeft start
  .say (ending g)

end Narration

end NumberDuel
