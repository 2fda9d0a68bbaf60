import NumberDuel.Report.Match

/-!
# The report on a batch of matches

A batch plays a preset with consecutive seeds. Its report adds up the wins, and averages the
lengths of the matches and the distances of both sides over all rounds with a legal submission.
-/

namespace NumberDuel

structure BatchReport where
  games : Int
  playerWins : Int
  aiWins : Int
  draws : Int
  playerWinRate : Float
  avgRounds : Float
  avgPlayerDistance : Float
  avgAiDistance : Float
  aiExactRate : Float
  roundsDistribution : List (Int × Int)
  presetUsed : String

namespace BatchReport

/-- One more occurrence of a key in a list of counts; a new key comes last. -/
def count (key : Int) : List (Int × Int) → List (Int × Int)
  | [] => [(key, 1)]
  | (k, n) :: rest => if k = key then (k, n + 1) :: rest else (k, n) :: count key rest

def distribution (keys : List Int) : List (Int × Int) := keys.foldl (fun d k => count k d) []

def sorted (d : List (Int × Int)) : List (Int × Int) := d.mergeSort fun a b => a.1 ≤ b.1

/-- The mean of some doubles, added from left to right; of none it is infinite. -/
def mean (xs : List Float) : Float :=
  if xs.isEmpty then infiniteDistance else xs.foldl (· + ·) 0 / Float.ofNat xs.length

def ratio (part whole : Int) : Float := Float.ofInt part / Float.ofInt whole

def percent (part whole : Int) : Float := ratio part whole * 100

def finiteDistances (side : RoundDetail → Float) (rounds : List RoundDetail) : List Float :=
  (rounds.map side).filter Float.isFinite

def countWins (reports : List MatchReport) (winner : Winner) : Nat :=
  reports.countP fun r => r.winner == some winner.name

/-- How many reported matches have neither side as their winner. -/
def countDraws (reports : List MatchReport) : Nat :=
  reports.countP fun r =>
    r.winner != some Winner.player.name && r.winner != some Winner.ai.name

def totalRounds (reports : List MatchReport) : Int :=
  reports.foldl (fun n r => n + r.roundsPlayed) 0

def ofReports (runs : Int) (preset : String) (reports : List MatchReport) : BatchReport :=
  let playerWins := countWins reports .player
  let rounds := reports.flatMap (·.rounds)
  let total := totalRounds reports
  { games := runs
    playerWins := playerWins
    aiWins := countWins reports .ai
    draws := countDraws reports
    playerWinRate := if runs = 0 then 0 else percent playerWins runs
    avgRounds := if runs = 0 then 0 else ratio total runs
    avgPlayerDistance := mean (finiteDistances (·.playerDistance) rounds)
    avgAiDistance := mean (finiteDistances (·.aiDistance) rounds)
    aiExactRate := percent (rounds.countP (·.aiDistance == 0)) (max 1 total)
    roundsDistribution := distribution (reports.map (·.roundsPlayed))
    presetUsed := preset }

def text (b : BatchReport) : String :=
  "\n".intercalate
    [rule '=' 50,
      "  BATCH RESULTS (" ++ toString b.games ++ " matches)",
      "  Preset: " ++ b.presetUsed,
      rule '=' 50,
      "  Player wins: " ++ toString b.playerWins ++ "/" ++ toString b.games ++ " (" ++
        Decimal.fixed 1 b.playerWinRate ++ "%)",
      "  AI wins: " ++ toString b.aiWins ++ "  Draws: " ++ toString b.draws,
      "  Avg rounds per match: " ++ Decimal.fixed 1 b.avgRounds,
      "  Avg distance: player " ++ Decimal.fixed 2 b.avgPlayerDistance ++ ", AI " ++
        Decimal.fixed 2 b.avgAiDistance,
      "  AI exact hits: " ++ Decimal.fixed 1 b.aiExactRate ++ "% of rounds",
      rule '=' 50]

def progress (verbose : Bool) (number : Nat) (runs : Int) : String :=
  if verbose && number % 10 == 0 then
    "  Match " ++ toString number ++ "/" ++ toString runs ++ "...\n"
  else ""

/-- Plays the next `left` matches, the first of which is number `played + 1`. -/
def play (preset : Preset) (name : String) (verbose : Bool) (runs seed : Int) :
    (left played : Nat) → Printed (List MatchReport)
  | 0, _ => return []
  | left + 1, played => do
    .say (progress verbose (played + 1) runs)
    let report ← MatchReport.ofPreset preset name none (seed + played)
    let others ← play preset name verbose runs seed left (played + 1)
    return report :: others

/-- Plays and reports a batch; match number `i` has the seed `seed + i`, counted from zero. -/
def run (choice : PresetChoice) (runs : Int) (verbose : Bool) (seed : Int) :
    Printed BatchReport := do
  let (preset, name) ← choice.resolve
  let reports ← play preset name verbose runs seed runs.toNat 0
  return ofReports runs name reports

end BatchReport

end NumberDuel
