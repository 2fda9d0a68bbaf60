import NumberDuel.Page.Session
import NumberDuel.Report.Batch

/-!
# The simulation tab

The tab plays a number of matches of the selected preset and shows their results. Its distances
are rounded to whole numbers, each on its own, before they are counted and averaged. As long as
all of them fit in a machine word they are averaged as doubles, with a compensated sum; otherwise
their exact sum is divided, and they cannot be charted.
-/

namespace NumberDuel.Page

/-- Plays this many matches of the selected preset, each with the next seed, and tells the seed
behind them. -/
def simulateMatches (preset : Preset) (name : String) :
    (left : Nat) → (seed : Int) → Int × Printed (List MatchReport)
  | 0, seed => (seed, pure [])
  | left + 1, seed =>
    let played := MatchReport.ofPreset preset name none seed
    match played.result with
    | .error _ => (seed + 1, (fun report => [report]) <$> played)
    | .ok _ =>
      let (seed, others) := simulateMatches preset name left (seed + 1)
      (seed, do return (← played) :: (← others))

/-- The distances of one side, each rounded to a whole number; infinite ones are left out. -/
def roundedDistances (side : RoundDetail → Float) (reports : List MatchReport) : List Int :=
  (reports.flatMap (·.rounds)).filterMap fun d => roundHalfEven? (side d)

/-- The sum of doubles from left to right. What rounding takes off at a step is given back at the
next one. -/
def compensatedSum (xs : List Float) : Float :=
  (xs.foldl (fun (sum, excess) x =>
    let y := x - excess
    let next := sum + y
    (next, next - sum - y)) (0, 0)).1

structure Distances where
  player : List Int
  ai : List Int

namespace Distances

def ofReports (reports : List MatchReport) : Distances where
  player := roundedDistances (·.playerDistance) reports
  ai := roundedDistances (·.aiDistance) reports

def all (d : Distances) : List Int := d.player ++ d.ai

def fitWords (d : Distances) : Bool := d.all.all (· < Nat.pow 2 64)

/-- The mean of the distances of one side, which is infinite if there are none. -/
def mean (d : Distances) (side : List Int) : Except Error Float :=
  if side.isEmpty then return infiniteDistance
  else if d.fitWords then
    return compensatedSum (side.map Float.ofInt) / Float.ofNat side.length
  else
    match doubleOfInt? (side.foldl (· + ·) 0) with
    | some sum => return sum / Float.ofNat side.length
    | none => throw .meanTooLarge

end Distances

structure Tally where
  playerWins : Int := 0
  aiWins : Int := 0
  draws : Int := 0
  rounds : Int := 0
  aiExact : Int := 0
  lengths : List (Int × Int) := []

namespace Tally

def addWinner (t : Tally) (winner : Option String) : Tally :=
  if winner = some Winner.player.name then { t with playerWins := t.playerWins + 1 }
  else if winner = some Winner.ai.name then { t with aiWins := t.aiWins + 1 }
  else { t with draws := t.draws + 1 }

def add (t : Tally) (r : MatchReport) : Tally :=
  let t := t.addWinner r.winner
  { t with
    rounds := t.rounds + r.roundsPlayed
    lengths := BatchReport.count r.roundsPlayed t.lengths
    aiExact := r.rounds.foldl (fun n d => if d.aiDistance == 0 then n + 1 else n) t.aiExact }

def ofReports (reports : List MatchReport) : Tally := reports.foldl add {}

end Tally

def batchOf (runs : Int) (preset : String) (reports : List MatchReport) :
    Except Error BatchReport := do
  let tally := Tally.ofReports reports
  let distances := Distances.ofReports reports
  return {
    games := runs
    playerWins := tally.playerWins
    aiWins := tally.aiWins
    draws := tally.draws
    playerWinRate := BatchReport.percent tally.playerWins runs
    avgRounds := BatchReport.ratio tally.rounds runs
    avgPlayerDistance := ← distances.mean distances.player
    avgAiDistance := ← distances.mean distances.ai
    aiExactRate := BatchReport.percent tally.aiExact (max 1 tally.rounds)
    roundsDistribution := tally.lengths
    presetUsed := preset }

def ascending (xs : List Int) : List Int := (xs.eraseDups).mergeSort fun a b => a ≤ b

def distanceChart (d : Distances) : List Element :=
  let index := ascending d.all
  let column (name : String) (xs : List Int) : List (String × List Int) :=
    if xs.isEmpty then [] else [(name, index.map fun d => (xs.count d : Int))]
  if index.isEmpty then [] else [.chart index (column "AI" d.ai ++ column "Player" d.player)]

def lengthChart (b : BatchReport) : Element :=
  let sorted := BatchReport.sorted b.roundsDistribution
  .chart (sorted.map (·.1)) [("Matches", sorted.map (·.2))]

def winsElement (b : BatchReport) : Element :=
  let wins := "Player wins: " ++ toString b.playerWins ++ "/" ++ toString b.games ++ " (" ++
    Decimal.fixed 1 b.playerWinRate ++ "%)"
  if 50 < b.playerWinRate then .text .success ("🏆 " ++ wins)
  else if 0 < b.playerWinRate then .text .warning wins
  else .text .error wins

def resultElements (b : BatchReport) : List Element :=
  [.text .subheader ("Results (" ++ toString b.games ++ " matches)"),
    winsElement b,
    .metric "AI Wins" (toString b.aiWins),
    .metric "Avg Rounds" (Decimal.fixed 1 b.avgRounds),
    .metric "Avg Player Distance" (Decimal.fixed 2 b.avgPlayerDistance),
    .metric "Avg AI Distance" (Decimal.fixed 2 b.avgAiDistance),
    .metric "AI Exact Hits" (Decimal.fixed 1 b.aiExactRate ++ "% of rounds"),
    .text .subheader "Distance Distribution"]

def batchElements (runs : Int) (preset : String) (reports : List MatchReport) :
    List Element × Flow :=
  let distances := Distances.ofReports reports
  match batchOf runs preset reports with
  | .error e => ([], .stop e)
  | .ok b =>
    if distances.fitWords then
      (resultElements b ++ distanceChart distances ++
        [.text .subheader "Match Length", lengthChart b], .next)
    else (resultElements b, .stop .chartNumberTooLarge)

def simulationTab (s : Session) (pressed : Option Button) : Part :=
  let games := s.inputs.games
  let head := [.integer .games games (some .ofGames), .button .simulate "🎲 Run Simulation" false]
  if pressed = some .simulate then
    let (seed, played) := simulateMatches s.preset s.inputs.preset games.toNat s.nextSeed
    let s := { s with nextSeed := seed }.keep played.notes
    match played.result with
    | .error e => ⟨s, head, .stop e⟩
    | .ok reports =>
      let (shown, flow) := batchElements games s.inputs.preset reports
      ⟨s, head ++ shown, flow⟩
  else ⟨s, head, .next⟩

end NumberDuel.Page
