import NumberDuel.Builder
import NumberDuel.Game.State
import NumberDuel.Report.Batch
import NumberDuel.Report.Comparison
import NumberDuel.Report.Solution

/-!
# Values as data

Reports and states as records of named values, for whoever stores or shows them elsewhere.
-/

namespace NumberDuel

open Datum

abbrev Fields := List (String × Datum)

def Formula.fields {ω : Type} (symbol : ω → String) (e : Formula ω Float) : Fields :=
  [("terms", .list (e.terms.map fun t => .list [.double t.value, .flag t.rooted])),
    ("operators", texts (e.connectives.map symbol)), ("text", .text (e.render symbol))]

def Expression.fields (e : Expression) : Fields := Formula.fields Operator.symbol e

def Expression.stateFields (e : Expression) : Fields :=
  e.fields ++
    [("numbers", floats e.values), ("flags", .list (e.rootFlags.map .flag)),
      ("empty", .flag e.isEmpty), ("complete", .flag e.isComplete),
      ("expecting_number", .flag e.expectsNumber), ("roots", count e.rootCount)]

def Evaluation.fields (v : Evaluation) : Fields :=
  [("success", .flag v.success), ("value", .double v.value), ("error_message", .text v.message),
    ("internal_fault", .flag v.fault)]

def Verdict.fields (v : Verdict) : Fields :=
  [("is_valid", .flag v.valid), ("error_message", .text v.message), ("detail", .text v.detail),
    ("warnings", texts v.reasons)]

def Judgement.fields (j : Judgement) : Fields :=
  [("evaluation", .record j.evaluation.fields), ("distance", .double j.distance)]

namespace Search

def Candidate.fields (c : Candidate) : Fields :=
  [("expression", .record c.expression.fields), ("value", .double c.value),
    ("distance", .double c.distance)]

def Stats.fields (s : Stats) : Fields :=
  [("permutations", count s.orderings), ("candidates", count s.candidates),
    ("invalid", count s.invalid), ("failed", count s.failed), ("faults", count s.faults)]

def Outcome.fields (o : Outcome) : Fields :=
  let candidate (c : Option Candidate) : Datum := optional (fun c => .record c.fields) c
  [("best", candidate o.best), ("prioritized", candidate o.prioritized),
    ("chosen", candidate o.chosen), ("prioritize", .flag o.prioritizes),
    ("expression", .record o.expression.fields), ("stats", .record o.stats.fields)]

end Search

def Operator.data (op : Operator) : Datum :=
  .list [.text op.name, .text op.symbol, count op.precedence]

def Special.data (mark : Special) : Datum :=
  .list [.text mark.name, .text mark.symbol, .flag mark.isUnary]

def Face.data (consumed : Bool) (face : Face) : Datum :=
  texts [face.kind.label, face.text, face.text, face.describe consumed]

/-- The disabled operators of a hand, in the order of their signs. -/
def Hand.disabledSigns (hand : Hand) : List String :=
  (Operator.all.filter fun op => !hand.isEnabled op).map Operator.symbol
    |>.mergeSort fun a b => decide (a ≤ b)

def Hand.fields (hand : Hand) (consumed : CardSet) : Fields :=
  [("numbers", .list (hand.numberValues.map fun v => count v.val)),
    ("operators", texts (hand.operatorValues.map Operator.symbol)),
    ("specials", .list (hand.specials.map fun c =>
      .list [.text c.face.symbol, .flag (consumed.has c)])),
    ("disabled", texts hand.disabledSigns), ("text", .text hand.text),
    ("repr", .text hand.describe), ("cards", texts (hand.cards.map (·.face.text))),
    ("multiply_count", count hand.multiplyCount), ("square_root_count", count hand.rootCount),
    ("enabled", texts (hand.operatorPool.map Operator.symbol)),
    ("available", texts (hand.availableOperators.map Operator.symbol)),
    ("total", count hand.size), ("empty", .flag hand.isEmpty)]

/-- A set of cards as data: their serial numbers in ascending order. -/
def CardSet.data (s : CardSet) : Datum :=
  .list ((s.serials.mergeSort fun a b => decide (a ≤ b)).map count)

def Builder.fields (b : Builder) : Fields :=
  [("expression", .record b.expression.fields), ("root_pending", .flag b.pendingRoot.isSome),
    ("used", b.used.data), ("consumed", b.consumed.data),
    ("unused_numbers", .flag b.hasUnusedNumbers), ("finished", .flag b.isFinished),
    ("specials_done", .flag b.specialsDone), ("reminder", .flag b.needsReminder),
    ("status", .text b.status)]

def GameConfig.fields (c : GameConfig) : Fields :=
  [("initial_card_count", .whole c.initialCardCount),
    ("number_cards_per_hand", .whole c.numberCardsPerHand),
    ("number_copies_per_value", .whole c.numberCopiesPerValue),
    ("multiply_cards_per_round", .whole c.multiplyCardsPerRound),
    ("square_root_cards_per_round", .whole c.squareRootCardsPerRound),
    ("basic_operators", texts (c.basicOperators.map Operator.symbol)),
    ("starting_credits", .whole c.startingCredits), ("min_bet", .whole c.minBet),
    ("max_bet", .whole c.maxBet), ("target_values", wholes c.targetValues),
    ("max_rounds", .whole c.maxRounds)]

def RoundResult.fields (r : RoundResult) : Fields := r.record ++ [("summary", .text r.summary)]

def Game.fields (g : Game) : Fields :=
  [("round", .whole g.roundNumber), ("target", optional .whole g.target), ("bet", .whole g.bet),
    ("dealt", .flag g.dealt), ("player_credits", .whole g.playerCredits),
    ("ai_credits", .whole g.aiCredits), ("over", .flag g.isOver),
    ("winner", optional (fun w => .text w.name) g.winner),
    ("player_hand", .text g.playerHand.text), ("ai_hand", .text g.aiHand.text),
    ("deck", count g.deck.pile.length), ("results", count g.results.length),
    ("events", count g.history.events.length)]

def History.Summary.fields (s : History.Summary) : Fields :=
  [("rounds_played", count s.roundsPlayed), ("player_wins", count s.playerWins),
    ("ai_wins", count s.aiWins), ("draws", count s.draws),
    ("invalid_rounds", count s.invalidRounds), ("exact_hits", count s.exactHits),
    ("match_winner", s.matchWinner)]

def Event.fields (e : Event) : Fields :=
  [("round_number", .whole e.round), ("event_type", .text e.kind), ("data", .record e.data),
    ("timestamp", count e.stamp)]

def History.fields (h : History) : Fields :=
  [("metadata", .record [("preset", .text h.preset)]),
    ("events", .list (h.events.map fun e => .record e.fields)),
    ("summary", .record h.summary.fields)]

def Game.matchFields (g : Game) (whole : Bool) : Fields :=
  [("winner", optional (fun w => .text w.name) g.winner), ("rounds_played", .whole g.roundNumber),
    ("player_credits", .whole g.playerCredits), ("ai_credits", .whole g.aiCredits),
    ("rounds", .list (g.results.map fun r => .record r.record)),
    ("history", .record (if whole then g.history.fields else g.history.summary.fields))]

def Preset.fields (p : Preset) : Fields :=
  [("name", .text p.name), ("description", .text p.description),
    ("difficulty", .text p.difficulty.key), ("player_strategy", .text p.player.key),
    ("ai_strategy", .text p.ai.key)]

def Preset.catalogue : Datum :=
  .list (Preset.builtIn.map fun (key, p) =>
    .record [("id", .text key), ("name", .text p.name), ("description", .text p.description),
      ("player_strategy", .text p.player.key), ("ai_strategy", .text p.ai.key)])

def MatchReport.fields (r : MatchReport) : Fields :=
  [("winner", optional .text r.winner), ("rounds_played", .whole r.roundsPlayed),
    ("player_credits", .whole r.playerCredits), ("ai_credits", .whole r.aiCredits),
    ("player_round_wins", .whole r.playerRoundWins), ("ai_round_wins", .whole r.aiRoundWins),
    ("draws", .whole r.draws), ("preset_used", .text r.presetUsed)]

def RoundDetail.fields (d : RoundDetail) : Fields :=
  [("round_number", .whole d.round), ("target", .whole d.target), ("bet", .whole d.bet),
    ("player_expression", .text d.playerExpression), ("player_value", .double d.playerValue),
    ("player_distance", .double d.playerDistance), ("ai_expression", .text d.aiExpression),
    ("ai_value", .double d.aiValue), ("ai_distance", .double d.aiDistance),
    ("winner", .text d.winner), ("exact_hit", .flag d.exactHit)]

def BatchReport.fields (b : BatchReport) : Fields :=
  [("matches", .whole b.games), ("player_wins", .whole b.playerWins),
    ("ai_wins", .whole b.aiWins), ("draws", .whole b.draws),
    ("player_win_rate", .double b.playerWinRate), ("avg_rounds", .double b.avgRounds),
    ("avg_player_distance", .double b.avgPlayerDistance),
    ("avg_ai_distance", .double b.avgAiDistance), ("ai_exact_rate", .double b.aiExactRate),
    ("rounds_distribution", .list ((BatchReport.sorted b.roundsDistribution).map
      fun (k, n) => wholes [k, n])),
    ("preset_used", .text b.presetUsed)]

def Solution.fields (s : Solution) : Fields :=
  [("expression", .text s.expression), ("value", .double s.value),
    ("distance", .double s.distance), ("valid", .flag s.valid), ("error", .text s.error)]

def Comparison.Row.fields (r : Comparison.Row) : Fields :=
  [("wins", count r.wins), ("losses", count r.losses), ("win_rate", .double r.winRate),
    ("round_win_rate", .double r.roundWinRate), ("exact_rate", .double r.exactRate),
    ("avg_distance", .double r.avgDistance), ("time", .double r.time)]

end NumberDuel
