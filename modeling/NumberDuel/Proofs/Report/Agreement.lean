import NumberDuel.Proofs.Game.Chronicle
import NumberDuel.Report.Match

/-!
# Three accounts of a match

A match is told by its results, by its history, and by the report made from both. All three are
one list seen in three ways: the results with their places.
-/

namespace NumberDuel

/-! ## Results with printing left out -/

namespace Printed

variable {α β : Type}

@[simp]
theorem result_pure (a : α) : (pure a : Printed α).result = .ok a := rfl

@[simp]
theorem result_bind (x : Printed α) (f : α → Printed β) :
    (x >>= f).result = x.result >>= fun a => (f a).result := by
  change (x.follow f).result = _
  unfold follow
  cases x.result <;> rfl

@[simp]
theorem result_map (f : α → β) (x : Printed α) : (f <$> x).result = f <$> x.result := by
  rw [map_eq_pure_bind, result_bind]
  cases x.result <;> rfl

@[simp]
theorem result_say (text : String) : (say text).result = .ok () := rfl

@[simp]
theorem result_lift (result : Except Error α) : (liftM result : Printed α).result = result := rfl

end Printed

/-! ## One result in three forms -/

variable {r : RoundResult} {results : List RoundResult}

theorem Winner.name_beq (w w' : Winner) : (w.name == w'.name) = (w == w') := by
  cases w <;> cases w' <;> decide

def RoundResult.event (r : RoundResult) (i : Nat) : Event :=
  ⟨i + 1, History.roundResult, r.record, 2 * i + 1⟩

/-- The details of a round, told by its result. -/
theorem RoundDetail.ofEvent_event (r : RoundResult) (i : Nat) :
    RoundDetail.ofEvent (r.event i) =
      { round := i + 1
        target := r.target
        bet := r.bet
        playerExpression := r.player.expression
        playerValue := r.player.value
        playerDistance := r.player.distance
        aiExpression := r.ai.expression
        aiValue := r.ai.value
        aiDistance := r.ai.distance
        winner := r.winner.name } := rfl

theorem History.wonBy_event (w : Winner) (r : RoundResult) (i : Nat) :
    History.wonBy w.name (r.event i) = (r.winner == w) :=
  Winner.name_beq r.winner w

/-! ## The list behind all three -/

def History.recorded (results : List RoundResult) : List Event :=
  results.zipIdx.map fun (r, i) => r.event i

theorem History.length_recorded (results : List RoundResult) :
    (recorded results).length = results.length := by
  simp [recorded]

theorem map_fst_zipIdx (results : List RoundResult) : results.zipIdx.map Prod.fst = results :=
  List.zipIdx_map_fst 0 results

theorem History.countP_wonBy (results : List RoundResult) (w : Winner) :
    (recorded results).countP (wonBy w.name) = results.countP (·.winner == w) := by
  conv_rhs => rw [← map_fst_zipIdx results]
  rw [recorded, List.countP_map, List.countP_map]
  exact List.countP_congr fun x _ => by simp [wonBy_event]

def RoundDetail.ofResults (results : List RoundResult) : List RoundDetail :=
  (History.recorded results).map ofEvent

namespace RoundDetail

theorem length_ofResults (results : List RoundResult) :
    (ofResults results).length = results.length := by
  rw [ofResults, List.length_map, History.length_recorded]

theorem map_round_ofResults (results : List RoundResult) :
    (ofResults results).map (·.round) =
      (List.range results.length).map fun i : Nat => (i : Int) + 1 := by
  rw [ofResults, History.recorded, List.map_map, List.map_map, List.range_eq_range',
    ← List.zipIdx_map_snd 0 results, List.map_map]
  rfl

theorem countP_winner_ofResults (results : List RoundResult) (w : Winner) :
    (ofResults results).countP (·.winner == w.name) = results.countP (·.winner == w) := by
  conv_rhs => rw [← map_fst_zipIdx results]
  rw [ofResults, History.recorded, List.map_map, List.countP_map, List.countP_map]
  exact List.countP_congr fun x _ => by simp [ofEvent_event, Winner.name_beq]

theorem bets_ofResults (results : List RoundResult) (w : Winner) :
    ((ofResults results).filter (·.winner == w.name)).map (·.bet) =
      (results.filter (·.winner == w)).map (·.bet) := by
  conv_rhs => rw [← map_fst_zipIdx results]
  rw [ofResults, History.recorded, List.map_map, List.filter_map, List.filter_map, List.map_map,
    List.map_map]
  refine congrArg₂ _ rfl (List.filter_congr fun x _ => ?_)
  simp [ofEvent_event, Winner.name_beq]

theorem countP_exactHit_ofResults (results : List RoundResult) :
    (ofResults results).countP (·.exactHit) =
      (History.recorded results).countP History.isExactHit := by
  rw [ofResults, List.countP_map, History.recorded, List.countP_map, List.countP_map]
  rfl

end RoundDetail

/-- The results in the history are those of the chapters, in their places. -/
theorem Chapter.filter_tell (chapters : List Chapter) :
    (Chapter.tell chapters).filter (·.kind == History.roundResult) =
      History.recorded (chapters.map Chapter.result) := by
  induction chapters using List.reverseRecOn with
  | nil => rfl
  | append_singleton chapters c ih =>
    have last : (c.events chapters.length).filter (·.kind == History.roundResult) =
        [c.result.event chapters.length] := rfl
    rw [Chapter.tell_append_singleton, List.filter_append, ih, last]
    simp [History.recorded, List.zipIdx_append]

namespace Game

variable {config : GameConfig} {players : Players} {bet : Option Int} {g g' : Game}

theorem Chronicled.ofKind_roundResult (h : Chronicled g) :
    g.history.ofKind History.roundResult = History.recorded g.results := by
  obtain ⟨chapters, told, events⟩ := h.told
  have silent : g.epilogue.filter (·.kind == History.roundResult) = [] := by
    unfold epilogue
    split <;> rfl
  rw [History.ofKind, events, List.filter_append, Chapter.filter_tell, told, silent,
    List.append_nil]

/-- Every result of a match moves what its winner gains. -/
theorem Played.balanced (h : Played config g) : ∀ r ∈ g.results, Balanced r := by
  induction h with
  | start seed preset => simp [results_start]
  | @deal g g' target bet outcome played dealt ih =>
    rcases g.deal_cases target bet with ⟨-, eq⟩ | ⟨-, _, _, _, _, _, _, _, _, _, _, eq, -⟩ <;>
      cases dealt.symm.trans eq <;> exact ih
  | play played plays ih =>
    obtain ⟨rfl, -⟩ := Prod.mk.inj plays
    exact ih
  | score played scores ih =>
    obtain ⟨kept, eq⟩ := score_eq _ _ _
    obtain ⟨rfl, -⟩ := Prod.mk.inj (scores.symm.trans eq)
    exact ih
  | @settle g g' player ai r played scores ih =>
    obtain ⟨kept, eq⟩ := g.score_eq player ai
    obtain ⟨rfl, scored⟩ := Prod.mk.inj (scores.symm.trans eq)
    obtain ⟨-, -, balanced⟩ := scored_ok scored.symm
    obtain ⟨history, kept', settled⟩ := settle_eq { g with notes := kept } r
    rw [settled]
    intro r' hr'
    rcases List.mem_append.mp hr' with earlier | last
    · exact ih r' earlier
    · exact List.mem_singleton.mp last ▸ balanced

end Game

/-! ## Reports -/

namespace MatchReport

theorem result_ofPreset (preset : Preset) (name : String) (playerOverride : Option Strategy)
    (seed : Int) :
    (ofPreset preset name playerOverride seed).result =
      let done := Game.simulate preset.config
        { preset.players with player := playerOverride.getD preset.player } seed name none
      done.2.map fun _ => ofGame name done.1 := by
  simp only [ofPreset, Printed.result_bind, Printed.ofGame, Game.takeNotes]
  cases (Game.simulate preset.config
    { preset.players with player := playerOverride.getD preset.player } seed name none).2 <;> rfl

theorem result_run {choice : PresetChoice} {preset : Preset} {name : String}
    (resolved : choice.resolve = .ok (preset, name)) (verbose : Bool)
    (playerOverride : Option Strategy) (seed : Int) :
    (run choice verbose playerOverride seed).result =
      (ofPreset preset name playerOverride seed).result := by
  simp only [run, Printed.result_bind, Printed.result_lift, resolved]
  change (ofPreset preset name playerOverride seed).result >>= _ = _
  cases (ofPreset preset name playerOverride seed).result <;> rfl

/-- What the report on a match and the summary of its history tell alike, where the player began
with so many credits. -/
structure Agrees (report : MatchReport) (summary : History.Summary) (credits : Int) : Prop where
  length : report.rounds.length = report.roundsPlayed
  numbered : report.rounds.map (·.round) =
    (List.range report.rounds.length).map fun i : Nat => (i : Int) + 1
  playerWins : report.playerRoundWins = report.rounds.countP (·.winner == "PLAYER") ∧
    report.playerRoundWins = summary.playerWins
  aiWins : report.aiRoundWins = report.rounds.countP (·.winner == "AI") ∧
    report.aiRoundWins = summary.aiWins
  draws : report.draws = report.rounds.countP (·.winner == "DRAW") ∧
    report.draws = summary.draws
  total : report.playerRoundWins + report.aiRoundWins + report.draws + summary.invalidRounds =
    report.roundsPlayed
  playerCredits : report.playerCredits =
    credits + ((report.rounds.filter (·.winner == "PLAYER")).map (·.bet)).sum -
      ((report.rounds.filter (·.winner == "AI")).map (·.bet)).sum
  exactHits : summary.exactHits = report.rounds.countP (·.exactHit)

theorem countP_winner_add (results : List RoundResult) :
    results.countP (·.winner == .player) + results.countP (·.winner == .ai) +
        results.countP (·.winner == .draw) + results.countP (·.winner == .invalid) =
      results.length := by
  induction results with
  | nil => rfl
  | cons r results ih =>
    simp only [List.countP_cons, List.length_cons, ← ih]
    cases r.winner <;> simp <;> omega

/-- What the player gains in all comes from the rounds won and goes with the rounds lost. -/
theorem sum_playerScoreChange {results : List RoundResult}
    (balanced : ∀ r ∈ results, Game.Balanced r) :
    (results.map (·.playerScoreChange)).sum =
      ((results.filter (·.winner == .player)).map (·.bet)).sum -
        ((results.filter (·.winner == .ai)).map (·.bet)).sum := by
  induction results with
  | nil => rfl
  | cons r results ih =>
    obtain ⟨first, rest⟩ := List.forall_mem_cons.mp balanced
    simp only [List.map_cons, List.sum_cons, ih rest, first.player, List.filter_cons]
    cases r.winner <;> simp [RoundResult.gain] <;> omega

theorem rounds_ofGame {g : Game} (h : g.Chronicled) (name : String) :
    (ofGame name g).rounds = RoundDetail.ofResults g.results :=
  congrArg (List.map RoundDetail.ofEvent) h.ofKind_roundResult

theorem agrees_ofGame {config : GameConfig} {g : Game} (played : Game.Played config g)
    (h : g.Chronicled) (name : String) :
    (ofGame name g).Agrees g.history.summary config.startingCredits := by
  have rounds := rounds_ofGame h name
  have told (w : Winner) :
      (countWins g.results w : Int) = (ofGame name g).rounds.countP (·.winner == w.name) := by
    rw [rounds, RoundDetail.countP_winner_ofResults, countWins]
  have counted (w : Winner) : (g.history.ofKind History.roundResult).countP
      (History.wonBy w.name) = countWins g.results w := by
    rw [h.ofKind_roundResult, History.countP_wonBy, countWins]
  have recorded (w : Winner) : (countWins g.results w : Int) =
      (g.history.ofKind History.roundResult).countP (History.wonBy w.name) :=
    congrArg Nat.cast (counted w).symm
  refine ⟨?_, ?_, ⟨told .player, recorded .player⟩, ⟨told .ai, recorded .ai⟩,
    ⟨told .draw, recorded .draw⟩, ?_, ?_, ?_⟩
  · rw [rounds, RoundDetail.length_ofResults]
    exact h.round.symm
  · rw [rounds, RoundDetail.length_ofResults]
    exact RoundDetail.map_round_ofResults g.results
  · have total := countP_winner_add g.results
    have void : g.history.summary.invalidRounds = countWins g.results .invalid := counted .invalid
    have length : (ofGame name g).roundsPlayed = g.results.length := h.round
    rw [length, void, ← total]
    rfl
  · rw [rounds]
    have won := RoundDetail.bets_ofResults g.results .player
    have lost := RoundDetail.bets_ofResults g.results .ai
    have gained := sum_playerScoreChange played.balanced
    rw [← won, ← lost] at gained
    have credits := played.conserved.player
    rw [gained] at credits
    exact credits.trans (Int.add_sub_assoc ..).symm
  · rw [rounds, RoundDetail.countP_exactHit_ofResults, ← h.ofKind_roundResult]
    rfl

/-- A preset whose match is simulated without an error is reported. The report on the match, the
rounds it lists and the summary of the history agree in every count, and the credits that are
left are what the listed bets come to. -/
theorem agrees_of_run {choice : PresetChoice} {preset : Preset} {name : String}
    (resolved : choice.resolve = .ok (preset, name)) {playerOverride : Option Strategy}
    {seed : Int} {g : Game}
    (simulated : Game.simulate preset.config
      { preset.players with player := playerOverride.getD preset.player } seed name none =
        (g, .ok ())) (verbose : Bool) :
    ∃ report, (run choice verbose playerOverride seed).result = .ok report ∧
      report.Agrees g.history.summary preset.config.startingCredits := by
  have begun : Game.Played preset.config (Game.start preset.config seed name) := .start seed name
  have played := begun.playRounds
    { preset.players with player := playerOverride.getD preset.player } none
    (Game.start preset.config seed name).roundsLeft
  change Game.Played preset.config (Game.simulate ..).1 at played
  rw [simulated] at played
  have chronicled : g.Chronicled :=
    (Game.chronicled_start preset.config seed name).playRounds simulated
  refine ⟨ofGame name g, ?_, agrees_ofGame played chronicled name⟩
  rw [result_run resolved, result_ofPreset, simulated]
  rfl

/-- High stakes by name, with the searching side in place of the usual player. -/
theorem agrees_of_run_hard :
    PresetChoice.resolve (.named "hard") = .ok (.hard, "hard") ∧
      ∃ g report, Game.simulate Preset.hard.config ⟨.smart, .smart⟩ 7 "hard" none = (g, .ok ()) ∧
        (run (.named "hard") true (some .smart) 7).result = .ok report ∧
        report.Agrees g.history.summary 15 := by
  have resolved : PresetChoice.resolve (.named "hard") = .ok (.hard, "hard") := by decide
  have fair : Preset.hard.config.Fair := @Preset.fair_of_mem_builtIn "hard" Preset.hard (by decide)
  obtain ⟨g, simulated⟩ := Game.exists_simulate fair.unhindered ⟨.smart, .smart⟩ 7 "hard" none
  have overridden : Game.simulate Preset.hard.config
      { Preset.hard.players with player := (some Strategy.smart).getD Preset.hard.player } 7 "hard"
      none = (g, .ok ()) := simulated
  obtain ⟨report, reported, agrees⟩ := agrees_of_run resolved overridden true
  exact ⟨resolved, g, report, simulated, reported, agrees⟩

end MatchReport

end NumberDuel
