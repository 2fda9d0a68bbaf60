import NumberDuel.Proofs.Game.Naming
import NumberDuel.Proofs.Report.Composition
import NumberDuel.Report.Comparison

/-!
# Comparison and batch tell the same matches

The comparison of strategies reads its rows off the results of its matches, a batch report is read
off their histories. For the same strategies and seeds both have the same matches before them, and
they add up the same wins and the same distances.
-/

namespace NumberDuel

/-! ## What both read -/

theorem Winner.map_name_beq (w : Option Winner) (w' : Winner) :
    (w.map Winner.name == some w'.name) = (w == some w') := by
  cases w with
  | none => rfl
  | some w => exact Winner.name_beq w w'

theorem RoundDetail.map_playerDistance_ofResults (results : List RoundResult) :
    (ofResults results).map (·.playerDistance) = results.map (·.player.distance) := by
  conv_rhs => rw [← map_fst_zipIdx results]
  rw [ofResults, History.recorded, List.map_map, List.map_map, List.map_map]
  exact List.map_congr_left fun x _ => congrArg RoundDetail.playerDistance (ofEvent_event x.1 x.2)

theorem Printed.result_ofGame {α : Type} (done : Game × Except Error α) :
    (ofGame done).result = done.2.map fun a => (done.1.takeNotes.2, a) := rfl

namespace Comparison

/-- A row of the comparison tells of wins and distances what a batch report tells. -/
structure Row.Agrees (r : Row) (batch : BatchReport) : Prop where
  wins : (r.wins : Int) = batch.playerWins
  losses : (r.losses : Int) = batch.aiWins
  winRate : r.winRate = batch.playerWinRate
  avgDistance : r.avgDistance = batch.avgPlayerDistance

section Matches

variable {games : List Game}

theorem countWins_takeNotes (games : List Game) (name : String) (w : Winner) :
    countWins (games.map fun g => g.takeNotes.2) w =
      BatchReport.countWins (games.map (MatchReport.ofGame name)) w := by
  rw [countWins, BatchReport.countWins, List.countP_map, List.countP_map]
  refine List.countP_congr fun g _ => ?_
  have same : ((MatchReport.ofGame name g).winner == some w.name) = (g.winner == some w) :=
    Winner.map_name_beq g.winner w
  have kept : g.takeNotes.2.winner = g.winner := rfl
  simp [same, kept]

theorem map_distance_takeNotes (chronicled : ∀ g ∈ games, g.Chronicled) (name : String) :
    ((games.map fun g => g.takeNotes.2).flatMap (·.results)).map (·.player.distance) =
      ((games.map (MatchReport.ofGame name)).flatMap (·.rounds)).map (·.playerDistance) := by
  rw [List.flatMap_map, List.flatMap_map, List.map_flatMap, List.map_flatMap]
  refine List.flatMap_congr fun g hg => ?_
  rw [MatchReport.rounds_ofGame (chronicled g hg), RoundDetail.map_playerDistance_ofResults]
  rfl

/-- The row and the report on the same matches agree. -/
theorem agrees_row (chronicled : ∀ g ∈ games, g.Chronicled) {runs : Int} (some_runs : runs ≠ 0)
    (title : String) (time : Float) (name : String) :
    (row title runs time (games.map fun g => g.takeNotes.2)).Agrees
      (BatchReport.ofReports runs name (games.map (MatchReport.ofGame name))) := by
  have wins := countWins_takeNotes games name
  refine ⟨congrArg Nat.cast (wins .player), congrArg Nat.cast (wins .ai), ?_, ?_⟩
  · simp [row, BatchReport.ofReports, some_runs, wins]
  · simp only [row, BatchReport.ofReports, BatchReport.finiteDistances,
      map_distance_takeNotes chronicled name]

end Matches

/-! ## The matches of both -/

def EndAs (ended : Strategy → Int → Game) : Prop :=
  ∀ strategy seed, Game.simulate .standard ⟨strategy, .smart⟩ seed "standard" none =
    (ended strategy seed, .ok ())

/-- All default matches come to an end. -/
theorem exists_endAs : ∃ ended, EndAs ended := by
  have fair : GameConfig.standard.Fair :=
    @Preset.fair_of_mem_builtIn "standard" Preset.standard (by decide)
  have finishes (strategy : Strategy) (seed : Int) :=
    Game.exists_simulate fair.unhindered ⟨strategy, .smart⟩ seed "standard" none
  choose ended simulated using finishes
  exact ⟨ended, simulated⟩

variable {ended : Strategy → Int → Game}

theorem EndAs.chronicled (h : EndAs ended) (strategy : Strategy) (seed : Int) :
    (ended strategy seed).Chronicled :=
  (Game.chronicled_start .standard seed "standard").playRounds (h strategy seed)

def matchesFrom (ended : Strategy → Int → Game) (strategy : Strategy) (seed : Int) (games : Nat) :
    List Game :=
  (List.range games).map fun i : Nat => ended strategy (seed + i)

theorem EndAs.result_play (h : EndAs ended) (strategy : Strategy) (seed : Int)
    (left played : Nat) :
    (play strategy seed left played).result =
      .ok ((List.range' played left).map fun i : Nat =>
        (ended strategy (seed + i)).takeNotes.2) := by
  induction left generalizing played with
  | zero => rfl
  | succ left ih =>
    rw [List.range'_succ, List.map_cons, play, Printed.result_bind, Printed.result_ofGame,
      h strategy (seed + played)]
    change (play strategy seed left (played + 1) >>= fun others => pure (_ :: others)).result = _
    rw [Printed.result_bind, ih]
    rfl

theorem EndAs.result_test (h : EndAs ended) {runs : Int} (some_runs : 1 ≤ runs) (seed : Int)
    (time : Float) (c : Contestant) :
    (test runs seed time c).result =
      .ok (row c.title runs time
        ((matchesFrom ended c.strategy seed runs.toNat).map fun g => g.takeNotes.2)) := by
  have none : ¬ runs = 0 := by omega
  have played := h.result_play c.strategy seed runs.toNat 0
  rw [← List.range_eq_range'] at played
  simp only [test, none, if_false, Printed.result_bind, Printed.result_say, Printed.result_pure,
    played, matchesFrom, List.map_map]
  rfl

/-- A batch of a preset with default rules has these matches, whatever it is called. -/
theorem EndAs.reportsFrom_eq (h : EndAs ended) {preset : Preset}
    (rules : preset.config = .standard) (search : preset.ai = .smart) (name : String) (seed : Int)
    (games : Nat) :
    BatchReport.reportsFrom preset name seed games =
      .ok ((matchesFrom ended preset.player seed games).map (MatchReport.ofGame name)) := by
  have report (i : Nat) : (MatchReport.ofPreset preset name none (seed + i)).result =
      .ok (MatchReport.ofGame name (ended preset.player (seed + i))) := by
    have players : { preset.players with player := (none : Option Strategy).getD preset.player } =
        (⟨preset.player, .smart⟩ : Players) := by simp [Preset.players, search]
    rw [MatchReport.result_ofPreset, rules, players,
      Game.simulate_renamed name .standard _ _ "standard", h preset.player]
    rfl
  simp only [BatchReport.reportsFrom, report, matchesFrom, List.map_map]
  exact List.mapM_pure

theorem EndAs.result_run (h : EndAs ended) {choice : PresetChoice} {preset : Preset}
    {name : String} (resolved : choice.resolve = .ok (preset, name))
    (rules : preset.config = .standard) (search : preset.ai = .smart) {runs : Int}
    (some_runs : 1 ≤ runs) (verbose : Bool) (seed : Int) :
    (BatchReport.run choice runs verbose seed).result =
      .ok (BatchReport.ofReports runs name
        ((matchesFrom ended preset.player seed runs.toNat).map (MatchReport.ofGame name))) := by
  obtain ⟨games, rfl⟩ := Int.eq_ofNat_of_zero_le (by omega : 0 ≤ runs)
  rw [BatchReport.result_run resolved, h.reportsFrom_eq rules search, Int.toNat_natCast]
  rfl

/-- For one match or more and every seed, the comparison has a row for the basic strategy and one
for the search. The first row agrees with the batch report on the standard preset, the second one
with the batch report on a preset of default rules where the search plays for the player, whatever
its name and description. -/
theorem compare_agrees (runs : Int) (some_runs : 1 ≤ runs) (seed : Int) (time : Float)
    (verbose : Bool) (name description : String) :
    ∃ basic smart usual searching,
      (compare runs seed time).result = .ok [basic, smart] ∧
      basic.title = "Basic (dealt order)" ∧ smart.title = "Smart (exhaustive search)" ∧
      (BatchReport.run (.named "standard") runs verbose seed).result = .ok usual ∧
      (BatchReport.run (.given { name, description, player := .smart }) runs verbose seed).result =
        .ok searching ∧
      basic.Agrees usual ∧ smart.Agrees searching := by
  obtain ⟨ended, h⟩ := exists_endAs
  have nonzero : runs ≠ 0 := by omega
  have chronicled (strategy : Strategy) :
      ∀ g ∈ matchesFrom ended strategy seed runs.toNat, g.Chronicled := by
    simp only [matchesFrom, List.mem_map]
    rintro g ⟨i, -, rfl⟩
    exact h.chronicled strategy _
  have resolved : PresetChoice.resolve (.named "standard") = .ok (.standard, "standard") := by
    decide
  refine ⟨_, _, _, _, ?_, rfl, rfl, h.result_run resolved rfl rfl some_runs verbose seed,
    h.result_run rfl rfl rfl some_runs verbose seed, agrees_row (chronicled _) nonzero _ time _,
    agrees_row (chronicled _) nonzero _ time _⟩
  simp only [compare, contestants, Printed.result_bind, Printed.result_say, Printed.result_pure,
    List.mapM_cons, List.mapM_nil, h.result_test some_runs]
  rfl

/-- Three matches of each strategy, and batches that print how far they are. -/
theorem compare_agrees_three :
    (1 : Int) ≤ 3 ∧
      ∃ basic smart usual searching,
        (compare 3 7 0).result = .ok [basic, smart] ∧
        (BatchReport.run (.named "standard") 3 true 7).result = .ok usual ∧
        (BatchReport.run (.given { name := "Twins", description := "", player := .smart }) 3 true
          7).result = .ok searching ∧
        basic.Agrees usual ∧ smart.Agrees searching := by
  have some_runs : (1 : Int) ≤ 3 := by decide
  obtain ⟨basic, smart, usual, searching, compared, -, -, told, told', agrees, agrees'⟩ :=
    compare_agrees 3 some_runs 7 0 true "Twins" ""
  exact ⟨some_runs, basic, smart, usual, searching, compared, told, told', agrees, agrees'⟩

end Comparison

end NumberDuel
