import NumberDuel.Page.Simulation
import NumberDuel.Proofs.Report.Composition
import NumberDuel.Proofs.Validation.Acceptance

/-!
# Two reports on the same matches

The simulation tab counts its matches one by one, and so comes to the same counts and rates as a
batch. Its average distances are other ones: each distance is rounded for the chart before it is
averaged. Both averages are over the same rounds and at most one half apart, and they are the same
only where the roundings cancel each other.
-/

namespace NumberDuel

/-! ## Averages of rounded numbers -/

section Means

variable {xs : List Float} {ns : List Int}

/-- The number that a double stands for; one that is not finite stands for none. -/
def exactValue (x : Float) : ℚ :=
  match Reading.ofFloat x with
  | .finite d => d.value
  | _ => 0

def exactMean (qs : List ℚ) : Option ℚ := if qs = [] then none else some (qs.sum / qs.length)

theorem RoundsTo.isNearest {x : Float} {n : Int} (h : RoundsTo x n) :
    IsNearest (exactValue x) n := by
  obtain ⟨d, reading, nearest⟩ := h
  rw [exactValue, reading]
  exact nearest

/-- Rounding moves a sum by one half for each summand at most. -/
theorem abs_sum_sub_sum_le (h : xs.Forall₂ RoundsTo ns) :
    |(xs.map exactValue).sum - (ns.map ((↑) : Int → ℚ)).sum| ≤ xs.length / 2 := by
  induction h with
  | nil => simp
  | @cons x n xs ns first _ ih =>
    have near := first.isNearest.near
    simp only [List.map_cons, List.sum_cons, List.length_cons]
    push_cast
    calc |exactValue x + (xs.map exactValue).sum - (n + (ns.map ((↑) : Int → ℚ)).sum)|
      _ = |(exactValue x - n) +
            ((xs.map exactValue).sum - (ns.map ((↑) : Int → ℚ)).sum)| := by ring_nf
      _ ≤ 1 / 2 + xs.length / 2 := (abs_add_le ..).trans (add_le_add near ih)
      _ = (xs.length + 1) / 2 := by ring

/-- The average of some doubles and that of the same doubles rounded. -/
structure MeansOf (xs : List Float) (ns : List Int) : Prop where
  rounded : xs.Forall₂ RoundsTo ns
  means : exactMean (xs.map exactValue) = none ∧ exactMean (ns.map (↑)) = none ∨
    ∃ mean mean', exactMean (xs.map exactValue) = some mean ∧
      exactMean (ns.map (↑)) = some mean' ∧ |mean - mean'| ≤ 1 / 2 ∧
      (mean = mean' ↔ (xs.map exactValue).sum = (ns.sum : Int))

theorem meansOf (h : xs.Forall₂ RoundsTo ns) : MeansOf xs ns := by
  refine ⟨h, ?_⟩
  have length := h.length_eq
  have moved := abs_sum_sub_sum_le h
  by_cases none : xs = []
  · subst none
    cases h
    exact .inl ⟨rfl, rfl⟩
  have some_number : ns ≠ [] := by
    rintro rfl
    exact none (List.length_eq_zero_iff.mp length)
  have count : (0 : ℚ) < xs.length := by
    exact_mod_cast List.length_pos_of_ne_nil none
  refine .inr ⟨_, _, if_neg (by simpa using none), if_neg (by simpa using some_number), ?_, ?_⟩
  · rw [List.length_map, List.length_map, ← length, ← sub_div, abs_div, abs_of_pos count,
      div_le_iff₀ count]
    linarith
  · rw [List.length_map, List.length_map, ← length, div_left_inj' count.ne', Int.cast_list_sum]

end Means

namespace Page

/-! ## What the tab counts -/

namespace Tally

variable (reports : List MatchReport)

theorem ofReports_append_singleton (r : MatchReport) :
    ofReports (reports ++ [r]) = (ofReports reports).add r := by
  simp [ofReports]

theorem foldl_exact (rounds : List RoundDetail) (n : Int) :
    rounds.foldl (fun n d => if d.aiDistance == 0 then n + 1 else n) n =
      n + rounds.countP (·.aiDistance == 0) := by
  induction rounds generalizing n with
  | nil => simp
  | cons d rounds ih =>
    rw [List.foldl_cons, ih, List.countP_cons]
    split <;> grind

/-- The tab counts what a batch report counts. -/
theorem ofReports_eq : ofReports reports =
    { playerWins := BatchReport.countWins reports .player
      aiWins := BatchReport.countWins reports .ai
      draws := BatchReport.countDraws reports
      rounds := BatchReport.totalRounds reports
      aiExact := (reports.flatMap (·.rounds)).countP (·.aiDistance == 0)
      lengths := BatchReport.distribution (reports.map (·.roundsPlayed)) } := by
  induction reports using List.reverseRecOn with
  | nil => rfl
  | append_singleton reports r ih =>
    have apart : Winner.player.name ≠ Winner.ai.name := by decide
    have total : BatchReport.totalRounds (reports ++ [r]) =
        BatchReport.totalRounds reports + r.roundsPlayed := by
      simp [BatchReport.totalRounds]
    rw [ofReports_append_singleton, ih, add, total, List.map_append, List.map_singleton,
      BatchReport.distribution_append_singleton, List.flatMap_append, List.flatMap_singleton,
      List.countP_append, foldl_exact]
    by_cases player : r.winner = some Winner.player.name
    · simp [addWinner, BatchReport.countWins, BatchReport.countDraws, player, apart]
    · by_cases ai : r.winner = some Winner.ai.name
      · simp [addWinner, BatchReport.countWins, BatchReport.countDraws, ai, apart.symm]
      · simp [addWinner, BatchReport.countWins, BatchReport.countDraws, player, ai]

end Tally

/-! ## The two reports -/

variable {runs : Int} {preset : String} {reports : List MatchReport} {b : BatchReport}

/-- The distances that are averaged by the tab are those that a batch averages, each rounded. -/
theorem forall₂_roundedDistances (side : RoundDetail → Float) (reports : List MatchReport) :
    (BatchReport.finiteDistances side (reports.flatMap (·.rounds))).Forall₂ RoundsTo
      (roundedDistances side reports) := by
  refine Expression.forall₂_roundsTo_iff.mpr ⟨fun x hx => (List.mem_filter.mp hx).2, ?_⟩
  rw [BatchReport.finiteDistances, roundedDistances]
  induction reports.flatMap (·.rounds) with
  | nil => rfl
  | cons d rounds ih =>
    have finite := isSome_roundHalfEven? (side d)
    cases rounded : roundHalfEven? (side d) with
    | none => simp_all
    | some n => simp_all

theorem Distances.exists_mean {d : Distances} (small : d.fitWords = true) (side : List Int) :
    ∃ mean, d.mean side = .ok mean := by
  unfold Distances.mean
  split <;> exact ⟨_, rfl⟩

theorem exists_batchOf (small : (Distances.ofReports reports).fitWords = true) (runs : Int)
    (preset : String) : ∃ b, batchOf runs preset reports = .ok b := by
  obtain ⟨mine, player⟩ := Distances.exists_mean small (Distances.ofReports reports).player
  obtain ⟨theirs, ai⟩ := Distances.exists_mean small (Distances.ofReports reports).ai
  simp only [batchOf, player, ai]
  exact ⟨_, rfl⟩

/-- The tab's report on at least one match is that of a batch but for the two averages. -/
theorem batchOf_ok (some_match : 0 < runs) (shown : batchOf runs preset reports = .ok b) :
    b = { BatchReport.ofReports runs preset reports with
        avgPlayerDistance := b.avgPlayerDistance
        avgAiDistance := b.avgAiDistance } ∧
      (Distances.ofReports reports).mean (roundedDistances (·.playerDistance) reports) =
        .ok b.avgPlayerDistance ∧
      (Distances.ofReports reports).mean (roundedDistances (·.aiDistance) reports) =
        .ok b.avgAiDistance := by
  obtain ⟨mine, player, shown⟩ := bind_ok shown
  obtain ⟨theirs, ai, shown⟩ := bind_ok shown
  cases shown
  refine ⟨?_, player, ai⟩
  rw [Tally.ofReports_eq, BatchReport.ofReports, if_neg some_match.ne', if_neg some_match.ne']

/-- The two reports on the same matches: that of the tab is shown if no distance is too large, its
counts and rates are those of a batch, and its averages are those of the rounded distances. -/
theorem batchOf_agrees (some_match : 0 < runs) (preset : String) (reports : List MatchReport) :
    ((Distances.ofReports reports).fitWords = true →
      ∃ b, batchOf runs preset reports = .ok b) ∧
    (∀ b, batchOf runs preset reports = .ok b →
      b = { BatchReport.ofReports runs preset reports with
          avgPlayerDistance := b.avgPlayerDistance
          avgAiDistance := b.avgAiDistance } ∧
        (Distances.ofReports reports).mean (roundedDistances (·.playerDistance) reports) =
          .ok b.avgPlayerDistance ∧
        (Distances.ofReports reports).mean (roundedDistances (·.aiDistance) reports) =
          .ok b.avgAiDistance) ∧
    ∀ side : RoundDetail → Float,
      MeansOf (BatchReport.finiteDistances side (reports.flatMap (·.rounds)))
        (roundedDistances side reports) :=
  ⟨fun small => exists_batchOf small runs preset, fun _ => batchOf_ok some_match,
    fun side => meansOf (forall₂_roundedDistances side reports)⟩

/-- A match of one round, in which the player is a quarter off the target and the other side hits
it. -/
def quarterOff : MatchReport where
  winner := some Winner.ai.name
  roundsPlayed := 1
  playerCredits := 0
  aiCredits := 2
  playerRoundWins := 0
  aiRoundWins := 1
  draws := 0
  presetUsed := "standard"
  rounds :=
    [{ round := 1
       target := 5
       bet := 1
       playerExpression := "5 + 1 ÷ 4"
       playerValue := 5.25
       playerDistance := 0.25
       aiExpression := "4 + 0 + 1"
       aiValue := 5
       aiDistance := 0
       winner := Winner.ai.name }]

/-- The tab tells of the quarter as nothing. -/
theorem batchOf_agrees_quarterOff :
    let batch := BatchReport.ofReports 1 "standard" [quarterOff]
    0 < (1 : Int) ∧ ∃ b, batchOf 1 "standard" [quarterOff] = .ok b ∧ b.aiWins = batch.aiWins ∧
      b.roundsDistribution = [(1, 1)] ∧ (b.avgPlayerDistance == 0) = true ∧
      (batch.avgPlayerDistance == 0.25) = true := by
  intro batch
  have some_match : 0 < (1 : Int) := by decide
  obtain ⟨shown, agrees, -⟩ := batchOf_agrees some_match "standard" [quarterOff]
  obtain ⟨b, batch_eq⟩ := shown (by decide +kernel)
  obtain ⟨counts, player, -⟩ := agrees b batch_eq
  have nothing : ((Distances.ofReports [quarterOff]).mean
      (roundedDistances (·.playerDistance) [quarterOff])).map (· == 0) = .ok true := by
    decide +kernel
  rw [player] at nothing
  refine ⟨some_match, b, batch_eq, ?_, ?_, Except.ok.inj nothing, by decide +kernel⟩
  · rw [counts]
  · rw [counts]
    rfl

/-- The average over a quarter is a quarter in the one report, and nothing in the other. -/
theorem not_means_eq : ¬ ∀ reports : List MatchReport,
    exactMean ((roundedDistances (·.playerDistance) reports).map (↑)) =
      exactMean ((BatchReport.finiteDistances (·.playerDistance)
        (reports.flatMap (·.rounds))).map exactValue) := by
  intro same
  have rounded : roundedDistances (·.playerDistance) [quarterOff] = [0] := by decide +kernel
  have finite : BatchReport.finiteDistances (·.playerDistance)
      ([quarterOff].flatMap (·.rounds)) = [0.25] := rfl
  have quarter : exactValue 0.25 = 1 / 4 := by
    have reading : Reading.ofFloat 0.25 = .finite ⟨false, 2 ^ 52, -54⟩ := by decide +kernel
    rw [exactValue, reading]
    norm_num [Dyadic.value]
  have means := same [quarterOff]
  rw [rounded, finite] at means
  norm_num [exactMean, quarter] at means

end Page

end NumberDuel
