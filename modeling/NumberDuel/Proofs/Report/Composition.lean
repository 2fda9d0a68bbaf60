import NumberDuel.Proofs.Report.Agreement
import NumberDuel.Report.Batch

/-!
# Batches compose

A match is decided by its seed and nothing else. So the matches of a batch are those of two smaller
batches, of which the second goes on with the seeds where the first stops, and all that is counted
adds up.
-/

namespace NumberDuel.BatchReport

/-! ## Lists of counts -/

section Distribution

variable (key : Int) (counts : List (Int × Int)) (keys : List Int)

/-- A key that occurs once more is counted once more, and no other. -/
theorem lookup_count (other : Int) :
    (count key counts).lookup other =
      if other = key then some ((counts.lookup key).getD 0 + 1) else counts.lookup other := by
  induction counts with
  | nil => grind [count]
  | cons entry counts ih =>
    obtain ⟨k, n⟩ := entry
    unfold count
    split
    · next found => grind
    · next apart => grind

theorem sum_counts_count :
    ((count key counts).map Prod.snd).sum = (counts.map Prod.snd).sum + 1 := by
  induction counts with
  | nil => rfl
  | cons entry counts ih =>
    unfold count
    split
    · simp only [List.map_cons, List.sum_cons]
      omega
    · simp only [List.map_cons, List.sum_cons, ih]
      omega

theorem sum_products_count :
    ((count key counts).map fun (k, n) => k * n).sum =
      (counts.map fun (k, n) => k * n).sum + key := by
  induction counts with
  | nil => simp [count]
  | cons entry counts ih =>
    unfold count
    split
    · next found =>
      simp only [List.map_cons, List.sum_cons, found]
      ring
    · simp only [List.map_cons, List.sum_cons, ih]
      ring

theorem keys_count : (count key counts).map Prod.fst =
    if key ∈ counts.map Prod.fst then counts.map Prod.fst else counts.map Prod.fst ++ [key] := by
  induction counts with
  | nil => rfl
  | cons entry counts ih =>
    unfold count
    split
    · next found => simp [found]
    · next other =>
      simp only [List.map_cons, ih, List.mem_cons]
      split <;> simp_all [eq_comm]

theorem distribution_append_singleton :
    distribution (keys ++ [key]) = count key (distribution keys) := by
  simp [distribution]

theorem lookup_distribution :
    (distribution keys).lookup key = if key ∈ keys then some (keys.count key : Int) else none := by
  induction keys using List.reverseRecOn with
  | nil => rfl
  | append_singleton keys k ih =>
    rw [distribution_append_singleton, lookup_count]
    by_cases same : key = k
    · subst same
      by_cases before : key ∈ keys
      · simp [ih, before]
      · simp [ih, before, List.count_eq_zero_of_not_mem]
    · simp [ih, same, Ne.symm same]

theorem nodup_keys_distribution : ((distribution keys).map Prod.fst).Nodup := by
  induction keys using List.reverseRecOn with
  | nil => exact List.nodup_nil
  | append_singleton keys k ih =>
    rw [distribution_append_singleton, keys_count]
    split
    · exact ih
    · next fresh => exact List.nodup_append.mpr ⟨ih, List.nodup_singleton k, by grind⟩

theorem sum_counts_distribution : ((distribution keys).map Prod.snd).sum = keys.length := by
  induction keys using List.reverseRecOn with
  | nil => rfl
  | append_singleton keys k ih =>
    rw [distribution_append_singleton, sum_counts_count, ih]
    simp

theorem sum_products_distribution :
    ((distribution keys).map fun (k, n) => k * n).sum = keys.sum := by
  induction keys using List.reverseRecOn with
  | nil => rfl
  | append_singleton keys k ih =>
    rw [distribution_append_singleton, sum_products_count, ih]
    simp

/-- Of two lists of keys taken together, the counts add up. -/
theorem lookup_distribution_append (more : List Int) :
    (distribution (keys ++ more)).lookup key =
      Option.merge (· + ·) ((distribution keys).lookup key) ((distribution more).lookup key) := by
  simp only [lookup_distribution, List.mem_append]
  by_cases first : key ∈ keys <;> by_cases second : key ∈ more <;>
    simp [first, second, Option.merge, List.count_eq_zero_of_not_mem]

end Distribution

/-! ## What a batch report adds up -/

variable {reports more : List MatchReport}

theorem countWins_add (reports : List MatchReport) :
    countWins reports .player + countWins reports .ai + countDraws reports = reports.length := by
  induction reports with
  | nil => rfl
  | cons report reports ih =>
    have apart : Winner.player.name ≠ Winner.ai.name := by decide
    simp only [countWins, countDraws, List.countP_cons, List.length_cons] at ih ⊢
    by_cases player : report.winner = some Winner.player.name
    · simp [player, apart]
      omega
    · by_cases ai : report.winner = some Winner.ai.name
      · simp [ai, apart.symm]
        omega
      · simp [player, ai]
        omega

theorem totalRounds_eq (reports : List MatchReport) :
    totalRounds reports = (reports.map (·.roundsPlayed)).sum := by
  rw [totalRounds, List.sum_eq_foldl, List.foldl_map]

/-- What a batch report tells of these matches in all. -/
structure Accounts (batch : BatchReport) (reports : List MatchReport) : Prop where
  games : batch.games = reports.length
  outcomes : batch.playerWins + batch.aiWins + batch.draws = reports.length
  keys : (batch.roundsDistribution.map Prod.fst).Nodup
  counts : (batch.roundsDistribution.map Prod.snd).sum = reports.length
  rounds : (batch.roundsDistribution.map fun (rounds, count) => rounds * count).sum =
    (reports.map (·.roundsPlayed)).sum
  average : batch.avgRounds = if reports.length = 0 then 0 else
    ratio (batch.roundsDistribution.map fun (rounds, count) => rounds * count).sum reports.length

/-- The wins and the lengths of the matches in one report are those of two others together. -/
structure Composes (whole first second : BatchReport) : Prop where
  playerWins : whole.playerWins = first.playerWins + second.playerWins
  aiWins : whole.aiWins = first.aiWins + second.aiWins
  draws : whole.draws = first.draws + second.draws
  distribution : ∀ rounds, whole.roundsDistribution.lookup rounds =
    Option.merge (· + ·) (first.roundsDistribution.lookup rounds)
      (second.roundsDistribution.lookup rounds)

theorem accounts_ofReports (preset : String) (reports : List MatchReport) :
    (ofReports reports.length preset reports).Accounts reports := by
  refine ⟨rfl, ?_, nodup_keys_distribution _, ?_, sum_products_distribution _, ?_⟩
  · exact congrArg Nat.cast (countWins_add reports)
  · exact (sum_counts_distribution _).trans (by simp)
  · simp [ofReports, sum_products_distribution, totalRounds_eq]

theorem composes_ofReports (preset : String) (runs runs' runs'' : Int)
    (reports more : List MatchReport) :
    (ofReports runs preset (reports ++ more)).Composes (ofReports runs' preset reports)
      (ofReports runs'' preset more) := by
  refine ⟨?_, ?_, ?_, fun rounds => ?_⟩
  · simp [ofReports, countWins]
  · simp [ofReports, countWins]
  · simp [ofReports, countDraws]
  · simp only [ofReports, List.map_append]
    exact lookup_distribution_append _ _ _

/-! ## The matches of a batch -/

def reportsFrom (preset : Preset) (name : String) (seed : Int) (games : Nat) :
    Except Error (List MatchReport) :=
  (List.range games).mapM fun i : Nat =>
    (MatchReport.ofPreset preset name none (seed + i)).result

theorem result_play (preset : Preset) (name : String) (verbose : Bool) (runs seed : Int)
    (left played : Nat) :
    (play preset name verbose runs seed left played).result =
      (List.range' played left).mapM fun i : Nat =>
        (MatchReport.ofPreset preset name none (seed + i)).result := by
  induction left generalizing played with
  | zero => rfl
  | succ left ih =>
    rw [List.range'_succ, List.mapM_cons]
    simp only [play, Printed.result_bind, Printed.result_say, Printed.result_pure, ih]
    rfl

theorem result_run {choice : PresetChoice} {preset : Preset} {name : String}
    (resolved : choice.resolve = .ok (preset, name)) (games : Nat) (verbose : Bool) (seed : Int) :
    (run choice games verbose seed).result =
      (reportsFrom preset name seed games).map fun reports => ofReports games name reports := by
  have played : (play preset name verbose games seed (games : Int).toNat 0).result =
      reportsFrom preset name seed games := by
    rw [result_play, reportsFrom, List.range_eq_range', Int.toNat_natCast]
  simp only [run, Printed.result_bind, Printed.result_lift, resolved]
  change (play preset name verbose games seed (games : Int).toNat 0).result >>= _ = _
  rw [played]
  cases reportsFrom preset name seed games <;> rfl

theorem reportsFrom_add (preset : Preset) (name : String) (seed : Int) (n m : Nat) :
    reportsFrom preset name seed (n + m) = do
      return (← reportsFrom preset name seed n) ++ (← reportsFrom preset name (seed + n) m) := by
  have next (i : Nat) : seed + ((n + i : Nat) : Int) = seed + n + i := by
    omega
  rw [reportsFrom, List.range_add, List.mapM_append, List.mapM_map]
  simp only [reportsFrom, Function.comp_def, next]

theorem exists_reportsFrom {preset : Preset} {name : String} {seed : Int} {games : Nat}
    (finishes : ∀ i < games, ∃ g, Game.simulate preset.config preset.players (seed + i) name none =
      (g, .ok ())) :
    ∃ reports, reportsFrom preset name seed games = .ok reports ∧ reports.length = games := by
  cases played : reportsFrom preset name seed games with
  | error e =>
    obtain ⟨i, hi, failed⟩ := mapM_error played
    obtain ⟨g, simulated⟩ := finishes i (List.mem_range.mp hi)
    rw [MatchReport.result_ofPreset] at failed
    change (Game.simulate preset.config preset.players (seed + i) name none).2.map _ = _ at failed
    rw [simulated] at failed
    cases failed
  | ok reports =>
    exact ⟨reports, rfl, (mapM_ok played).1.trans List.length_range⟩

/-- A batch of a preset whose matches are simulated without an error is reported, and its report
adds up the matches that its seeds decide. Two batches of which one goes on with the seeds of the
other add up to the batch over all of these seeds. -/
theorem composes_of_run {choice : PresetChoice} {preset : Preset} {name : String}
    (resolved : choice.resolve = .ok (preset, name)) {seed : Int} {n m : Nat}
    (finishes : ∀ i < n + m, ∃ g,
      Game.simulate preset.config preset.players (seed + i) name none = (g, .ok ()))
    (verbose : Bool) :
    ∃ reports more first second whole,
      reportsFrom preset name seed n = .ok reports ∧
      reportsFrom preset name (seed + n) m = .ok more ∧
      reportsFrom preset name seed (n + m) = .ok (reports ++ more) ∧
      reports.length = n ∧ more.length = m ∧
      (run choice n verbose seed).result = .ok first ∧ first.Accounts reports ∧
      (run choice m verbose (seed + n)).result = .ok second ∧ second.Accounts more ∧
      (run choice (n + m : Nat) verbose seed).result = .ok whole ∧
      whole.Accounts (reports ++ more) ∧ whole.Composes first second := by
  obtain ⟨reports, played, rfl⟩ := exists_reportsFrom fun i hi => finishes i (Nat.lt_add_right m hi)
  -- the seeds of the second batch follow on those of the first
  obtain ⟨more, played_more, rfl⟩ : ∃ more,
      reportsFrom preset name (seed + reports.length) m = .ok more ∧ more.length = m := by
    refine exists_reportsFrom fun i hi => ?_
    have next : seed + reports.length + (i : Int) = seed + ((reports.length + i : Nat) : Int) := by
      omega
    rw [next]
    exact finishes _ (Nat.add_lt_add_left hi _)
  have all : reportsFrom preset name seed (reports.length + more.length) =
      .ok (reports ++ more) := by
    rw [reportsFrom_add, played, played_more]
    rfl
  have together := accounts_ofReports name (reports ++ more)
  rw [List.length_append] at together
  refine ⟨reports, more, ofReports reports.length name reports, ofReports more.length name more,
    ofReports (reports.length + more.length : Nat) name (reports ++ more), played, played_more, all,
    rfl, rfl, ?_, accounts_ofReports name reports, ?_, accounts_ofReports name more, ?_, together,
    composes_ofReports ..⟩
  · rw [result_run resolved, played]
    rfl
  · rw [result_run resolved, played_more]
    rfl
  · rw [result_run resolved, all]
    rfl

/-- Two matches for high stakes, and three more. -/
theorem composes_of_run_hard :
    ∃ first second whole, (run (.named "hard") 2 false 7).result = .ok first ∧
      (run (.named "hard") 3 false 9).result = .ok second ∧
      (run (.named "hard") 5 false 7).result = .ok whole ∧
      whole.playerWins + whole.aiWins + whole.draws = 5 ∧ whole.Composes first second := by
  have resolved : PresetChoice.resolve (.named "hard") = .ok (.hard, "hard") := by decide
  have fair : Preset.hard.config.Fair := @Preset.fair_of_mem_builtIn "hard" Preset.hard (by decide)
  have finishes (i : Nat) (_ : i < 2 + 3) : ∃ g,
      Game.simulate Preset.hard.config Preset.hard.players (7 + i) "hard" none = (g, .ok ()) :=
    Game.exists_simulate fair.unhindered Preset.hard.players (7 + i) "hard" none
  obtain ⟨reports, more, first, second, whole, -, -, -, two, three, run_first, -, run_second, -,
      run_whole, accounts, composes⟩ :=
    composes_of_run (n := 2) (m := 3) resolved finishes false
  refine ⟨first, second, whole, run_first, run_second, run_whole, ?_, composes⟩
  rw [accounts.outcomes, List.length_append, two, three]
  rfl

end NumberDuel.BatchReport
