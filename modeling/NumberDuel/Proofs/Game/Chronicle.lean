import NumberDuel.Proofs.Game.Progress
import NumberDuel.Proofs.Game.Recording

/-!
# The chronicle of a match

The history of a match that is simulated has a chapter of two events for each round, the deal and
the result, and one last event for the end of the match. No round is missing and none is told
twice, and each event carries its place as its stamp.
-/

namespace NumberDuel

/-! ## Chapters -/

/-- A round as a history tells it: both hands as they were dealt, and the result. -/
structure Chapter where
  playerHand : String
  aiHand : String
  result : RoundResult

namespace Chapter

def events (c : Chapter) (i : Nat) : List Event :=
  [⟨i + 1, History.roundStart,
      [("target", .whole c.result.target), ("bet", .whole c.result.bet),
        ("player_hand", .text c.playerHand), ("ai_hand", .text c.aiHand)], 2 * i⟩,
    ⟨i + 1, History.roundResult, c.result.record, 2 * i + 1⟩]

/-- The events of consecutive rounds from the first one on. -/
def tell (chapters : List Chapter) : List Event :=
  chapters.zipIdx.flatMap fun (c, i) => c.events i

theorem tell_append_singleton (chapters : List Chapter) (c : Chapter) :
    tell (chapters ++ [c]) = tell chapters ++ c.events chapters.length := by
  simp [tell, List.zipIdx_append]

theorem stamps_tell (chapters : List Chapter) :
    (tell chapters).map (·.stamp) = List.range (2 * chapters.length) := by
  induction chapters using List.reverseRecOn with
  | nil => rfl
  | append_singleton chapters c ih =>
    rw [tell_append_singleton, List.map_append, ih, List.length_append, List.length_singleton,
      Nat.mul_add_one, List.range_succ, List.range_succ]
    simp [events]

theorem length_tell (chapters : List Chapter) : (tell chapters).length = 2 * chapters.length := by
  simpa using congrArg List.length (stamps_tell chapters)

end Chapter

namespace Game

variable {config : GameConfig} {players : Players} {asked bet : Option Int} {g g' : Game}
  {r : RoundResult}

def ending (g : Game) (rounds : Nat) : Event :=
  ⟨rounds, History.matchEnd,
    [("winner", (g.winner.map Winner.name).elim .null .text),
      ("player_credits", .whole g.playerCredits), ("ai_credits", .whole g.aiCredits)], 2 * rounds⟩

def epilogue (g : Game) : List Event :=
  if g.isOver ∧ g.results ≠ [] then [g.ending g.results.length] else []

/-- What the history of a match tells between its rounds. -/
structure Chronicled (g : Game) : Prop where
  round : g.roundNumber = g.results.length
  counted : g.history.counter = g.history.events.length
  told : ∃ chapters, chapters.map Chapter.result = g.results ∧
    g.history.events = Chapter.tell chapters ++ g.epilogue

theorem chronicled_start (config : GameConfig) (seed : Int) (preset : String) :
    Chronicled (start config seed preset) := by
  obtain ⟨chooser, random, eq⟩ := start_eq config seed preset
  rw [eq]
  exact ⟨rfl, rfl, [], rfl, by simp [Chapter.tell, epilogue]⟩

/-! ## One round -/

theorem target_of_scored {player ai : Expression} (scored : g.scored player ai = .ok r) :
    g.target = some r.target := by
  unfold Game.scored at scored
  split at scored
  · next target _ aimed =>
    obtain ⟨j, -, scored⟩ := bind_ok scored
    obtain ⟨k, -, scored⟩ := bind_ok scored
    cases scored
    exact aimed
  · cases scored

/-- What a round that is played to its end adds to a match. -/
theorem playRound_adds (played : g.playRound players asked bet = (g', .ok r)) :
    g.isOver = false ∧ g'.roundNumber = g.roundNumber + 1 ∧ g'.results = g.results ++ [r] ∧
      ∃ playerHand aiHand, g'.history =
        let recorded := (g.history.addRoundStart (g.roundNumber + 1) r.target r.bet playerHand
          aiHand).addRoundResult (g.roundNumber + 1) r.record
        if g'.isOver then
          recorded.addMatchEnd (g.roundNumber + 1) (g'.winner.map Winner.name) g'.playerCredits
            g'.aiCredits
        else recorded := by
  rw [playRound_eq] at played
  obtain ⟨dealt_ok, contested, kept, rfl⟩ := playDealt_ok played
  rcases dealt_eq : g.deal asked bet with ⟨dealt, outcome⟩
  rw [dealt_eq] at dealt_ok contested
  obtain rfl : outcome = .ok () := dealt_ok
  obtain ⟨going, chooser, notes, notes', aim, -, rfl⟩ := deal_ok dealt_eq
  obtain ⟨mine, -, contested⟩ := bind_ok contested
  obtain ⟨theirs, -, scored⟩ := bind_ok contested
  obtain ⟨-, bet_eq, -⟩ := scored_ok scored
  obtain rfl : aim = r.target := Option.some.inj (target_of_scored scored)
  let d := ((g.tableSet chooser r.target bet notes).handsDealt notes').openRound r.target
  obtain ⟨history, kept', settled⟩ := settle_eq { d with notes := kept } r
  refine ⟨going, ?_, ?_, d.playerHand.text, d.aiHand.text, ?_⟩
  · exact congrArg (·.roundNumber) settled
  · exact congrArg (·.results) settled
  · rw [bet_eq]
    exact history_settle { d with notes := kept } r

/-- Each round that is played to its end is told in one more chapter. -/
theorem Chronicled.playRound (h : Chronicled g)
    (played : g.playRound players asked bet = (g', .ok r)) : Chronicled g' := by
  obtain ⟨going, round, results, playerHand, aiHand, history⟩ := playRound_adds played
  obtain ⟨chapters, told, events⟩ := h.told
  have length : chapters.length = g.results.length := by
    rw [← told, List.length_map]
  -- a match that goes on has no last event yet, so the new chapter follows the others
  have silent : g.epilogue = [] := by
    simp [epilogue, going]
  rw [silent, List.append_nil] at events
  refine ⟨?_, ?_, chapters ++ [⟨playerHand, aiHand, r⟩], ?_, ?_⟩
  · rw [round, results, h.round]
    simp
  · rw [history]
    cases g'.isOver <;>
      simp [History.addRoundStart, History.addRoundResult, History.addMatchEnd, History.add,
        h.counted]
  · rw [results, ← told]
    simp
  · have last := Chapter.length_tell chapters
    rw [history, Chapter.tell_append_singleton, length, epilogue, ending, results, h.round]
    cases g'.isOver with
    | true => simp [History.addRoundStart, History.addRoundResult, History.addMatchEnd,
        History.add, h.counted, events, last, length, Chapter.events, Nat.mul_add_one]
    | false => simp [History.addRoundStart, History.addRoundResult, History.add, h.counted, events,
        last, length, Chapter.events]

/-! ## A run of rounds -/

theorem playRounds_over {rounds : Nat} (ended : g.isOver = true) :
    playRounds players bet rounds g = (g, .ok ()) := by
  cases rounds with
  | zero => rfl
  | succ => simp [playRounds, ended]

theorem playRounds_succ (played : g.playRound players none bet = (g', .ok r)) (rounds : Nat) :
    playRounds players bet (rounds + 1) g = playRounds players bet rounds g' := by
  simp [playRounds, (playRound_adds played).1, played]

/-- A run that no error stops, told by how many rounds it plays. Each of them is dealt in a match
that goes on. -/
structure Lasts (players : Players) (bet : Option Int) (g g' : Game) (rounds : Nat) : Prop where
  reached : playRounds players bet rounds g = (g', .ok ())
  results : g'.results.length = g.results.length + rounds
  going : ∀ i < rounds, ∃ mid, playRounds players bet i g = (mid, .ok ()) ∧
    mid.isOver = false ∧ mid.results.length = g.results.length + i

theorem exists_lasts {rounds : Nat} (played : playRounds players bet rounds g = (g', .ok ())) :
    ∃ k ≤ rounds, Lasts players bet g g' k := by
  induction rounds generalizing g with
  | zero =>
    cases played
    exact ⟨0, le_rfl, rfl, rfl, nofun⟩
  | succ rounds ih =>
    cases going : g.isOver with
    | true =>
      cases (playRounds_over going).symm.trans played
      exact ⟨0, Nat.zero_le _, rfl, rfl, nofun⟩
    | false =>
      rcases settled : g.playRound players none bet with ⟨g₁, e | r⟩
      · simp [playRounds, going, settled] at played
      rw [playRounds_succ settled] at played
      obtain ⟨k, few, lasts⟩ := ih played
      obtain ⟨-, -, results, -⟩ := playRound_adds settled
      refine ⟨k + 1, by omega, ?_, ?_, fun i hi => ?_⟩
      · rw [playRounds_succ settled, lasts.reached]
      · rw [lasts.results, results]
        grind
      · cases i with
        | zero => exact ⟨g, rfl, going, rfl⟩
        | succ i =>
          obtain ⟨mid, before, on, length⟩ := lasts.going i (by omega)
          refine ⟨mid, (playRounds_succ settled i).trans before, on, ?_⟩
          rw [length, results]
          grind

theorem Chronicled.playRounds (h : Chronicled g) {rounds : Nat}
    (played : playRounds players bet rounds g = (g', .ok ())) : Chronicled g' := by
  induction rounds generalizing g with
  | zero =>
    cases played
    exact h
  | succ rounds ih =>
    unfold Game.playRounds at played
    split at played
    · cases played
      exact h
    split at played
    · cases played
    next settled => exact ih (h.playRound settled) played

theorem exists_winner (ended : g.isOver = true) : ∃ winner, g.winner = some winner := by
  unfold winner
  split_ifs with going
  · simp [ended] at going
  all_goals exact ⟨_, rfl⟩

theorem results_start (config : GameConfig) (seed : Int) (preset : String) :
    (start config seed preset).results = [] := rfl

theorem results_eq_nil_iff {seed : Int} {preset : String}
    (simulated : simulate config players seed preset bet = (g, .ok ())) :
    g.results = [] ↔ (start config seed preset).isOver = true := by
  constructor
  · intro none
    obtain ⟨k, -, lasts⟩ := exists_lasts simulated
    have length := lasts.results
    rw [none, results_start] at length
    obtain rfl : k = 0 := by simpa using length.symm
    cases lasts.reached
    exact isOver_of_playRounds le_rfl simulated
  · intro ended
    cases (playRounds_over ended).symm.trans simulated
    rfl

/-- By rules that nothing stops, a match is simulated to its end. Where it plays any rounds at all,
its history tells of them one after the other, each in two events with the target, the bet and the
result of the round, and closes with the end of the match; the events are stamped without a gap.
The match is over behind the last of these rounds, and before none of them. -/
theorem chronicle_of_simulate (unhindered : config.Unhindered) (players : Players) (seed : Int)
    (preset : String) (bet : Option Int) :
    ∃ g, simulate config players seed preset bet = (g, .ok ()) ∧
      (g.results = [] ↔ (start config seed preset).isOver = true) ∧
      (g.results ≠ [] → ∃ (k : Nat) (chapters : List Chapter) (winner : Winner),
        k = g.results.length ∧ (k : Int) ≤ config.maxRounds ∧ g.roundNumber = k ∧
        g.isOver = true ∧ g.winner = some winner ∧
        chapters.map Chapter.result = g.results ∧
        g.history.events = Chapter.tell chapters ++
          [⟨k, History.matchEnd,
            [("winner", .text winner.name), ("player_credits", .whole g.playerCredits),
              ("ai_credits", .whole g.aiCredits)], 2 * k⟩] ∧
        g.history.events.map (·.stamp) = List.range (2 * k + 1) ∧
        ∀ i < k, ∃ mid, playRounds players bet i (start config seed preset) = (mid, .ok ()) ∧
          mid.isOver = false ∧ mid.roundNumber = i) := by
  obtain ⟨g, simulated⟩ := exists_simulate unhindered players seed preset bet
  refine ⟨g, simulated, results_eq_nil_iff simulated, fun played => ?_⟩
  have begun := chronicled_start config seed preset
  have chronicled : Chronicled g := begun.playRounds simulated
  have ended : g.isOver = true := isOver_of_playRounds le_rfl simulated
  obtain ⟨chapters, told, events⟩ := chronicled.told
  obtain ⟨winner, won⟩ := exists_winner ended
  obtain ⟨k, few, lasts⟩ := exists_lasts simulated
  have rounds : g.results.length = k := by
    rw [lasts.results, results_start]
    simp
  have length : chapters.length = k := by
    rw [← rounds, ← told, List.length_map]
  have some_played : k ≠ 0 := by
    rintro rfl
    exact played (List.length_eq_zero_iff.mp rounds)
  have closed : g.epilogue = [⟨k, History.matchEnd,
      [("winner", .text winner.name), ("player_credits", .whole g.playerCredits),
        ("ai_credits", .whole g.aiCredits)], 2 * k⟩] := by
    simp [epilogue, ended, played, ending, won, rounds]
  rw [closed] at events
  refine ⟨k, chapters, winner, rounds.symm, ?_, ?_, ended, won, told, events, ?_, fun i hi => ?_⟩
  · have few : k ≤ (config.maxRounds - 0).toNat := few
    omega
  · rw [chronicled.round, rounds]
  · rw [events, List.map_append, Chapter.stamps_tell, length, List.range_succ]
    rfl
  · obtain ⟨mid, before, going, length⟩ := lasts.going i hi
    refine ⟨mid, before, going, ?_⟩
    rw [(begun.playRounds before).round, length, results_start]
    simp

/-- The searching side against itself, for high stakes. -/
theorem chronicle_of_simulate_hard :
    GameConfig.hard.Unhindered ∧
      ∃ g, simulate .hard ⟨.smart, .smart⟩ 7 "hard" (some 10) = (g, .ok ()) ∧ g.results ≠ [] ∧
        ∃ (k : Nat) (chapters : List Chapter) (winner : Winner),
          g.winner = some winner ∧ chapters.map Chapter.result = g.results ∧
          g.history.events = Chapter.tell chapters ++
            [⟨k, History.matchEnd,
              [("winner", .text winner.name), ("player_credits", .whole g.playerCredits),
                ("ai_credits", .whole g.aiCredits)], 2 * k⟩] := by
  have fair : GameConfig.hard.Fair :=
    @Preset.fair_of_mem_builtIn "hard" Preset.hard (by decide)
  have unhindered := fair.unhindered
  obtain ⟨g, simulated, none_iff, told⟩ :=
    chronicle_of_simulate unhindered ⟨.smart, .smart⟩ 7 "hard" (some 10)
  have going : (start .hard 7 "hard").isOver = false :=
    isOver_start (by decide) (by decide) 7 "hard"
  have played : g.results ≠ [] := by
    rw [ne_eq, none_iff, going]
    decide
  obtain ⟨k, chapters, winner, -, -, -, -, won, results, events, -⟩ := told played
  exact ⟨unhindered, g, simulated, played, k, chapters, winner, won, results, events⟩

end Game

end NumberDuel
