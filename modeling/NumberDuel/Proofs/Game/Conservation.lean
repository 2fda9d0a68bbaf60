import NumberDuel.Proofs.Game.Credits

/-!
# What one side loses the other wins

A match only moves credits from one side to the other: their sum stays what it was at the start,
and the player's credits are told by the results. The winner of a match that is over is found by
looking at one side after the other. Because of the sum this is the side with more credits, also
when the other one is in debt.
-/

namespace NumberDuel.Game

variable {config : GameConfig} {players : Players} {bet : Option Int} {g g' : Game}

/-! ## The states of a match that is played -/

/-- The states of a match while it is played, whatever the bets are and whatever the two sides
submit. A result is settled when it has been scored. -/
inductive Played (config : GameConfig) : Game → Prop
  | start (seed : Int) (preset : String) : Played config (start config seed preset)
  | deal {g g' : Game} {target bet : Option Int} {outcome : Except Error Unit}
      (played : Played config g) (dealt : g.deal target bet = (g', outcome)) : Played config g'
  | play {g g' : Game} {strategy : Strategy} {hand : Hand} {outcome : Except Error Expression}
      (played : Played config g) (plays : g.play strategy hand = (g', outcome)) :
      Played config g'
  | score {g g' : Game} {player ai : Expression} {outcome : Except Error RoundResult}
      (played : Played config g) (scores : g.score player ai = (g', outcome)) : Played config g'
  | settle {g g' : Game} {player ai : Expression} {r : RoundResult} (played : Played config g)
      (scores : g.score player ai = (g', .ok r)) : Played config (g'.settle r)

theorem Played.playDealt {dealt : Game × Except Error Unit} (h : Played config dealt.1)
    (players : Players) : Played config (playDealt players dealt).1 := by
  unfold Game.playDealt
  split
  · exact h
  next g =>
  split
  · next mine => exact h.play mine
  next g mine_eq =>
  have h := h.play mine_eq
  split
  · next theirs => exact h.play theirs
  next theirs_eq =>
  have h := h.play theirs_eq
  split
  · next scores => exact h.score scores
  · next scores => exact h.settle scores

theorem Played.playRound (h : Played config g) (players : Players) (target bet : Option Int) :
    Played config (g.playRound players target bet).1 := by
  rw [playRound_eq]
  exact (h.deal rfl).playDealt players

theorem Played.playRounds (h : Played config g) (players : Players) (bet : Option Int)
    (rounds : Nat) : Played config (playRounds players bet rounds g).1 := by
  induction rounds generalizing g with
  | zero => exact h
  | succ rounds ih =>
    have round := h.playRound players none bet
    unfold Game.playRounds
    split
    · exact h
    split
    · next stopped =>
      rw [stopped] at round
      exact round
    · next settled =>
      rw [settled] at round
      exact ih round

/-! ## Conservation -/

/-- What a match conserves: the sum of all credits, and the account of the player's. -/
structure Conserved (config : GameConfig) (g : Game) : Prop where
  total : g.playerCredits + g.aiCredits = 2 * config.startingCredits
  player : g.playerCredits =
    config.startingCredits + (g.results.map (·.playerScoreChange)).sum

theorem conserved_start (config : GameConfig) (seed : Int) (preset : String) :
    Conserved config (start config seed preset) := by
  obtain ⟨chooser, random, eq⟩ := start_eq config seed preset
  rw [eq]
  exact ⟨(Int.two_mul _).symm, by simp⟩

theorem Conserved.deal (h : Conserved config g) {target bet : Option Int}
    {outcome : Except Error Unit} (dealt : g.deal target bet = (g', outcome)) :
    Conserved config g' := by
  rcases g.deal_cases target bet with ⟨-, eq⟩ | ⟨-, _, _, _, _, _, _, _, _, _, _, eq, -⟩ <;>
    cases dealt.symm.trans eq <;> exact ⟨h.total, h.player⟩

theorem Conserved.score (h : Conserved config g) {player ai : Expression}
    {outcome : Except Error RoundResult} (scores : g.score player ai = (g', outcome)) :
    Conserved config g' := by
  obtain ⟨kept, eq⟩ := g.score_eq player ai
  obtain ⟨rfl, -⟩ := Prod.mk.inj (scores.symm.trans eq)
  exact ⟨h.total, h.player⟩

theorem Conserved.settle (h : Conserved config g) {r : RoundResult} (balanced : Balanced r) :
    Conserved config (g.settle r) := by
  obtain ⟨history, kept, eq⟩ := g.settle_eq r
  have opposed : r.aiScoreChange = -r.playerScoreChange :=
    balanced.ai.trans (congrArg _ balanced.player.symm)
  have total := h.total
  have player := h.player
  rw [eq]
  constructor
  · dsimp only
    omega
  · simp only [List.map_append, List.map_singleton, List.sum_append, List.sum_singleton]
    omega

/-- Nothing that happens in a match makes or loses credits. -/
theorem Played.conserved (h : Played config g) : Conserved config g := by
  induction h with
  | start seed preset => exact conserved_start config seed preset
  | deal played dealt ih => exact ih.deal dealt
  | play played plays ih =>
    obtain ⟨rfl, -⟩ := Prod.mk.inj plays
    exact ⟨ih.total, ih.player⟩
  | score played scores ih => exact ih.score scores
  | settle played scores ih =>
    obtain ⟨-, -, balanced⟩ := scored_ok (congrArg Prod.snd scores)
    exact (ih.score scores).settle balanced

/-! ## The winner -/

/-- Where there were credits to begin with, at most one side can be out of them. -/
theorem Conserved.winner (h : Conserved config g) (credits : 0 < config.startingCredits)
    (ended : g.isOver = true) :
    (g.winner = some .player ↔ g.aiCredits < g.playerCredits) ∧
      (g.winner = some .ai ↔ g.playerCredits < g.aiCredits) ∧
      (g.winner = some .draw ↔ g.playerCredits = g.aiCredits) := by
  have total := h.total
  simp only [Game.winner, ended, Bool.not_true, Bool.false_eq_true, if_false]
  split_ifs <;> simp <;> omega

/-! ## The end of a match -/

/-- A round that is played to its end is one round more under the same rules. -/
theorem playRound_ok {target : Option Int} {r : RoundResult}
    (played : g.playRound players target bet = (g', .ok r)) :
    g'.config = g.config ∧ g'.roundNumber = g.roundNumber + 1 := by
  obtain ⟨-, -, kept, rfl⟩ := playDealt_ok played
  obtain ⟨history, kept', settle_eq⟩ := settle_eq { (g.deal target bet).1 with notes := kept } r
  rw [settle_eq]
  rcases g.deal_cases target bet with ⟨-, eq⟩ | ⟨-, _, _, _, _, _, _, _, _, _, _, eq, -⟩ <;>
    rw [eq] <;> exact ⟨rfl, rfl⟩

/-- A match that no error stops is over after the rounds that the rules leave. -/
theorem isOver_of_playRounds {rounds : Nat} (enough : g.roundsLeft ≤ rounds)
    (played : playRounds players bet rounds g = (g', .ok ())) : g'.isOver = true := by
  induction rounds generalizing g with
  | zero =>
    cases played
    rw [roundsLeft] at enough
    simp only [isOver, Bool.or_eq_true, decide_eq_true_eq]
    omega
  | succ rounds ih =>
    unfold playRounds at played
    split at played
    · next ended =>
      cases played
      exact ended
    split at played
    · cases played
    next settled =>
    obtain ⟨rules, round⟩ := playRound_ok settled
    refine ih ?_ played
    rw [roundsLeft] at enough ⊢
    rw [rules, round]
    omega

/-- In every state of a match the two sides together have what both started with, and the player
has what the settled results add to its start. Once the match is over, its winner is the side with
more credits, and it is a draw where both have as many. Matches that are simulated are played in
this way, and are over in the end unless an error stops them. -/
theorem zero_sum_match (config : GameConfig) (credits : 0 < config.startingCredits) :
    (∀ g, Played config g →
      g.playerCredits + g.aiCredits = 2 * config.startingCredits ∧
      g.playerCredits =
        config.startingCredits + (g.results.map (·.playerScoreChange)).sum ∧
      (g.isOver = true →
        (g.winner = some .player ↔ g.aiCredits < g.playerCredits) ∧
        (g.winner = some .ai ↔ g.playerCredits < g.aiCredits) ∧
        (g.winner = some .draw ↔ g.playerCredits = g.aiCredits))) ∧
    ∀ players seed preset bet,
      (∀ rounds, Played config (playRounds players bet rounds (start config seed preset)).1) ∧
      ∀ g, simulate config players seed preset bet = (g, .ok ()) →
        Played config g ∧ g.isOver = true := by
  refine ⟨fun g played => ?_, fun players seed preset bet => ?_⟩
  · have conserved := played.conserved
    exact ⟨conserved.total, conserved.player, conserved.winner credits⟩
  · have begun : Played config (start config seed preset) := .start seed preset
    refine ⟨fun rounds => begun.playRounds players bet rounds, fun g simulated => ⟨?_, ?_⟩⟩
    · have played : Played config (simulate config players seed preset bet).1 :=
        begun.playRounds players bet _
      rw [simulated] at played
      exact played
    · exact isOver_of_playRounds le_rfl simulated

/-- The searching side against itself, for high stakes. -/
theorem zero_sum_match_hard :
    0 < GameConfig.hard.startingCredits ∧
      ∃ g, simulate .hard ⟨.smart, .smart⟩ 7 "hard" (some 10) = (g, .ok ()) ∧
        g.playerCredits + g.aiCredits = 30 ∧
        (g.winner = some .player ↔ g.aiCredits < g.playerCredits) ∧
        (g.winner = some .ai ↔ g.playerCredits < g.aiCredits) ∧
        (g.winner = some .draw ↔ g.playerCredits = g.aiCredits) := by
  have credits : 0 < GameConfig.hard.startingCredits := by decide
  have fair : GameConfig.hard.Fair :=
    @Preset.fair_of_mem_builtIn "hard" Preset.hard (by decide)
  obtain ⟨states, simulated⟩ := zero_sum_match .hard credits
  have begun : Between .hard ⟨.smart, .smart⟩ (start .hard 7 "hard") := .start 7 "hard"
  obtain ⟨g, simulate_eq, -⟩ := begun.exists_playRounds fair (some 10) _
  obtain ⟨-, whole⟩ := simulated ⟨.smart, .smart⟩ 7 "hard" (some 10)
  obtain ⟨played, ended⟩ := whole g simulate_eq
  obtain ⟨total, -, winner⟩ := states g played
  exact ⟨credits, g, simulate_eq, total, winner ended⟩

end NumberDuel.Game
