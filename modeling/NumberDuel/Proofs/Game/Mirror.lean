import NumberDuel.Proofs.Double.Closeness
import NumberDuel.Proofs.Game.Round

/-!
# The two sides are alike

A round does not look at who sits where: with hands and submissions exchanged it comes out the
other way round. Distances are compared one way only, so this rests on no distance being
undefined, whatever is submitted.
-/

namespace NumberDuel

/-! ## The winner -/

def Winner.mirrored : Winner → Winner
  | .player => .ai
  | .ai => .player
  | .draw => .draw
  | .invalid => .invalid

theorem decideWinner_mirrored {x y : Float} (hx : x.isNaN = false) (hy : y.isNaN = false) :
    decideWinner y x = (decideWinner x y).mirrored := by
  unfold decideWinner
  rw [Bool.and_comm, Double.isClose_comm _ hy hx]
  split
  · rfl
  split
  · rfl
  next apart =>
  rw [Bool.not_eq_true] at apart
  -- of two distances that are apart exactly one is the smaller one
  rcases Double.lt_or_gt_of_isClose hx hy apart with lt | gt
  · rw [if_neg (Double.lt_asymm hx hy lt), if_pos lt]
    rfl
  · rw [if_pos gt, if_neg (Double.lt_asymm hy hx gt)]
    rfl

theorem RoundResult.gain_mirrored (winner : Winner) (bet : Int) :
    gain winner.mirrored bet = -gain winner bet := by
  cases winner <;> simp [Winner.mirrored, gain]

/-! ## The result -/

def RoundResult.mirrored (r : RoundResult) : RoundResult :=
  { r with
    player := r.ai
    ai := r.player
    winner := r.winner.mirrored
    playerScoreChange := -r.playerScoreChange
    aiScoreChange := -r.aiScoreChange }

theorem RoundResult.of_mirrored (target bet : Int) {player ai : SideResult}
    (hp : player.distance.isNaN = false) (ha : ai.distance.isNaN = false) :
    of target bet ai player = (of target bet player ai).mirrored := by
  simp only [of, mirrored, decideWinner_mirrored hp ha, gain_mirrored]

theorem SideResult.distance_of (e : Expression) (j : Judgement) :
    (of e j).distance = j.distance := by
  unfold of
  split <;> rfl

namespace Game

def mirrored (g : Game) : Game := { g with playerHand := g.aiHand, aiHand := g.playerHand }

/-- An open round is scored without regard to the sides: exchanged hands and submissions bring the
exchanged result. No distance in it is undefined, and what one side gains the other side loses: the
bet, or nothing where nobody wins. -/
theorem score_mirrored (g : Game) (dealt : g.dealt = true) {target : Int} {aim : Float}
    (aimed : g.target = some target) (converts : doubleOfInt? target = some aim)
    (player ai : Expression) :
    ∃ r, (g.score player ai).2 = .ok r ∧ (g.mirrored.score ai player).2 = .ok r.mirrored ∧
      r.player.distance.isNaN = false ∧ r.ai.distance.isNaN = false ∧
      (r.winner = .player → r.playerScoreChange = g.bet) ∧
      (r.winner = .ai → r.playerScoreChange = -g.bet) ∧
      (r.winner = .draw ∨ r.winner = .invalid → r.playerScoreChange = 0) ∧
      r.aiScoreChange = -r.playerScoreChange := by
  obtain ⟨mine, mine_judged⟩ := exists_judge player g.playerHand converts
  obtain ⟨theirs, theirs_judged⟩ := exists_judge ai g.aiHand converts
  have mine_defined := isNaN_distance_of_judge converts mine_judged
  have theirs_defined := isNaN_distance_of_judge converts theirs_judged
  rw [← SideResult.distance_of player] at mine_defined
  rw [← SideResult.distance_of ai] at theirs_defined
  refine ⟨.of target g.bet (.of player mine) (.of ai theirs),
    scored_of_judged dealt aimed mine_judged theirs_judged, ?_, mine_defined, theirs_defined,
    fun won => congrArg (RoundResult.gain · g.bet) won,
    fun lost => congrArg (RoundResult.gain · g.bet) lost, ?_, rfl⟩
  · rw [← RoundResult.of_mirrored target g.bet mine_defined theirs_defined]
    exact @scored_of_judged target g.mirrored ai player theirs mine dealt aimed theirs_judged
      mine_judged
  · rintro (even | void)
    · exact congrArg (RoundResult.gain · g.bet) even
    · exact congrArg (RoundResult.gain · g.bet) void

/-- A player who hits the target, and an opponent who submits nothing. -/
theorem score_mirrored_five :
    let g : Game :=
      { start .standard 1 "standard" with
        playerHand := { numbers := [⟨0, 2⟩, ⟨1, 3⟩], operators := [⟨2, .add⟩] }
        aiHand := { numbers := [⟨3, 7⟩] }
        target := some 5
        bet := 4
        dealt := true }
    let sum : Expression := .ofParts [2, 3] [false, false] [.add]
    g.dealt = true ∧ g.target = some 5 ∧ doubleOfInt? 5 = some 5 ∧
      ∃ r, (g.score sum {}).2 = .ok r ∧ (g.mirrored.score {} sum).2 = .ok r.mirrored ∧
        r.player.distance.isNaN = false ∧ r.ai.distance.isNaN = false ∧
        r.winner = .player ∧ r.playerScoreChange = 4 ∧ r.aiScoreChange = -4 := by
  intro g sum
  have converts : doubleOfInt? 5 = some 5 := rfl
  obtain ⟨r, scored, mirrored, player, ai, won, -, -, other⟩ :=
    score_mirrored g rfl rfl converts sum {}
  have winner : (g.score sum {}).2.map (·.winner) = .ok .player := by
    decide +kernel
  rw [scored] at winner
  have winner : r.winner = .player := Except.ok.inj winner
  exact ⟨rfl, rfl, converts, r, scored, mirrored, player, ai, winner, won winner,
    other.trans (congrArg (- ·) (won winner))⟩

end Game

end NumberDuel
