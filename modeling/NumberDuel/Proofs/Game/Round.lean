import NumberDuel.Proofs.Game.Dealing

/-!
# Rounds that count

A submission counts if it keeps the rules and has a value at a finite distance. A round with one
that counts is not void, and on hands that can be played both sides make one that counts.
-/

namespace NumberDuel

open Search

variable {hand : Hand} {target : Int} {aim : Float}

/-! ## The winner -/

theorem winner_ne_invalid {x y : Float} (finite : x.isInf = false) :
    decideWinner x y ≠ .invalid := by
  unfold decideWinner
  simp only [finite, Bool.false_and, Bool.false_eq_true, if_false]
  split
  · nofun
  · split <;> nofun

/-! ## Submissions that count -/

/-- What a strategy submits, accepted by the rules and with a value. -/
structure Submits (strategy : Strategy) (hand : Hand) (target : Int) (e : Expression) : Prop where
  played : strategy.play hand target = .ok e
  valid : (e.validate hand).valid = true
  evaluated : ∃ value, e.evaluate = .ok value

/-- A legal arrangement is judged by its value, which is not infinitely far from the target. -/
theorem judge_of_legal {e : Expression} {value : Float} (few : hand.numbers.length ≤ 38)
    (converts : doubleOfInt? target = some aim) (near : Double.Below 950 aim)
    (legal : Legal hand e) (evaluated : e.evaluate = .ok value) :
    NumberDuel.judge e hand target = .ok ⟨{ success := true, value := value }, (value - aim).abs⟩ ∧
      (value - aim).abs.isInf = false := by
  have below : Double.Below 950 value :=
    (legal.below (by omega) evaluated).mono (by omega)
  have distance := (below.sub near (by decide) (by decide)).abs (by decide) (by decide)
  have kept := legal.breach?_eq_none (isComplete_of_evaluate evaluated)
  exact ⟨judge_of_value converts kept evaluated below.isNaN, distance.isInf⟩

/-- On a hand that can be played every strategy makes a submission that counts. -/
theorem Hand.Workable.exists_submits (h : hand.Workable)
    (converts : doubleOfInt? target = some aim) (near : Double.Below 950 aim)
    (strategy : Strategy) :
    ∃ e j, Submits strategy hand target e ∧ NumberDuel.judge e hand target = .ok j ∧
      j.evaluation.success = true ∧ j.distance.isInf = false := by
  obtain ⟨e, value, played, legal, evaluated⟩ := h.exists_play converts strategy
  obtain ⟨judged, finite⟩ := judge_of_legal h.few converts near legal evaluated
  have kept := legal.breach?_eq_none (isComplete_of_evaluate evaluated)
  exact ⟨e, _, ⟨played, Expression.validate_valid.mpr kept, value, evaluated⟩, judged, rfl, finite⟩

/-- On a hand that can be played some submission is ahead of an empty one. -/
theorem Hand.Workable.exists_ahead_of_empty (h : hand.Workable)
    (converts : doubleOfInt? target = some aim) (near : Double.Below 950 aim) (other : Hand) :
    ∃ e j k, NumberDuel.judge e hand target = .ok j ∧
      NumberDuel.judge {} other target = .ok k ∧
      decideWinner (SideResult.of e j).distance (SideResult.of {} k).distance = .player := by
  obtain ⟨e, j, -, judged, success, finite⟩ := h.exists_submits converts near .basic
  obtain ⟨k, refused, far⟩ : ∃ k, NumberDuel.judge {} other target = .ok k ∧
      (SideResult.of {} k).distance = infiniteDistance := ⟨_, rfl, rfl⟩
  have distance : (SideResult.of e j).distance = j.distance := by simp [SideResult.of, success]
  refine ⟨e, j, k, judged, refused, ?_⟩
  rw [distance, far]
  exact decideWinner_infiniteDistance (isNaN_distance_of_judge converts judged) finite

namespace RoundResult

/-- Neither submission is refused, and the round is not void. -/
structure Counts (r : RoundResult) : Prop where
  player : r.player.error = ""
  ai : r.ai.error = ""
  winner : r.winner ≠ .invalid

theorem counts_of {bet : Int} {mine theirs : Expression} {j k : Judgement}
    (player : j.evaluation.success = true) (ai : k.evaluation.success = true)
    (finite : j.distance.isInf = false) :
    (RoundResult.of target bet (.of mine j) (.of theirs k)).Counts := by
  refine ⟨?_, ?_, ?_⟩
  · simp [RoundResult.of, SideResult.of, player]
  · simp [RoundResult.of, SideResult.of, ai]
  · have distance : (SideResult.of mine j).distance = j.distance := by
      simp [SideResult.of, player]
    exact winner_ne_invalid (distance ▸ finite)

end RoundResult

/-! ## Playing what was dealt -/

namespace Game

variable {g g' : Game} {players : Players}

def playDealt (players : Players) (dealt : Game × Except Error Unit) :
    Game × Except Error RoundResult :=
  match dealt with
  | (g, .error e) => (g, .error e)
  | (g, .ok ()) =>
    match g.play players.player g.playerHand with
    | (g, .error e) => (g, .error e)
    | (g, .ok mine) =>
      match g.play players.ai g.aiHand with
      | (g, .error e) => (g, .error e)
      | (g, .ok theirs) =>
        match g.score mine theirs with
        | (g, .error e) => (g, .error e)
        | (g, .ok result) => (g.settle result, .ok result)

theorem playRound_eq (players : Players) (target bet : Option Int) (g : Game) :
    g.playRound players target bet = playDealt players (g.deal target bet) := rfl

def contest (g : Game) (players : Players) : Except Error RoundResult := do
  let mine ← g.submission players.player g.playerHand
  let theirs ← g.submission players.ai g.aiHand
  g.scored mine theirs

/-- An open round is settled as the two strategies leave it. Where they come to an error, all but
the notes stays as it was dealt. -/
theorem playDealt_steps (players : Players) (g : Game) :
    ∃ kept,
      (∃ e, g.contest players = .error e ∧
        playDealt players (g, .ok ()) = ({ g with notes := kept }, .error e)) ∨
      ∃ r, g.contest players = .ok r ∧
        playDealt players (g, .ok ()) =
          (({ g with notes := kept } : Game).settle r, .ok r) := by
  obtain ⟨kept, mine_eq⟩ := g.play_eq players.player g.playerHand
  obtain ⟨kept', theirs_eq⟩ :=
    ({ g with notes := kept } : Game).play_eq players.ai g.aiHand
  change _ = ({ g with notes := kept' }, g.submission players.ai g.aiHand) at theirs_eq
  simp only [playDealt, contest, mine_eq]
  cases g.submission players.player g.playerHand with
  | error e => exact ⟨kept, .inl ⟨e, rfl, rfl⟩⟩
  | ok mine =>
    simp only [theirs_eq]
    cases g.submission players.ai g.aiHand with
    | error e => exact ⟨kept', .inl ⟨e, rfl, rfl⟩⟩
    | ok theirs =>
      obtain ⟨last, scores⟩ := ({ g with notes := kept' } : Game).score_eq mine theirs
      change _ = ({ g with notes := last }, g.scored mine theirs) at scores
      simp only [scores]
      cases scored : g.scored mine theirs with
      | error e => exact ⟨last, .inl ⟨e, scored, rfl⟩⟩
      | ok r => exact ⟨last, .inr ⟨r, scored, rfl⟩⟩

/-- A round that is played to its end was dealt, and is settled from what was dealt. -/
theorem playDealt_ok {dealt : Game × Except Error Unit} {r : RoundResult}
    (played : playDealt players dealt = (g', .ok r)) :
    dealt.2 = .ok () ∧ dealt.1.contest players = .ok r ∧
      ∃ kept, g' = ({ dealt.1 with notes := kept } : Game).settle r := by
  rcases dealt with ⟨g, e | ⟨⟩⟩
  · cases played
  · obtain ⟨kept, ⟨e, -, eq⟩ | ⟨r', contested, eq⟩⟩ := playDealt_steps players g
    · cases eq.symm.trans played
    · cases eq.symm.trans played
      exact ⟨rfl, contested, kept, rfl⟩

theorem scored_of_judged {mine theirs : Expression} {j k : Judgement} (dealt : g.dealt = true)
    (aimed : g.target = some target) (player : NumberDuel.judge mine g.playerHand target = .ok j)
    (ai : NumberDuel.judge theirs g.aiHand target = .ok k) :
    g.scored mine theirs = .ok (.of target g.bet (.of mine j) (.of theirs k)) := by
  simp only [scored, dealt, aimed, player, ai]
  rfl

theorem submission_of_target (aimed : g.target = some target) (strategy : Strategy)
    (hand : Hand) : g.submission strategy hand = strategy.play hand target := by
  cases strategy <;> simp [submission, aimed]

/-- A round in which both strategies play and both submissions can be judged is settled. -/
theorem playDealt_of_scored {mine theirs : Expression} {r : RoundResult}
    (aimed : g.target = some target)
    (player : players.player.play g.playerHand target = .ok mine)
    (ai : players.ai.play g.aiHand target = .ok theirs) (scored : g.scored mine theirs = .ok r) :
    ∃ kept, playDealt players (g, .ok ()) =
      (({ g with notes := kept } : Game).settle r, .ok r) := by
  have contested : g.contest players = .ok r := by
    rw [contest, submission_of_target aimed, submission_of_target aimed, player, ai]
    exact scored
  obtain ⟨kept, ⟨e, failed, -⟩ | ⟨r', contested', eq⟩⟩ := playDealt_steps players g
  · cases contested.symm.trans failed
  · cases contested.symm.trans contested'
    exact ⟨kept, eq⟩

/-- An open round on hands that can be played is settled, and counts. -/
theorem exists_playDealt (dealt : g.dealt = true) (aimed : g.target = some target)
    (converts : doubleOfInt? target = some aim) (near : Double.Below 950 aim)
    (player : g.playerHand.Workable) (ai : g.aiHand.Workable) (players : Players) :
    ∃ mine theirs r kept, Submits players.player g.playerHand target mine ∧
      Submits players.ai g.aiHand target theirs ∧ g.scored mine theirs = .ok r ∧ r.Counts ∧
      playDealt players (g, .ok ()) =
        (({ g with notes := kept } : Game).settle r, .ok r) := by
  obtain ⟨mine, j, mine_submits, mine_judged, mine_success, finite⟩ :=
    player.exists_submits converts near players.player
  obtain ⟨theirs, k, theirs_submits, theirs_judged, theirs_success, -⟩ :=
    ai.exists_submits converts near players.ai
  have scored := scored_of_judged dealt aimed mine_judged theirs_judged
  obtain ⟨kept, played⟩ :=
    playDealt_of_scored aimed mine_submits.played theirs_submits.played scored
  exact ⟨mine, theirs, _, kept, mine_submits, theirs_submits, scored,
    RoundResult.counts_of mine_success theirs_success finite, played⟩

end Game

end NumberDuel
