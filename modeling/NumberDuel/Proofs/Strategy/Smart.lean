import NumberDuel.Proofs.Builder.Submission
import NumberDuel.Proofs.Game.Judgement
import NumberDuel.Proofs.Search.Soundness

/-!
# The smart strategy cannot be beaten

What the search chooses always keeps the rules, so the smart strategy falls back only where nothing
is chosen at all. A player on the same hand submits a legal arrangement with a value, which the
search has met, or a submission that is refused, which is infinitely far.
-/

namespace NumberDuel

open Search

variable {hand : Hand} {target : Int} {aim : Float}

theorem playSmart_of_search {outcome : Outcome}
    (found : search .standard hand target = .ok outcome) :
    playSmart hand target =
      .ok (if (outcome.expression.validate hand).valid then outcome.expression
        else hand.fallback) := by
  simp only [playSmart, found, bind, Except.bind]
  split <;> rfl

/-- The fallback is for hands on which nothing was accepted. -/
theorem playSmart_eq (hand : Hand) (converts : doubleOfInt? target = some aim) :
    playSmart hand target =
      .ok (((explore .standard hand aim).chosen.map (·.expression)).getD hand.fallback) := by
  rw [playSmart_of_search (search_eq_explore .standard hand converts), Outcome.expression]
  cases chosen : (explore .standard hand aim).chosen with
  | none =>
    have empty : (Expression.validate {} hand).valid = false := rfl
    simp [empty]
  | some c =>
    obtain ⟨legal, evaluated, -⟩ := mem_accepted_standard.mp (mem_accepted_of_chosen chosen)
    have valid : (c.expression.validate hand).valid = true :=
      Expression.validate_valid.mpr (legal.breach?_eq_none (isComplete_of_evaluate evaluated))
    simp [valid]

/-- No submission that a player can make is closer to the target than that of the smart strategy
on the same hand. -/
theorem smart_unbeaten (hand : Hand) (converts : doubleOfInt? target = some aim)
    (defined : ∀ e value, Legal hand e → e.evaluate = .ok value → value.isNaN = false)
    (b : Builder) (moves : List Builder.Move) :
    ∃ e mine theirs, Strategy.smart.play hand target = .ok e ∧
      NumberDuel.judge e hand target = .ok mine ∧
      NumberDuel.judge ((b.setHand (some hand)).run moves).expression hand target = .ok theirs ∧
      mine.distance ≤ theirs.distance := by
  have played := playSmart_eq hand converts
  set e := ((explore .standard hand aim).chosen.map (·.expression)).getD hand.fallback with he
  have sourced := Builder.sourced_run hand b moves
  rcases judge_cases ((b.setHand (some hand)).run moves).expression hand target with
    ⟨value, kept, evaluated, number⟩ | ⟨theirs, judged, far⟩
  · -- the submission is among the candidates of the search
    have legal := sourced.legal kept
    have mem := legal.mem_accepted evaluated aim
    obtain ⟨c, chosen, close⟩ :=
      exists_chosen_le (isNaN_distance_of_mem_accepted converts defined) mem
    obtain ⟨c_legal, c_value, c_distance⟩ :=
      mem_accepted_standard.mp (mem_accepted_of_chosen chosen)
    have c_kept := c_legal.breach?_eq_none (isComplete_of_evaluate c_value)
    have c_defined := defined _ _ c_legal c_value
    rw [chosen, Option.map_some, Option.getD_some] at he
    refine ⟨e, _, _, played, he ▸ judge_of_value converts c_kept c_value c_defined,
      judge_of_value converts kept evaluated number, ?_⟩
    exact c_distance ▸ close
  · obtain ⟨mine, mine_judged⟩ := exists_judge e hand converts
    refine ⟨e, mine, theirs, played, mine_judged, judged, ?_⟩
    rw [far]
    exact le_infiniteDistance (isNaN_distance_of_judge converts mine_judged)

/-- A disabled operator, and a player who lets the `×` card stand for the forced `×`. -/
theorem smart_unbeaten_two_three :
    let hand : Hand :=
      { numbers := [⟨0, 2⟩, ⟨1, 3⟩]
        operators := [⟨2, .multiply⟩, ⟨3, .add⟩]
        specials := [⟨4, .multiply⟩]
        disabled := [.add] }
    let moves : List Builder.Move :=
      [.pick (some ⟨0, .number 2⟩), .pick (some ⟨2, .operator .multiply⟩),
        .pick (some ⟨1, .number 3⟩)]
    doubleOfInt? 7 = some 7 ∧
      (∀ e value, Legal hand e → e.evaluate = .ok value → value.isNaN = false) ∧
      ∃ e mine theirs, Strategy.smart.play hand 7 = .ok e ∧
        NumberDuel.judge e hand 7 = .ok mine ∧
        NumberDuel.judge ((Builder.ofHand hand).run moves).expression hand 7 = .ok theirs ∧
        mine.distance ≤ theirs.distance := by
  intro hand moves
  have converts : doubleOfInt? 7 = some 7 := rfl
  have defined : ∀ e value, Legal hand e → e.evaluate = .ok value → value.isNaN = false :=
    fun _ _ legal evaluated => (legal.below (by decide) evaluated).isNaN
  exact ⟨converts, defined, smart_unbeaten hand converts defined {} moves⟩

end NumberDuel
