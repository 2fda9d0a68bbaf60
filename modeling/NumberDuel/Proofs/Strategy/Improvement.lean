import NumberDuel.Proofs.Search.Feasibility
import NumberDuel.Proofs.Strategy.Fallback

/-!
# The smart strategy is never worse than the basic one

A basic construction that keeps the rules is a legal arrangement, except where it has to invent `+`
signs because the cards run out. A hand short of cards has no legal arrangement at all, and there
the smart strategy plays the basic construction itself.
-/

namespace NumberDuel

open Search

variable {hand : Hand} {target : Int} {aim : Float}

namespace Hand

/-- A feasible hand has a card for every gap without a forced `×`. -/
theorem Feasible.enough (h : hand.Feasible) :
    hand.multiplyCount ≤ hand.numbers.length - 1 ∧
      hand.numbers.length - 1 - hand.multiplyCount ≤ hand.operators.length := by
  have pool := length_eq_counts hand.operatorPool
  have held : hand.operatorPool.length ≤ hand.operators.length :=
    (List.length_filter_le ..).trans (List.length_map _).le
  obtain ⟨-, -, gaps, cards, -⟩ := h
  rw [openGaps] at gaps cards
  rw [additiveCount, divideCount] at cards
  omega

/-- On a feasible hand a basic construction that keeps the rules is a legal arrangement. -/
theorem Feasible.legal_fallback (h : hand.Feasible) (kept : hand.fallback.breach? hand = none) :
    Legal hand hand.fallback := by
  obtain ⟨-, -, -, roots, multiplies, enabled⟩ := Expression.breach?_eq_none_iff.mp kept
  exact legal_fallback_of_enough h.enough.1 h.enough.2 roots multiplies enabled

end Hand

/-- The smart strategy is at least as close as every legal arrangement with a value. -/
theorem exists_smart_le (converts : doubleOfInt? target = some aim)
    (defined : ∀ e value, Legal hand e → e.evaluate = .ok value → value.isNaN = false)
    {e : Expression} {value : Float} (legal : Legal hand e) (evaluated : e.evaluate = .ok value) :
    ∃ e' mine, Strategy.smart.play hand target = .ok e' ∧
      NumberDuel.judge e' hand target = .ok mine ∧ mine.distance ≤ (value - aim).abs := by
  obtain ⟨c, chosen, close⟩ := exists_chosen_le (isNaN_distance_of_mem_accepted converts defined)
    (legal.mem_accepted evaluated aim)
  obtain ⟨c_legal, c_value, c_distance⟩ :=
    mem_accepted_standard.mp (mem_accepted_of_chosen chosen)
  have c_kept := c_legal.breach?_eq_none (isComplete_of_evaluate c_value)
  have played : Strategy.smart.play hand target = .ok c.expression := by
    rw [Strategy.play, playSmart_eq hand converts, chosen]
    rfl
  exact ⟨c.expression, _, played,
    judge_of_value converts c_kept c_value (defined _ _ c_legal c_value), c_distance ▸ close⟩

/-- Without a feasible hand both strategies play the same. -/
theorem play_smart_of_not_feasible (converts : doubleOfInt? target = some aim)
    (infeasible : ¬ hand.Feasible) : Strategy.smart.play hand target = .ok hand.fallback := by
  have none : (explore .standard hand aim).chosen = none := by
    rw [← Option.not_isSome_iff_eq_none, isSome_chosen_iff]
    exact infeasible
  rw [Strategy.play, playSmart_eq hand converts, none]
  rfl

/-- On every hand the smart strategy comes at least as close to the target as the basic one. -/
theorem smart_le_basic (hand : Hand) (converts : doubleOfInt? target = some aim)
    (defined : ∀ e value, Legal hand e → e.evaluate = .ok value → value.isNaN = false) :
    ∃ e e' mine theirs, Strategy.smart.play hand target = .ok e ∧
      Strategy.basic.play hand target = .ok e' ∧
      NumberDuel.judge e hand target = .ok mine ∧
      NumberDuel.judge e' hand target = .ok theirs ∧ mine.distance ≤ theirs.distance := by
  by_cases feasible : hand.Feasible
  · rcases judge_cases hand.fallback hand target with
      ⟨value, kept, evaluated, number⟩ | ⟨theirs, judged, far⟩
    · obtain ⟨e, mine, played, mine_judged, close⟩ :=
        exists_smart_le converts defined (feasible.legal_fallback kept) evaluated
      exact ⟨e, hand.fallback, mine, _, played, rfl, mine_judged,
        judge_of_value converts kept evaluated number, close⟩
    · -- a basic construction that is refused is infinitely far
      obtain ⟨mine, mine_judged⟩ := exists_judge
        (((explore .standard hand aim).chosen.map (·.expression)).getD hand.fallback) hand converts
      refine ⟨_, hand.fallback, mine, theirs, playSmart_eq hand converts, rfl, mine_judged,
        judged, ?_⟩
      rw [far]
      exact le_infiniteDistance (isNaN_distance_of_judge converts mine_judged)
  · obtain ⟨mine, judged⟩ := exists_judge hand.fallback hand converts
    have number := isNaN_distance_of_judge converts judged
    exact ⟨hand.fallback, hand.fallback, mine, mine,
      play_smart_of_not_feasible converts feasible, rfl, judged, judged,
      (Double.le_iff_rank number number).mpr le_rfl⟩

/-- The basic construction is 2 × 3 + 5, and 2 × 5 + 3 is closer to thirteen. -/
theorem smart_le_basic_two_three_five :
    let hand : Hand :=
      { numbers := [⟨0, 2⟩, ⟨1, 3⟩, ⟨2, 5⟩]
        operators := [⟨3, .add⟩, ⟨4, .divide⟩]
        specials := [⟨5, .multiply⟩] }
    doubleOfInt? 13 = some 13 ∧
      (∀ e value, Legal hand e → e.evaluate = .ok value → value.isNaN = false) ∧
      ∃ e e' mine theirs, Strategy.smart.play hand 13 = .ok e ∧
        Strategy.basic.play hand 13 = .ok e' ∧ NumberDuel.judge e hand 13 = .ok mine ∧
        NumberDuel.judge e' hand 13 = .ok theirs ∧ mine.distance ≤ theirs.distance := by
  intro hand
  have converts : doubleOfInt? 13 = some 13 := rfl
  have defined : ∀ e value, Legal hand e → e.evaluate = .ok value → value.isNaN = false :=
    fun _ _ legal evaluated => (legal.below (by decide) evaluated).isNaN
  exact ⟨converts, defined, smart_le_basic hand converts defined⟩

end NumberDuel
