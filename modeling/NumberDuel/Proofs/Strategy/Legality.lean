import NumberDuel.Proofs.Search.Feasibility
import NumberDuel.Proofs.Strategy.Fallback

/-!
# When the basic construction keeps the rules

The basic construction spends the special cards first, the operator cards in held order next, and
then invents `+` signs; it never looks at what is disabled. So it keeps the rules if the special
cards fit and every operator that its turn comes to can be played: the gaps that the forced `×`
leave open decide which operators these are.
-/

namespace NumberDuel

namespace Hand

variable {hand : Hand}

theorem taken_eq_nil (full : hand.numbers.length - 1 ≤ hand.multiplyCount) : hand.taken = [] := by
  rw [taken, Nat.sub_eq_zero_of_le full, List.take_zero]

/-- All `×` are forced ones if these fit into the gaps and none is taken from a card. -/
theorem count_multiply_fallback_iff :
    hand.fallback.count .multiply = hand.multiplyCount ↔
      hand.multiplyCount ≤ hand.numbers.length - 1 ∧ .multiply ∉ hand.taken := by
  have count : hand.fallback.count .multiply =
      min hand.multiplyCount (hand.numbers.length - 1) + hand.taken.count .multiply := by
    simp [Formula.count, connectives_fallback, List.count_replicate]
  rw [count, ← List.count_eq_zero]
  rcases Nat.le_total (hand.numbers.length - 1) hand.multiplyCount with full | fits
  · rw [taken_eq_nil full, List.count_nil]
    omega
  · omega

theorem enabled_fallback_iff :
    (∀ op ∈ hand.fallback.connectives, op ≠ .multiply → hand.isEnabled op = true) ↔
      (∀ op ∈ hand.taken, op ≠ .multiply → hand.isEnabled op = true) ∧
        (0 < hand.invented → hand.isEnabled .add = true) := by
  simp only [connectives_fallback, List.mem_append, List.mem_replicate]
  constructor
  · intro enabled
    exact ⟨fun op held => enabled op (.inl (.inr held)),
      fun some => enabled .add (.inr ⟨some.ne', rfl⟩) nofun⟩
  · rintro ⟨cards, signs⟩ op ((⟨-, rfl⟩ | held) | ⟨some, rfl⟩) other
    · exact absurd rfl other
    · exact cards op held other
    · exact signs (Nat.pos_of_ne_zero some)

/-- The numbers are those of the hand, so only the other rules can be broken. -/
theorem breach?_fallback_eq_none_iff :
    hand.fallback.breach? hand = none ↔
      1 ≤ hand.numbers.length ∧ hand.rootCount ≤ hand.numbers.length ∧
        hand.multiplyCount ≤ hand.numbers.length - 1 ∧
        (∀ op ∈ hand.taken, op ≠ .multiply ∧ hand.isEnabled op = true) ∧
        (0 < hand.invented → hand.isEnabled .add = true) := by
  obtain ⟨finite, rounded⟩ := Expression.checkNumbers_eq_none_iff.mp
    (Expression.checkNumbers_of_perm (.of_eq (values_fallback hand)))
  have roots : min hand.rootCount hand.numbers.length = hand.rootCount ↔
      hand.rootCount ≤ hand.numbers.length := min_eq_left_iff
  rw [Expression.breach?_eq_none_iff, isComplete_fallback_iff, rootCount_fallback, roots,
    count_multiply_fallback_iff, enabled_fallback_iff]
  constructor
  · rintro ⟨number, -, -, rooted, ⟨fits, forced⟩, enabled, signs⟩
    refine ⟨number, rooted, fits, fun op held => ?_, signs⟩
    have other : op ≠ .multiply := fun eq => forced (eq ▸ held)
    exact ⟨other, enabled op held other⟩
  · rintro ⟨number, rooted, fits, usable, signs⟩
    exact ⟨number, finite, rounded, rooted, ⟨fits, fun held => (usable _ held).1 rfl⟩,
      fun op held _ => (usable op held).2, signs⟩

/-- The basic construction is accepted if and only if there is a number, a number for each root, a
gap for each forced `×`, and the open gaps are filled as the rules allow: no operator card that
its turn comes to bears a `×` or is disabled, and where the cards run out `+` is enabled. -/
theorem fallback_valid_iff (hand : Hand) :
    (hand.fallback.validate hand).valid = true ↔
      1 ≤ hand.numbers.length ∧ hand.rootCount ≤ hand.numbers.length ∧ 0 ≤ hand.openGaps ∧
        (∀ card ∈ hand.operators.take hand.openGaps.toNat,
          card.face ≠ .multiply ∧ card.face ∉ hand.disabled) ∧
        (hand.operators.length < hand.openGaps → .add ∉ hand.disabled) := by
  have gaps : hand.openGaps.toNat = hand.numbers.length - 1 - hand.multiplyCount := by
    rw [openGaps]
    omega
  have invents : 0 < hand.invented ↔ hand.operators.length < hand.openGaps := by
    rw [invented, openGaps]
    omega
  have fits (number : 1 ≤ hand.numbers.length) :
      hand.multiplyCount ≤ hand.numbers.length - 1 ↔ 0 ≤ hand.openGaps := by
    rw [openGaps]
    omega
  rw [Expression.validate_valid, breach?_fallback_eq_none_iff, invents, taken, ← gaps,
    operatorValues, ← List.map_take, List.forall_mem_map]
  simp only [isEnabled, Bool.not_eq_true', List.contains_eq_mem, decide_eq_false_iff_not]
  exact and_congr_right fun number => by rw [fits number]

end Hand

end NumberDuel
