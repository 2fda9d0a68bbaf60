import NumberDuel.Proofs.Builder.Account
import NumberDuel.Proofs.Builder.Completion
import NumberDuel.Proofs.Validation.Rules

/-!
# The verdict on a completed expression

The builder goes by turns and by the cards that are left, the validator by what the expression
holds. An expression that the builder calls complete keeps every rule but two: the `×` of an
operator card is one more than the hand demands, and a disabled operator is taken like any other.
-/

namespace NumberDuel

def Face.isTimes : Face → Bool
  | .operator op => op == .multiply
  | .special mark => mark == .multiply
  | .number _ => false

namespace Builder

variable {hand : Hand} {log : List Card} {b : Builder}

/-! ## Connectives and their cards -/

theorem count_multiply_spelled (log : List Card) :
    (spelled log).1.count .multiply = log.countP (·.face.isTimes) := by
  rw [Formula.count, connectives_spelled]
  induction log with
  | nil => rfl
  | cons card log ih =>
    obtain ⟨n, _ | op | _ | _⟩ := card
    case operator => cases op <;> simpa [Face.gap?, Face.isTimes] using ih
    all_goals simpa [Face.gap?, Face.isTimes] using ih

theorem mem_connectives_spelled {op : Operator} (other : op ≠ .multiply) :
    op ∈ (spelled log).1.connectives ↔ ∃ n, ⟨n, .operator op⟩ ∈ log := by
  rw [connectives_spelled, Search.fill, List.mem_map]
  constructor
  · rintro ⟨gap, mem, rfl⟩
    obtain ⟨⟨n, face⟩, held, shown⟩ := List.mem_filterMap.mp mem
    obtain ⟨op, rfl⟩ : ∃ op, gap = some op := by
      cases gap with
      | none => exact absurd rfl other
      | some op => exact ⟨op, rfl⟩
    have face_eq : face = .operator op := by
      obtain _ | op' | _ | _ := face <;> simp_all [Face.gap?]
    exact ⟨n, face_eq ▸ held⟩
  · rintro ⟨n, held⟩
    exact ⟨some op, List.mem_filterMap.mpr ⟨_, held, rfl⟩, rfl⟩

/-- How many operator cards with a `×` went into the expression. -/
def surplus (b : Builder) (hand : Hand) : Nat :=
  hand.operators.countP fun card => card.face == .multiply && b.isUsed card

/-! ## What the validator finds -/

section

variable (h : Built hand log b) (distinct : hand.Distinct)

include h distinct

/-- The `×` of the expression are those of the used special cards, and the surplus. -/
theorem Built.count_multiply_eq (bare : b.pendingRoot = none) :
    b.expression.count .multiply =
      hand.specials.countP (fun card => card.face == .multiply && b.isUsed card) +
        b.surplus hand := by
  have counted := h.countP_log distinct Face.isTimes
  rw [bare, ← count_multiply_spelled, h.expression_eq] at counted
  simpa [Face.isTimes, surplus, Nat.add_comm] using counted

theorem Built.count_multiply (done : b.specialsDone = true) (bare : b.pendingRoot = none) :
    b.expression.count .multiply = hand.multiplyCount + b.surplus hand := by
  have demanded : hand.specials.countP (fun card => card.face == .multiply && b.isUsed card) =
      hand.multiplyCount := by
    refine List.countP_congr fun card hc => ?_
    have used : b.isUsed card = true :=
      h.isUsed_of_mem bare (h.special_mem distinct done _ (Hand.map_special_mem_cards.mpr hc) rfl)
    simp [used]
  rw [h.count_multiply_eq distinct bare, demanded]

/-- The operators of the expression besides `×` are those of the operator cards used. -/
theorem Built.mem_connectives_iff (bare : b.pendingRoot = none) {op : Operator}
    (other : op ≠ .multiply) :
    op ∈ b.expression.connectives ↔
      ∃ card ∈ hand.operators, b.isUsed card = true ∧ card.face = op := by
  rw [← h.expression_eq, mem_connectives_spelled other]
  constructor
  · rintro ⟨n, mem⟩
    exact ⟨⟨n, op⟩, Hand.map_operator_mem_cards.mp (h.held _ mem), h.isUsed_of_mem bare mem, rfl⟩
  · rintro ⟨card, held, used, rfl⟩
    exact ⟨card.serial, h.mem_of_used distinct (Hand.map_operator_mem_cards.mpr held) used⟩

/-- A finished expression has the numbers of the hand, and one connective between each two. -/
theorem Built.breach?_of_finished (finished : b.isFinished = true) :
    b.expression.breach? hand = (b.expression.checkRoots hand <|>
      b.expression.checkMultiplies hand <|> b.expression.checkDisabled hand) := by
  obtain ⟨complete, -, placed⟩ := h.complete_of_finished finished
  have numbers := Expression.checkNumbers_of_perm (h.values_perm distinct placed)
  have shape : b.expression.checkNotEmpty = none ∧ b.expression.checkComplete = none := by
    simp only [Formula.isComplete, Bool.and_eq_true, Bool.not_eq_true'] at complete
    simp [Expression.checkNotEmpty, Expression.checkComplete, Formula.isEmpty, Formula.isComplete,
      complete]
  rw [Expression.breach?, shape.1, shape.2, numbers]
  rfl

/-- The first rule that a completed expression breaks: no `×` too many, or no disabled operator. -/
theorem Built.breach?_eq (finished : b.isFinished = true) (done : b.specialsDone = true) :
    b.expression.breach? hand =
      if 0 < b.surplus hand then some (.multiplySurplus (b.surplus hand))
      else b.expression.checkDisabled hand := by
  have bare := (h.complete_of_finished finished).2.1
  have roots : b.expression.checkRoots hand = none :=
    Expression.checkCount_eq_none_iff.mpr (h.rootCount_eq distinct done bare)
  have times : b.expression.checkMultiplies hand =
      if 0 < b.surplus hand then some (.multiplySurplus (b.surplus hand)) else none := by
    rw [Expression.checkMultiplies, h.count_multiply distinct done bare, Expression.checkCount,
      if_neg (Nat.not_lt.mpr (Nat.le_add_right ..)), Nat.add_sub_cancel_left]
    simp
  rw [h.breach?_of_finished distinct finished, roots, times]
  split <;> rfl

/-- A completed expression is accepted if each operator card in it is enabled and is no `×`. -/
theorem Built.valid_iff (finished : b.isFinished = true) (done : b.specialsDone = true) :
    (b.expression.validate hand).valid = true ↔ ∀ card ∈ hand.operators,
      b.isUsed card = true → card.face ≠ .multiply ∧ hand.isEnabled card.face = true := by
  have bare := (h.complete_of_finished finished).2.1
  rw [Expression.validate_valid, h.breach?_eq distinct finished done]
  constructor
  · intro kept card held used
    split at kept
    · cases kept
    next none =>
    have other : card.face ≠ .multiply := by
      intro times
      exact none (List.countP_pos_iff.mpr ⟨card, held, by simp [times, used]⟩)
    exact ⟨other, Expression.checkDisabled_eq_none_iff.mp kept _
      ((h.mem_connectives_iff distinct bare other).mpr ⟨card, held, used, rfl⟩) other⟩
  · intro kept
    have none : b.surplus hand = 0 := by
      simp only [surplus, List.countP_eq_zero, Bool.and_eq_true, beq_iff_eq, not_and]
      exact fun card held times used => (kept card held used).1 times
    rw [if_neg (by omega), Expression.checkDisabled_eq_none_iff]
    intro op mem other
    obtain ⟨card, held, used, rfl⟩ := (h.mem_connectives_iff distinct bare other).mp mem
    exact (kept card held used).2

end

/-- The player is told that the expression is complete once it is finished and has all special
cards. The validator then accepts it unless an operator card in it bears a `×` or a disabled
operator; it reports the `×` first. -/
theorem verdict_of_complete (distinct : hand.Distinct) (b : Builder) (moves : List Move)
    (finished : ((b.setHand (some hand)).run moves).isFinished = true)
    (done : ((b.setHand (some hand)).run moves).specialsDone = true) :
    let built := (b.setHand (some hand)).run moves
    built.status = "Expression complete. Submit it when you are ready." ∧
    ((built.expression.validate hand).valid = true ↔ ∀ card ∈ hand.operators,
      built.isUsed card = true → card.face ≠ .multiply ∧ hand.isEnabled card.face = true) ∧
    built.expression.breach? hand =
      if 0 < built.surplus hand then some (.multiplySurplus (built.surplus hand))
      else built.expression.checkDisabled hand := by
  intro built
  obtain ⟨log, h⟩ := exists_built distinct b moves
  refine ⟨?_, h.valid_iff distinct finished done, h.breach?_eq distinct finished done⟩
  simp [status, built, finished, done]

/-- With the enabled one of two operators the expression is accepted. -/
theorem verdict_of_complete_three_nine :
    let hand : Hand :=
      { numbers := [⟨0, 3⟩, ⟨1, 9⟩]
        operators := [⟨2, .add⟩, ⟨3, .subtract⟩]
        specials := [⟨4, .squareRoot⟩]
        disabled := [.add] }
    let moves : List Move :=
      [.pick (some ⟨0, .number 3⟩), .pick (some ⟨3, .operator .subtract⟩),
        .pick (some ⟨4, .special .squareRoot⟩), .pick (some ⟨1, .number 9⟩)]
    hand.Distinct ∧ ((ofHand hand).run moves).isFinished = true ∧
      ((ofHand hand).run moves).specialsDone = true ∧
      (((ofHand hand).run moves).expression.validate hand).valid = true := by
  intro hand moves
  have distinct : hand.Distinct := by
    unfold Hand.Distinct
    decide
  have finished : ((ofHand hand).run moves).isFinished = true := by decide +kernel
  have done : ((ofHand hand).run moves).specialsDone = true := by decide +kernel
  obtain ⟨-, verdict, -⟩ := verdict_of_complete distinct {} moves finished done
  exact ⟨distinct, finished, done, verdict.mpr (by decide +kernel)⟩

/-- Two expressions that are refused although the player was told that they are complete: a sum
where `+` is disabled, and a product with the `×` of an operator card. -/
theorem complete_and_refused :
    let numbers : List (Copy CardValue) := [⟨0, 3⟩, ⟨1, 9⟩]
    let sums : Hand := { numbers := numbers, operators := [⟨2, .add⟩], disabled := [.add] }
    let products : Hand := { numbers := numbers, operators := [⟨2, .multiply⟩] }
    let sum := (ofHand sums).run [.pick (some ⟨0, .number 3⟩),
      .pick (some ⟨2, .operator .add⟩), .pick (some ⟨1, .number 9⟩)]
    let product := (ofHand products).run [.pick (some ⟨0, .number 3⟩),
      .pick (some ⟨2, .operator .multiply⟩), .pick (some ⟨1, .number 9⟩)]
    (sum.isFinished = true ∧ sum.specialsDone = true ∧
      (sum.expression.validate sums).valid = false) ∧
    product.isFinished = true ∧ product.specialsDone = true ∧
      (product.expression.validate products).valid = false := by
  decide +kernel

end Builder

end NumberDuel
