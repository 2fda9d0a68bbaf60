import NumberDuel.Proofs.Builder.Verdict
import NumberDuel.Proofs.Game.Answer

/-!
# The reminder is exact

On an ordinary hand, without a `×` among its operator cards and without a disabled operator, the
special cards are all that a finished expression can get wrong. The builder looks at the cards that
are consumed and the validator at the roots and `×` of the expression; the used cards account for
both.
-/

namespace NumberDuel

/-- The judge passes on the explanation of the validator for just those submissions that the
validator refuses. -/
theorem judge_eq_explanation_iff {e : Expression} {hand : Hand} (target : Int) :
    judge e hand target = .ok ⟨.failed (e.validate hand).explanation false, infiniteDistance⟩ ↔
      (e.validate hand).valid = false := by
  cases valid : (e.validate hand).valid with
  | false => simp [judge, valid]
  | true =>
    have silent : (e.validate hand).explanation = "" := by
      rw [Expression.validate, Expression.validate_valid.mp valid]
      rfl
    refine iff_of_false (fun judged => ?_) (by simp)
    obtain ⟨success, failed, -⟩ := reports_of_judge judged
    exact (failed rfl).1 silent

theorem countP_and_eq_iff {α : Type} {p q : α → Bool} {xs : List α} :
    xs.countP (fun x => p x && q x) = xs.countP p ↔ ∀ x ∈ xs, p x = true → q x = true := by
  induction xs with
  | nil => simp
  | cons x xs ih =>
    have le : xs.countP (fun x => p x && q x) ≤ xs.countP p :=
      List.countP_mono_left fun x _ h => (Bool.and_eq_true_iff.mp h).1
    rw [List.countP_cons, List.countP_cons, List.forall_mem_cons, ← ih]
    cases p x
    · simp
    · cases q x
      · simp
        omega
      · simp

/-- No operator card bears a `×`, and no operator is disabled. -/
structure Hand.Ordinary (hand : Hand) : Prop where
  plain : ∀ card ∈ hand.operators, card.face ≠ .multiply
  enabled : hand.disabled = []

namespace Builder

variable {hand : Hand} {log : List Card} {b : Builder}

theorem surplus_of_ordinary (ordinary : hand.Ordinary) (b : Builder) : b.surplus hand = 0 := by
  rw [surplus, List.countP_eq_zero]
  intro card held
  simp [ordinary.plain card held]

section

variable (h : Built hand log b) (distinct : hand.Distinct) (ordinary : hand.Ordinary)
  (finished : b.isFinished = true)

include h finished

theorem Built.specialsDone_iff :
    b.specialsDone = true ↔ ∀ card ∈ hand.specials, b.isUsed card = true := by
  have some_term : b.expression.isEmpty = false := by
    simp only [isFinished, Bool.and_eq_true, Bool.not_eq_true'] at finished
    exact finished.1.1
  simp only [specialsDone, h.on_hand, some_term, Bool.not_false, Bool.true_and, List.all_eq_true]
  refine forall₂_congr fun card held => ?_
  rw [h.consumed card held, isUsed]

include distinct ordinary

/-- On an ordinary hand a finished expression can only lack roots and forced `×`. -/
theorem Built.breach?_of_ordinary :
    b.expression.breach? hand =
      (b.expression.checkRoots hand <|> b.expression.checkMultiplies hand) := by
  have enabled : b.expression.checkDisabled hand = none :=
    Expression.checkDisabled_eq_none_iff.mpr fun op _ _ => by simp [Hand.isEnabled, ordinary.enabled]
  rw [h.breach?_of_finished distinct finished, enabled]
  cases b.expression.checkMultiplies hand <;> rfl

/-- It has all of them if and only if all special cards are used. -/
theorem Built.valid_iff_specialsDone :
    (b.expression.validate hand).valid = true ↔ b.specialsDone = true := by
  have waiting := (h.complete_of_finished finished).2.1
  have roots := (h.accounted distinct).roots
  have times := h.count_multiply_eq distinct waiting
  rw [surplus_of_ordinary ordinary, Nat.add_zero] at times
  have demanded (mark : Special) :
      hand.specials.countP (fun card => card.face == mark && b.isUsed card) =
        hand.countSpecial mark ↔
      ∀ card ∈ hand.specials, (card.face == mark) = true → b.isUsed card = true :=
    countP_and_eq_iff
  have all_roots : b.expression.checkRoots hand = none ↔ _ :=
    Expression.checkCount_eq_none_iff.trans (roots ▸ demanded .squareRoot)
  have all_times : b.expression.checkMultiplies hand = none ↔ _ :=
    Expression.checkCount_eq_none_iff.trans (times ▸ demanded .multiply)
  rw [Expression.validate_valid, h.breach?_of_ordinary distinct ordinary finished,
    h.specialsDone_iff finished]
  simp only [Option.orElse_eq_orElse, Option.orElse_eq_or, Option.or_eq_none_iff, all_roots,
    all_times]
  constructor
  · rintro ⟨rooted, forced⟩ card held
    cases face : card.face with
    | multiply => exact forced card held (by simp [face])
    | squareRoot => exact rooted card held (by simp [face])
  · exact fun used => ⟨fun card held _ => used card held, fun card held _ => used card held⟩

end

/-- On an ordinary hand that holds no card twice the validator accepts a finished expression if and
only if all special cards are in it. So the player is reminded of them just before the judge would
turn the expression down for the validator, whatever the target is. -/
theorem reminder_exact (distinct : hand.Distinct) (ordinary : hand.Ordinary) (b : Builder)
    (moves : List Move) (finished : ((b.setHand (some hand)).run moves).isFinished = true) :
    let built := (b.setHand (some hand)).run moves
    ((built.expression.validate hand).valid = true ↔ built.specialsDone = true) ∧
      ∀ target, built.needsReminder = true ↔
        NumberDuel.judge built.expression hand target =
          .ok ⟨.failed (built.expression.validate hand).explanation false, infiniteDistance⟩ := by
  intro built
  obtain ⟨log, h⟩ := exists_built distinct b moves
  have verdict : (built.expression.validate hand).valid = true ↔ built.specialsDone = true :=
    h.valid_iff_specialsDone distinct ordinary finished
  refine ⟨verdict, fun target => ?_⟩
  have finished' : built.isFinished = true := finished
  rw [judge_eq_explanation_iff, ← Bool.not_eq_true, verdict, needsReminder, finished']
  simp

/-- A sum that is finished too early for the root, which has to stand on one of its numbers. -/
theorem reminder_exact_three_nine :
    let hand : Hand :=
      { numbers := [⟨0, 3⟩, ⟨1, 9⟩], operators := [⟨2, .add⟩], specials := [⟨3, .squareRoot⟩] }
    let moves : List Move :=
      [.pick (some ⟨0, .number 3⟩), .pick (some ⟨2, .operator .add⟩),
        .pick (some ⟨1, .number 9⟩)]
    let built := (ofHand hand).run moves
    hand.Distinct ∧ hand.Ordinary ∧ built.isFinished = true ∧
      (built.expression.validate hand).valid = false ∧ built.needsReminder = true ∧
      NumberDuel.judge built.expression hand 20 =
        .ok ⟨.failed (built.expression.validate hand).explanation false, infiniteDistance⟩ := by
  intro hand moves built
  have distinct : hand.Distinct := by
    unfold Hand.Distinct
    decide
  have ordinary : hand.Ordinary := ⟨by decide, rfl⟩
  have finished : built.isFinished = true := by decide +kernel
  have missing : built.specialsDone = false := by decide +kernel
  obtain ⟨verdict, reminder⟩ := reminder_exact distinct ordinary {} moves finished
  have reminded : built.needsReminder = true := by simp [needsReminder, finished, missing]
  have refused : (built.expression.validate hand).valid = false :=
    Bool.eq_false_iff.mpr (mt verdict.mp (Bool.eq_false_iff.mp missing))
  exact ⟨distinct, ordinary, finished, refused, reminded, (reminder 20).mp reminded⟩

end Builder

end NumberDuel
