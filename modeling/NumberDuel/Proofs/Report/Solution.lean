import NumberDuel.Proofs.Game.Answer
import NumberDuel.Proofs.Validation.Acceptance
import NumberDuel.Report.Solution

/-!
# The solver and the judge agree

A solution is put together from the verdict and the value of the played expression, which is not
how the judge goes about it. They still agree on whether the expression stands, on its value and
on its distance, and a hand is reported as unsolved only if it has no legal arrangement with a
value.
-/

namespace NumberDuel

open Search

variable {hand : Hand} {target : Int} {aim : Float} {e : Expression} {sol : Solution}
  {j : Judgement}

namespace Solution

/-- What a solution says about an expression is what its judgement says. An undefined value has no
distance to agree on. -/
structure Agrees (sol : Solution) (j : Judgement) : Prop where
  valid : sol.valid = true ↔ j.evaluation.success = true
  value : j.evaluation.success = true → sol.value = j.evaluation.value
  distance : j.evaluation.success = true → j.evaluation.value.isNaN = false →
    sol.distance = j.distance
  error : sol.error = "" ↔ j.evaluation.success = true

theorem ofExpression_of_error {failure : Failure} (evaluated : e.evaluate = .error failure)
    (hand : Hand) (target : Int) :
    ofExpression e hand target = .ok ⟨e.text, undefinedValue, infiniteDistance, false,
      failure.message⟩ := by
  simp [ofExpression, evaluated]

theorem ofExpression_of_ok {value : Float} (evaluated : e.evaluate = .ok value)
    (converts : doubleOfInt? target = some aim) (hand : Hand) :
    ofExpression e hand target = .ok ⟨e.text, value, (value - aim).abs,
      (e.validate hand).valid, (e.validate hand).detail⟩ := by
  simp [ofExpression, evaluated, converts]

theorem exists_ofExpression (e : Expression) (hand : Hand)
    (converts : doubleOfInt? target = some aim) :
    ∃ sol, ofExpression e hand target = .ok sol ∧ sol.expression = e.text := by
  cases evaluated : e.evaluate with
  | error failure => exact ⟨_, ofExpression_of_error evaluated hand target, rfl⟩
  | ok value => exact ⟨_, ofExpression_of_ok evaluated converts hand, rfl⟩

/-- A report is marked as valid if the expression keeps the rules and has a value. -/
theorem valid_ofExpression (converts : doubleOfInt? target = some aim)
    (reported : ofExpression e hand target = .ok sol) :
    sol.valid = true ↔ (e.validate hand).valid = true ∧ ∃ value, e.evaluate = .ok value := by
  cases evaluated : e.evaluate with
  | error failure =>
    rw [ofExpression_of_error evaluated] at reported
    obtain rfl := Except.ok.inj reported
    simp
  | ok value =>
    rw [ofExpression_of_ok evaluated converts] at reported
    obtain rfl := Except.ok.inj reported
    simp

/-- An expression without an error is a valid one, for the reason of a refusal is never empty. -/
theorem error_ofExpression (converts : doubleOfInt? target = some aim)
    (reported : ofExpression e hand target = .ok sol) : sol.error = "" ↔ sol.valid = true := by
  cases evaluated : e.evaluate with
  | error failure =>
    rw [ofExpression_of_error evaluated] at reported
    obtain rfl := Except.ok.inj reported
    simp [failure.message_ne_empty]
  | ok value =>
    rw [ofExpression_of_ok evaluated converts] at reported
    obtain rfl := Except.ok.inj reported
    exact Expression.detail_validate_eq_empty_iff e hand

/-- Reported and judged for the same target, an expression comes off the same. -/
theorem agrees_of_judge (converts : doubleOfInt? target = some aim)
    (reported : ofExpression e hand target = .ok sol) (judged : judge e hand target = .ok j) :
    sol.Agrees j := by
  have success := (reports_of_judge judged).1
  have valid := (valid_ofExpression converts reported).trans success.symm
  -- of a success both give the value that the evaluation found
  have found (succeeded : j.evaluation.success = true) :
      ∃ value, sol.value = value ∧ sol.distance = (value - aim).abs ∧
        j.evaluation.value = value ∧ distanceTo (some value) target = .ok j.distance := by
    obtain ⟨kept, value, evaluated⟩ := success.mp succeeded
    rw [ofExpression_of_ok evaluated converts] at reported
    obtain rfl := Except.ok.inj reported
    rw [judge_of_valid kept evaluated] at judged
    cases measured : distanceTo (some value) target with
    | error err => simp [measured, Except.map] at judged
    | ok distance =>
      rw [measured] at judged
      obtain rfl := Except.ok.inj judged
      exact ⟨value, rfl, rfl, rfl, measured⟩
  refine ⟨valid, fun succeeded => ?_, fun succeeded defined => ?_,
    (error_ofExpression converts reported).trans valid⟩
  · obtain ⟨value, reported_value, -, judged_value, -⟩ := found succeeded
    rw [reported_value, judged_value]
  · obtain ⟨value, -, distance, rfl, measured⟩ := found succeeded
    simp only [distanceTo, defined, converts] at measured
    rw [distance, ← Except.ok.inj measured]

/-! ## The solver -/

theorem solve_of_play {played : Expression} (plays : playSmart hand target = .ok played) :
    solve hand target = ofExpression played hand target := by
  simp [solve, plays, bind, Except.bind]

/-- If there is a legal arrangement with a value, the strategy plays one. -/
theorem legal_of_play {played : Expression} (converts : doubleOfInt? target = some aim)
    (plays : playSmart hand target = .ok played) {value : Float} (legal : Legal hand e)
    (evaluated : e.evaluate = .ok value) :
    (played.validate hand).valid = true ∧ ∃ value, played.evaluate = .ok value := by
  have held := isSome_chosen_of_mem_accepted (legal.mem_accepted evaluated aim)
  obtain ⟨c, chosen⟩ := Option.isSome_iff_exists.mp held
  obtain ⟨c_legal, c_evaluated, -⟩ := mem_accepted_standard.mp (mem_accepted_of_chosen chosen)
  rw [playSmart_eq hand converts, chosen, Option.map_some, Option.getD_some] at plays
  obtain rfl := Except.ok.inj plays
  have kept := c_legal.breach?_eq_none (isComplete_of_evaluate c_evaluated)
  exact ⟨Expression.validate_valid.mpr kept, c.value, c_evaluated⟩

/-- On every hand and for every target among the doubles, the solution and the judgement of the
played expression agree, and a hand without a valid solution has no legal arrangement with a
value. -/
theorem solve_agrees (hand : Hand) (target : Int) (converts : doubleOfInt? target = some aim) :
    ∃ sol e j, solve hand target = .ok sol ∧ Strategy.smart.play hand target = .ok e ∧
      judge e hand target = .ok j ∧ sol.expression = e.text ∧ sol.Agrees j ∧
      (sol.valid = false → ∀ e value, Legal hand e → e.evaluate ≠ .ok value) := by
  obtain ⟨e, plays⟩ : ∃ e, playSmart hand target = .ok e := ⟨_, playSmart_eq hand converts⟩
  obtain ⟨sol, reported, text⟩ := exists_ofExpression e hand converts
  obtain ⟨j, judged⟩ := exists_judge e hand converts
  refine ⟨sol, e, j, (solve_of_play plays).trans reported, plays, judged, text,
    agrees_of_judge converts reported judged, fun unsolved e' value legal evaluated => ?_⟩
  have valid := (valid_ofExpression converts reported).mpr
    (legal_of_play converts plays legal evaluated)
  exact Bool.false_ne_true (unsolved.symm.trans valid)

/-- Two zeros and a `÷` that has to be used: no arrangement has a value. -/
theorem solve_agrees_zeros :
    let hand := Hand.ofFaces 0 [0, 0] [.divide] []
    doubleOfInt? 1 = some 1 ∧
      ∃ sol e j, solve hand 1 = .ok sol ∧ Strategy.smart.play hand 1 = .ok e ∧
        judge e hand 1 = .ok j ∧ sol.expression = e.text ∧ sol.Agrees j ∧ sol.valid = false ∧
        ∀ e value, Legal hand e → e.evaluate ≠ .ok value := by
  intro hand
  have converts : doubleOfInt? 1 = some 1 := rfl
  obtain ⟨sol, e, j, solved, played, judged, text, agrees, unsolvable⟩ :=
    solve_agrees hand 1 converts
  have invalid : (solve hand 1).map (·.valid) = .ok false := by decide +kernel
  rw [solved] at invalid
  have invalid := Except.ok.inj invalid
  exact ⟨converts, sol, e, j, solved, played, judged, text, agrees, invalid, unsolvable invalid⟩

end Solution

end NumberDuel
