import NumberDuel.Proofs.Double.Conversion
import NumberDuel.Proofs.Evaluation.Growth
import NumberDuel.Proofs.Strategy.Smart

/-!
# When there is no answer

Search, strategy and judge have one way to fail: the distance to a target without a double. They
come to it as soon as there is a value whose distance is wanted, and whatever else is wrong with
an expression or a hand is reported as a result: a broken rule by the verdict, a missing root or
quotient by the evaluation, which has no defects of its own to report.
-/

namespace NumberDuel

open Search

variable {hand : Hand} {target : Int} {e : Expression} {value : Float} {err : Error}
  {j : Judgement}

/-! ## The evaluator -/

/-- The evaluator fails for what is wrong with the formula, complete or not, and never for a
defect of its own. -/
theorem Arithmetic.isFault_of_evaluate_error {α : Type} (a : Arithmetic α)
    {e : Formula Operator α} {failure : Failure} (h : a.calculus.evaluate e = .error failure) :
    failure.isFault = false := by
  unfold Calculus.evaluate Calculus.run at h
  split_ifs at h with empty incomplete
  · obtain rfl := Except.error.inj h
    rfl
  · obtain rfl := Except.error.inj h
    rfl
  rcases bind_error h with roots | ⟨numbers, read, combined⟩
  · obtain ⟨t, -, missing⟩ := mapM_error roots
    obtain rfl := a.termValue_error missing
    rfl
  · cases numbers with
    | nil =>
      have none := (mapM_ok read).1
      simp [Formula.isEmpty, List.eq_nil_of_length_eq_zero none.symm] at empty
    | cons first rest =>
      rw [Calculus.withPrecedence_cons, (a.finish_eq _ _).1] at combined
      obtain rfl := a.rowValue_error combined
      rfl

theorem Failure.message_ne_empty (failure : Failure) : failure.message ≠ "" := by
  cases failure <;> exact of_decide_eq_true rfl

/-! ## The search and the smart strategy -/

/-- The search holds a candidate as soon as there is a legal arrangement with a value. -/
theorem Search.isSome_best_explore (hand : Hand) (aim : Float) :
    (explore .standard hand aim).best.isSome = true ↔
      ∃ e value, Legal hand e ∧ e.evaluate = .ok value := by
  rw [← chosen_explore_standard]
  constructor
  · intro some
    obtain ⟨c, chosen⟩ := Option.isSome_iff_exists.mp some
    obtain ⟨legal, evaluated, -⟩ := mem_accepted_standard.mp (mem_accepted_of_chosen chosen)
    exact ⟨c.expression, c.value, legal, evaluated⟩
  · rintro ⟨e, value, legal, evaluated⟩
    exact isSome_chosen_of_mem_accepted (legal.mem_accepted evaluated aim)

theorem search_error_iff : search .standard hand target = .error err ↔
    err = .integerTooLarge ∧ Double.beyond ≤ target.natAbs ∧
      ∃ e value, Legal hand e ∧ e.evaluate = .ok value := by
  rw [← doubleOfInt?_eq_none_iff, ← isSome_best_explore hand 0, search]
  cases doubleOfInt? target with
  | some aim => simp
  | none =>
    dsimp only
    split
    · next held =>
      constructor
      · intro failed
        exact ⟨(Except.error.inj failed).symm, rfl, held⟩
      · rintro ⟨rfl, -, -⟩
        rfl
    · next none =>
      refine iff_of_false (by simp) ?_
      rintro ⟨-, -, held⟩
      exact none held

/-- The smart strategy fails where its search does. -/
theorem playSmart_error_iff :
    playSmart hand target = .error err ↔ search .standard hand target = .error err := by
  cases found : search .standard hand target with
  | ok outcome => simp [playSmart_of_search found]
  | error failure => simp [playSmart, found, bind, Except.bind]

/-! ## The judge -/

theorem distanceTo_error_iff : distanceTo (some value) target = .error err ↔
    err = .integerTooLarge ∧ Double.beyond ≤ target.natAbs ∧ value.isNaN = false := by
  rw [← doubleOfInt?_eq_none_iff, distanceTo]
  cases value.isNaN with
  | true => simp
  | false =>
    cases doubleOfInt? target with
    | some aim => simp
    | none =>
      constructor
      · intro failed
        exact ⟨(Except.error.inj failed).symm, rfl, rfl⟩
      · rintro ⟨rfl, -, -⟩
        rfl

theorem judge_of_valid (valid : (e.validate hand).valid = true)
    (evaluated : e.evaluate = .ok value) :
    judge e hand target =
      (distanceTo (some value) target).map fun distance => ⟨.ofResult (.ok value), distance⟩ := by
  simp only [judge, valid, evaluated]
  rfl

theorem judge_error_iff : judge e hand target = .error err ↔
    err = .integerTooLarge ∧ Double.beyond ≤ target.natAbs ∧
      (e.validate hand).valid = true ∧ ∃ value, e.evaluate = .ok value ∧ value.isNaN = false := by
  cases valid : (e.validate hand).valid with
  | false => simp [judge, valid]
  | true =>
    cases evaluated : e.evaluate with
    | error failure => simp [judge, valid, evaluated]
    | ok value =>
      rw [judge_of_valid valid evaluated]
      have failed : distanceTo (some value) target = .error err ↔ _ := distanceTo_error_iff
      cases measured : distanceTo (some value) target <;> simp_all [Except.map]

theorem Expression.explanation_ne_empty (refused : (e.validate hand).valid = false) :
    (e.validate hand).explanation ≠ "" := by
  have message : (e.validate hand).message = Verdict.refusal := by
    unfold Expression.validate at *
    split at refused
    · cases refused
    · rfl
  have worded : Verdict.refusal ≠ "" := of_decide_eq_true rfl
  unfold Verdict.explanation
  rw [message]
  split
  · exact worded
  · simp [worded]

/-- A submission is reported as a success if it keeps the rules and has a value. Every other one
is infinitely far, and its report says why. -/
theorem reports_of_judge (judged : judge e hand target = .ok j) :
    (j.evaluation.success = true ↔
      (e.validate hand).valid = true ∧ ∃ value, e.evaluate = .ok value) ∧
    (j.evaluation.success = false →
      j.evaluation.message ≠ "" ∧ j.distance = infiniteDistance) ∧
    j.evaluation.fault = false := by
  cases valid : (e.validate hand).valid with
  | false =>
    simp only [judge, valid] at judged
    obtain rfl := Except.ok.inj judged
    exact ⟨by simp [Evaluation.failed], fun _ => ⟨Expression.explanation_ne_empty valid, rfl⟩, rfl⟩
  | true =>
    cases evaluated : e.evaluate with
    | error failure =>
      simp only [judge, valid, evaluated] at judged
      obtain rfl := Except.ok.inj judged
      exact ⟨by simp [Evaluation.ofResult, Evaluation.failed],
        fun _ => ⟨failure.message_ne_empty, rfl⟩, doubles.isFault_of_evaluate_error evaluated⟩
    | ok value =>
      rw [judge_of_valid valid evaluated] at judged
      cases measured : distanceTo (some value) target with
      | error err => simp [measured, Except.map] at judged
      | ok distance =>
        rw [measured] at judged
        obtain rfl := Except.ok.inj judged
        have success : (Evaluation.ofResult (.ok value)).success = true := rfl
        exact ⟨by simp [success], fun failed => absurd (success.symm.trans failed) (by decide), rfl⟩

/-! ## All three -/

/-- Search, smart strategy and judge fail in one case only: the target has no double, and there is
a value to be compared with it. Everything else they return as a result, and a judgement without
success says why. -/
theorem error_iff_beyond (hand : Hand) (target : Int) (e : Expression) :
    (∀ err, search .standard hand target = .error err ↔
      err = .integerTooLarge ∧ Double.beyond ≤ target.natAbs ∧
        ∃ e value, Legal hand e ∧ e.evaluate = .ok value) ∧
    (∀ err, Strategy.smart.play hand target = .error err ↔
      err = .integerTooLarge ∧ Double.beyond ≤ target.natAbs ∧
        ∃ e value, Legal hand e ∧ e.evaluate = .ok value) ∧
    (∀ err, NumberDuel.judge e hand target = .error err ↔
      err = .integerTooLarge ∧ Double.beyond ≤ target.natAbs ∧ (e.validate hand).valid = true ∧
        ∃ value, e.evaluate = .ok value ∧ value.isNaN = false) ∧
    ∀ j, NumberDuel.judge e hand target = .ok j →
      (j.evaluation.success = true ↔
        (e.validate hand).valid = true ∧ ∃ value, e.evaluate = .ok value) ∧
      (j.evaluation.success = false →
        j.evaluation.message ≠ "" ∧ j.distance = infiniteDistance) ∧
      j.evaluation.fault = false :=
  ⟨fun _ => search_error_iff, fun _ => playSmart_error_iff.trans search_error_iff,
    fun _ => judge_error_iff, fun _ => reports_of_judge⟩

/-- A single five keeps the rules of a hand that holds nothing else, and has no distance to the
least target without a double. -/
theorem no_answer_five :
    let hand : Hand := { numbers := [⟨0, 5⟩] }
    let e := Expression.ofParts [5] [false] []
    (¬ ∃ outcome, search .standard hand Double.beyond = .ok outcome) ∧
    (¬ ∃ e, Strategy.smart.play hand Double.beyond = .ok e) ∧
    ¬ ∃ j, NumberDuel.judge e hand Double.beyond = .ok j := by
  intro hand e
  have far : Double.beyond ≤ (Double.beyond : Int).natAbs := Nat.le_refl _
  have legal : Legal hand e := ⟨by decide +kernel, rfl, rfl, by decide⟩
  have evaluated : e.evaluate = .ok 5 := rfl
  have valid := Expression.validate_valid.mpr (legal.breach?_eq_none rfl)
  have searched := search_error_iff.mpr ⟨rfl, far, e, 5, legal, evaluated⟩
  have played := playSmart_error_iff.mpr searched
  have judged := judge_error_iff.mpr ⟨rfl, far, valid, 5, evaluated, rfl⟩
  refine ⟨?_, ?_, ?_⟩
  · rw [searched]
    exact nofun
  · rw [Strategy.play, played]
    exact nofun
  · rw [judged]
    exact nofun

end NumberDuel
