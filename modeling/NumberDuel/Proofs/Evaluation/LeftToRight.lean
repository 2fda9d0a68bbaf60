import Mathlib.Tactic.ByContra
import NumberDuel.Proofs.Evaluation.Precedence

/-!
# Where precedence makes a difference

Without precedence the connectives apply from left to right. With it a `×` or `÷` behind a pending
`+` or `-` applies first, and nothing else changes: where no `×` or `÷` stands after a `+` or `-`,
the evaluator applies each connective before it reads the next but one, so that at most one is
pending, and both ways agree on all terms. In every other row of connectives there is a `×` or `÷`
right behind a `+` or `-`, and numbers can be chosen so that the two ways differ.
-/

namespace NumberDuel

variable {α : Type}

/-- No `×` or `÷` stands after a `+` or `-`. -/
def FactorsFirst (connectives : List Operator) : Prop :=
  connectives.Pairwise fun earlier later => earlier.isAdditive = true → later.isAdditive = true

theorem factorsFirst_cons {op : Operator} {connectives : List Operator} :
    FactorsFirst (op :: connectives) ↔
      (op.isAdditive = true → ∀ later ∈ connectives, later.isAdditive = true) ∧
        FactorsFirst connectives := by
  simp only [FactorsFirst, List.pairwise_cons]
  grind

/-- Otherwise some `×` or `÷` stands right behind a `+` or `-`. -/
theorem exists_of_not_factorsFirst {connectives : List Operator}
    (h : ¬ FactorsFirst connectives) :
    ∃ before sign factor after, connectives = before ++ sign :: factor :: after ∧
      sign.isAdditive = true ∧ factor.isAdditive = false := by
  induction connectives with
  | nil => exact absurd .nil h
  | cons op connectives ih =>
    by_cases rest : FactorsFirst connectives
    · -- the first connective is a sign, and the next one cannot be a sign as well
      simp only [factorsFirst_cons, rest, and_true, not_forall] at h
      obtain ⟨sign, factor, mem, hfactor⟩ := h
      obtain _ | ⟨next, after⟩ := connectives
      · cases mem
      refine ⟨[], op, next, after, rfl, sign, ?_⟩
      by_contra hnext
      rw [Bool.not_eq_false] at hnext
      rcases List.mem_cons.mp mem with rfl | behind
      · exact hfactor hnext
      · exact hfactor ((factorsFirst_cons.mp rest).1 hnext factor behind)
    · obtain ⟨before, sign, factor, after, rfl, found⟩ := ih rest
      exact ⟨op :: before, sign, factor, after, rfl, found⟩

namespace Arithmetic

/-- To go from left to right is to take the whole row for one product. -/
theorem leftToRight_cons (a : Arithmetic α) (first : α) (rest : List α)
    (connectives : List Operator) :
    a.calculus.leftToRight (first :: rest) connectives =
      a.product ⟨first, connectives.zip rest⟩ := rfl

theorem product_append (a : Arithmetic α) (x : α) (row tail : List (Operator × α)) :
    a.product ⟨x, row ++ tail⟩ = (a.product ⟨x, row⟩ >>= fun value => a.product ⟨value, tail⟩) :=
  List.foldlM_append

/-! ## Rows with factors first -/

/-- Behind a pending `+` or `-`, with more of these to come, one at a time is pending. -/
theorem finish_signs (a : Arithmetic α) {rest : List (Operator × α)}
    (signs : ∀ entry ∈ rest, entry.1.isAdditive = true) (x total : α) {sign : Operator}
    (hs : sign.isAdditive = true) :
    a.calculus.finish [x, total] [sign] rest = a.product ⟨a.accumulate total (sign, x), rest⟩ := by
  induction rest generalizing x total sign with
  | nil =>
    rw [Calculus.finish_nil, settle_summand a hs (Nat.zero_le 1)]
    rfl
  | cons entry rest ih =>
    obtain ⟨op, y⟩ := entry
    obtain ⟨hop, signs⟩ := List.forall_mem_cons.mp signs
    have hl : a.calculus.precedence op ≤ 1 :=
      Nat.le_of_eq (Operator.precedence_of_isAdditive hop)
    rw [Calculus.finish_cons, settle_summand a hs hl, product_cons, apply_of_isAdditive a hop]
    exact ih signs y _ hop

/-- Where no factor comes after a sign, the evaluator goes from left to right. -/
theorem finish_of_factorsFirst (a : Arithmetic α) {rest : List (Operator × α)}
    (h : FactorsFirst (rest.map Prod.fst)) (x : α) :
    a.calculus.finish [x] [] rest = a.product ⟨x, rest⟩ := by
  induction rest generalizing x with
  | nil => rfl
  | cons entry rest ih =>
    obtain ⟨op, y⟩ := entry
    obtain ⟨later, h⟩ := factorsFirst_cons.mp h
    rw [Calculus.finish_bare]
    cases hop : op.isAdditive with
    | true =>
      have signs : ∀ entry ∈ rest, entry.1.isAdditive = true :=
        fun entry mem => later hop entry.1 (List.mem_map_of_mem mem)
      rw [finish_signs a signs y x hop, product_cons, apply_of_isAdditive a hop]
      rfl
    | false =>
      rw [finish_factor a hop, product_cons]
      exact bind_congr fun value => ih h value

theorem withPrecedence_eq_leftToRight (a : Arithmetic α) {connectives : List Operator}
    (h : FactorsFirst connectives) (numbers : List α) :
    a.calculus.withPrecedence numbers connectives = a.calculus.leftToRight numbers connectives := by
  obtain _ | ⟨first, rest⟩ := numbers
  · rfl
  have row : (connectives.zip rest).map Prod.fst =
      connectives.take (min connectives.length rest.length) := by
    rw [List.zip_eq_zip_take_min, List.map_fst_zip (by simp)]
  rw [Calculus.withPrecedence_cons, leftToRight_cons]
  exact finish_of_factorsFirst a (row ▸ h.sublist (List.take_sublist ..)) first

end Arithmetic

/-! ## Rows with a factor behind a sign -/

/-- The number that changes nothing behind a connective: `0` behind a sign and `1` behind a
factor. -/
def Operator.neutral (op : Operator) : Float := if op.isAdditive then 0 else 1

def neutralRow (connectives : List Operator) : List (Operator × Float) :=
  connectives.map fun op => (op, op.neutral)

theorem map_fst_neutralRow (connectives : List Operator) :
    (neutralRow connectives).map Prod.fst = connectives := by
  simp [neutralRow, Function.comp_def]

/-- A double that no neutral number changes. -/
structure Steady (x : Float) : Prop where
  add : x + 0 = x
  subtract : x - 0 = x
  multiply : x * 1 = x
  divide : x / 1 = x

instance decidableSteady (x : Float) : Decidable (Steady x) :=
  decidable_of_iff (x + 0 = x ∧ x - 0 = x ∧ x * 1 = x ∧ x / 1 = x)
    ⟨fun ⟨add, subtract, multiply, divide⟩ => ⟨add, subtract, multiply, divide⟩,
      fun ⟨add, subtract, multiply, divide⟩ => ⟨add, subtract, multiply, divide⟩⟩

namespace Steady

variable {x total : Float} {op sign : Operator}

theorem zero : Steady 0 := by decide +kernel

theorem apply (h : Steady x) (op : Operator) : doubles.apply x op op.neutral = .ok x := by
  cases op with
  | add => exact congrArg Except.ok h.add
  | subtract => exact congrArg Except.ok h.subtract
  | multiply => exact congrArg Except.ok h.multiply
  | divide =>
    have one : isClose zeroTolerance 1 0 = false := by decide +kernel
    simp [Arithmetic.apply, doubles, Operator.neutral, Operator.isAdditive, one, h.divide]

theorem accumulate (h : Steady total) (hs : sign.isAdditive = true) :
    doubles.accumulate total (sign, 0) = total := by
  cases sign with
  | add => exact h.add
  | subtract => exact h.subtract
  | multiply | divide => cases hs

theorem product (h : Steady x) (connectives : List Operator) :
    doubles.product ⟨x, neutralRow connectives⟩ = .ok x := by
  induction connectives with
  | nil => rfl
  | cons op connectives ih =>
    change doubles.product ⟨x, (op, op.neutral) :: neutralRow connectives⟩ = .ok x
    rw [Arithmetic.product_cons, h.apply op]
    exact ih

/-- With precedence neutral numbers change nothing either, neither in a product nor behind a
pending sign, if the row ends there or goes on with a sign. As in `Arithmetic.finish_eq` the two
shapes need one induction. -/
theorem finish (connectives : List Operator) {tail : List (Operator × Float)}
    (closes : ∀ entry ∈ tail.head?, entry.1.isAdditive = true) (h : Steady x) :
    doubles.calculus.finish [x] [] (neutralRow connectives ++ tail) =
        doubles.calculus.finish [x] [] tail ∧
      ∀ total sign, sign.isAdditive = true → Steady (doubles.accumulate total (sign, x)) →
        doubles.calculus.finish [x, total] [sign] (neutralRow connectives ++ tail) =
          doubles.calculus.finish [doubles.accumulate total (sign, x)] [] tail := by
  induction connectives generalizing x with
  | nil =>
    refine ⟨rfl, fun total sign hs _ => ?_⟩
    obtain _ | ⟨⟨next, y⟩, tail⟩ := tail
    · change doubles.calculus.finish [x, total] [sign] [] = _
      rw [Calculus.finish_nil, Arithmetic.settle_summand doubles hs (Nat.zero_le 1)]
      rfl
    · have hl : doubles.calculus.precedence next ≤ 1 :=
        Nat.le_of_eq (Operator.precedence_of_isAdditive (closes _ rfl))
      change doubles.calculus.finish [x, total] [sign] ((next, y) :: tail) = _
      rw [Calculus.finish_cons, Arithmetic.settle_summand doubles hs hl, Calculus.finish_bare]
      rfl
  | cons op connectives ih =>
    change doubles.calculus.finish [x] [] ((op, op.neutral) :: (neutralRow connectives ++ tail)) =
        _ ∧ ∀ total sign, _ → _ → doubles.calculus.finish [x, total] [sign]
          ((op, op.neutral) :: (neutralRow connectives ++ tail)) = _
    cases hop : op.isAdditive with
    | true =>
      have zero : op.neutral = 0 := by simp [Operator.neutral, hop]
      have behind (value : Float) (hv : Steady value) :
          doubles.calculus.finish [0, value] [op] (neutralRow connectives ++ tail) =
            doubles.calculus.finish [value] [] tail := by
        have same := hv.accumulate hop
        rw [(ih Steady.zero).2 value op hop (same.symm ▸ hv), same]
      have hl : doubles.calculus.precedence op ≤ 1 :=
        Nat.le_of_eq (Operator.precedence_of_isAdditive hop)
      rw [zero]
      refine ⟨?_, fun total sign hs steady => ?_⟩
      · rw [Calculus.finish_bare, behind x h]
      · rw [Calculus.finish_cons, Arithmetic.settle_summand doubles hs hl]
        exact behind _ steady
    | false =>
      refine ⟨?_, fun total sign hs steady => ?_⟩
      · rw [Calculus.finish_bare, Arithmetic.finish_factor doubles hop, h.apply op]
        exact (ih h).1
      · have hl : doubles.calculus.precedence sign < doubles.calculus.precedence op := by
          simp [Operator.precedence_of_isAdditive hs, Operator.precedence_of_not_isAdditive hop]
        rw [Calculus.finish_cons, Calculus.settle_of_lt _ hl]
        change doubles.calculus.finish [op.neutral, x, total] [op, sign] _ = _
        rw [Arithmetic.finish_factor doubles hop, h.apply op]
        exact (ih h).2 total sign hs steady

end Steady

/-- Behind `1 ± 1` a `× 2` or `÷ 2` makes a difference: whether it applies to the sum or to the
last number. -/
theorem exists_difference {sign factor : Operator} (hs : sign.isAdditive = true)
    (hf : factor.isAdditive = false) :
    ∃ second early late : Float,
      doubles.apply 1 factor 2 = .ok second ∧ doubles.accumulate 1 (sign, second) = late ∧
        doubles.apply (doubles.accumulate 1 (sign, 1)) factor 2 = .ok early ∧
        Steady second ∧ Steady early ∧ Steady late ∧ early ≠ late := by
  have two : isClose zeroTolerance 2 0 = false := by decide +kernel
  have quotient (x : Float) : doubles.apply x .divide 2 = .ok (x / 2) := by
    simp [Arithmetic.apply, doubles, two]
  cases factor with
  | add | subtract => cases hf
  | multiply =>
    cases sign with
    | multiply | divide => cases hs
    | add => exact ⟨1 * 2, (1 + 1) * 2, 1 + 1 * 2, rfl, rfl, rfl, by decide +kernel⟩
    | subtract => exact ⟨1 * 2, (1 - 1) * 2, 1 - 1 * 2, rfl, rfl, rfl, by decide +kernel⟩
  | divide =>
    cases sign with
    | multiply | divide => cases hs
    | add =>
      exact ⟨1 / 2, (1 + 1) / 2, 1 + 1 / 2, quotient 1, rfl, quotient _, by decide +kernel⟩
    | subtract =>
      exact ⟨1 / 2, (1 - 1) / 2, 1 - 1 / 2, quotient 1, rfl, quotient _, by decide +kernel⟩

/-! ## Expressions -/

def Expression.ofRow (first : Float) (row : List (Operator × Float)) : Expression :=
  { terms := (first :: row.map Prod.snd).map (⟨·, false⟩)
    connectives := row.map Prod.fst }

theorem rootedValues_bare (numbers : List Float) :
    doubles.calculus.rootedValues (numbers.map (⟨·, false⟩)) = .ok numbers := by
  induction numbers with
  | nil => rfl
  | cons x numbers ih =>
    rw [Arithmetic.rootedValues_eq] at ih
    rw [Arithmetic.rootedValues_eq, List.map_cons, List.mapM_cons, ih]
    rfl

theorem run_ofRow (combine : List Float → List Operator → Except Failure Float) (first : Float)
    (row : List (Operator × Float)) :
    doubles.calculus.run combine (Expression.ofRow first row) =
      combine (first :: row.map Prod.snd) (row.map Prod.fst) := by
  have nonempty : (Expression.ofRow first row).isEmpty = false := rfl
  have complete : (Expression.ofRow first row).isComplete = true := by
    simp [Expression.ofRow, Formula.isComplete]
  rw [Calculus.run, nonempty, complete, Expression.ofRow, rootedValues_bare]
  rfl

theorem zip_row (row : List (Operator × α)) : (row.map Prod.fst).zip (row.map Prod.snd) = row := by
  simp [List.zip_map']

theorem evaluate_ofRow (first : Float) (row : List (Operator × Float)) :
    (Expression.ofRow first row).evaluate = doubles.calculus.finish [first] [] row := by
  rw [Expression.evaluate, Calculus.evaluate, run_ofRow, Calculus.withPrecedence_cons, zip_row]

theorem evaluateSimple_ofRow (first : Float) (row : List (Operator × Float)) :
    doubles.calculus.evaluateSimple (Expression.ofRow first row) =
      doubles.product ⟨first, row⟩ := by
  rw [Calculus.evaluateSimple, run_ofRow, Arithmetic.leftToRight_cons, zip_row]

/-- With a factor behind a sign there are numbers for which precedence makes a difference. -/
theorem exists_evaluate_ne {sign factor : Operator} (hs : sign.isAdditive = true)
    (hf : factor.isAdditive = false) (before after : List Operator) :
    ∃ e : Expression, e.connectives = before ++ sign :: factor :: after ∧
      e.evaluate ≠ doubles.calculus.evaluateSimple e := by
  obtain ⟨second, early, late, applied, hlate, hearly, steady_second, steady_early, steady_late,
    differ⟩ := exists_difference hs hf
  have one : Steady 1 := by decide +kernel
  let tail : List (Operator × Float) := (sign, 1) :: (factor, 2) :: neutralRow after
  let e := Expression.ofRow 1 (neutralRow before ++ tail)
  have precise : e.evaluate = .ok late := by
    have hl : doubles.calculus.precedence sign < doubles.calculus.precedence factor := by
      simp [Operator.precedence_of_isAdditive hs, Operator.precedence_of_not_isAdditive hf]
    have ends : ∀ entry ∈ ([] : List (Operator × Float)).head?, entry.1.isAdditive = true := nofun
    have rest := (steady_second.finish after ends).2 1 sign hs (hlate ▸ steady_late)
    rw [List.append_nil, hlate] at rest
    rw [evaluate_ofRow, (one.finish before (by simpa [tail] using hs)).1, Calculus.finish_bare,
      Calculus.finish_cons, Calculus.settle_of_lt _ hl]
    change doubles.calculus.finish [2, 1, 1] [factor, sign] (neutralRow after) = .ok late
    rw [Arithmetic.finish_factor doubles hf, applied]
    exact rest
  have simple : doubles.calculus.evaluateSimple e = .ok early := by
    rw [evaluateSimple_ofRow, Arithmetic.product_append, one.product]
    change doubles.product ⟨1, tail⟩ = .ok early
    rw [Arithmetic.product_cons, Arithmetic.apply_of_isAdditive doubles hs]
    change doubles.product ⟨_, (factor, 2) :: neutralRow after⟩ = .ok early
    rw [Arithmetic.product_cons, hearly]
    exact steady_early.product after
  refine ⟨e, ?_, ?_⟩
  · simp [e, Expression.ofRow, tail, map_fst_neutralRow]
  · rw [precise, simple]
    exact fun same => differ (Except.ok.inj same).symm

/-- Precedence makes no difference, whatever the terms are, if and only if no `×` or `÷` stands
after a `+` or `-`: the values are the same bit for bit, and so are the reasons to have none. -/
theorem evaluate_eq_evaluateSimple_iff (connectives : List Operator) :
    (∀ terms : List (Term Float),
      Expression.evaluate ⟨terms, connectives⟩ =
        doubles.calculus.evaluateSimple ⟨terms, connectives⟩) ↔ FactorsFirst connectives := by
  constructor
  · intro agree
    by_contra h
    obtain ⟨before, sign, factor, after, split, hs, hf⟩ := exists_of_not_factorsFirst h
    obtain ⟨e, row, differ⟩ := exists_evaluate_ne hs hf before after
    rw [split, ← row] at agree
    exact differ (agree e.terms)
  · intro h terms
    simp only [Expression.evaluate, Calculus.evaluate, Calculus.evaluateSimple, Calculus.run,
      Arithmetic.withPrecedence_eq_leftToRight doubles h]

end NumberDuel
