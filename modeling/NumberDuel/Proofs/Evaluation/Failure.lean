import NumberDuel.Proofs.Double.Vanishing
import NumberDuel.Proofs.Evaluation.Growth

/-!
# Why an expression has no value

Whether a quotient exists depends on its divisor alone, and with or without precedence the divisor
is always the one term behind the `÷`, never a result that has been computed before. So both ways
to evaluate fail on the same expressions, for the same reason, and `Expression.flaw?` reads the
reason off the terms and connectives.
-/

namespace NumberDuel

/-! ## Computations with one reason to fail -/

section Failing

variable {ε β γ : Type} {failure : ε} {p q : Prop}

/-- The computation fails if and only if `p`, and then for the one reason `failure`. -/
def FailsIff (x : Except ε β) (failure : ε) (p : Prop) : Prop :=
  ∀ error, x = .error error ↔ error = failure ∧ p

theorem FailsIff.congr {x : Except ε β} (h : FailsIff x failure p) (same : p ↔ q) :
    FailsIff x failure q := by
  simpa only [FailsIff, same] using h

theorem FailsIff.error {x : Except ε β} (h : FailsIff x failure p) (hp : p) :
    x = .error failure :=
  (h failure).mpr ⟨rfl, hp⟩

theorem FailsIff.exists_ok {x : Except ε β} (h : FailsIff x failure p) (hp : ¬ p) :
    ∃ value, x = .ok value := by
  cases hx : x with
  | ok value => exact ⟨value, rfl⟩
  | error error => exact absurd ((h error).mp hx).2 hp

theorem failsIff_ok (value : β) (hp : ¬ p) : FailsIff (.ok value) failure p :=
  fun _ => iff_of_false (by simp) fun h => hp h.2

theorem failsIff_error (hp : p) : FailsIff (.error failure : Except ε β) failure p :=
  fun error => by simp [hp, eq_comm]

theorem FailsIff.bind {x : Except ε β} {f : β → Except ε γ} (hx : FailsIff x failure p)
    (hf : ∀ value, FailsIff (f value) failure q) : FailsIff (x >>= f) failure (p ∨ q) := by
  by_cases hp : p
  · rw [hx.error hp]
    exact failsIff_error (.inl hp)
  · obtain ⟨value, ok⟩ := hx.exists_ok hp
    rw [ok]
    exact (hf value).congr (by simp [hp])

theorem FailsIff.map {x : Except ε β} (hx : FailsIff x failure p) (f : β → γ) :
    FailsIff (do return f (← x)) failure p :=
  (hx.bind fun value => failsIff_ok (f value) id).congr (by simp)

theorem failsIff_foldlM {f : γ → β → Except ε γ} {bad : β → Prop}
    (step : ∀ value x, FailsIff (f value x) failure (bad x)) (xs : List β) (start : γ) :
    FailsIff (xs.foldlM f start) failure (∃ x ∈ xs, bad x) := by
  induction xs generalizing start with
  | nil => exact failsIff_ok start (by simp)
  | cons x xs ih =>
    rw [List.foldlM_cons]
    exact ((step start x).bind ih).congr (by simp)

theorem failsIff_mapM {f : β → Except ε γ} {bad : β → Prop}
    (step : ∀ x, FailsIff (f x) failure (bad x)) (xs : List β) :
    FailsIff (xs.mapM f) failure (∃ x ∈ xs, bad x) := by
  induction xs with
  | nil => exact failsIff_ok [] (by simp)
  | cons x xs ih =>
    rw [List.mapM_cons]
    exact ((step x).bind fun y => ih.map (y :: ·)).congr (by simp)

/-- Where every step that succeeds gives a known value, the whole list does. -/
theorem mapM_eq_map {f : β → Except ε γ} {value : β → γ}
    (step : ∀ x y, f x = .ok y → y = value x) {xs : List β} {ys : List γ}
    (h : xs.mapM f = .ok ys) : ys = xs.map value := by
  induction xs generalizing ys with
  | nil => exact (Except.ok.inj h).symm
  | cons x xs ih =>
    rw [List.mapM_cons] at h
    obtain ⟨y, head, h⟩ := bind_ok h
    obtain ⟨rest, tail, h⟩ := bind_ok h
    rw [← Except.ok.inj h, step x y head, ih tail]
    rfl

end Failing

/-! ## Divisors that vanish -/

namespace Arithmetic

variable {α : Type} {a : Arithmetic α} {vanishes : α → Prop}

/-- A quotient is missing if and only if its divisor vanishes, whatever is divided. -/
def DividesUnless (a : Arithmetic α) (vanishes : α → Prop) : Prop :=
  ∀ x y, a.divide? x y = none ↔ vanishes y

def Breaks (vanishes : α → Prop) (entry : Operator × α) : Prop :=
  entry.1 = .divide ∧ vanishes entry.2

theorem failsIff_apply (h : a.DividesUnless vanishes) (x y : α) (op : Operator) :
    FailsIff (a.apply x op y) .divisionByZero (Breaks vanishes (op, y)) := by
  cases op with
  | add | subtract | multiply => exact failsIff_ok _ (by simp [Breaks])
  | divide =>
    simp only [apply, Breaks, true_and]
    cases missing : a.divide? x y with
    | none => exact failsIff_error ((h x y).mp missing)
    | some value => exact failsIff_ok value (by simp [← h x y, missing])

theorem failsIff_product (h : a.DividesUnless vanishes) (p : Product α) :
    FailsIff (a.product p) .divisionByZero (∃ entry ∈ p.factors, Breaks vanishes entry) :=
  failsIff_foldlM (fun value entry => failsIff_apply h value entry.2 entry.1) p.factors p.first

theorem failsIff_addUp (h : a.DividesUnless vanishes) (total : α)
    (summands : List (Operator × Product α)) :
    FailsIff (a.addUp total summands) .divisionByZero
      (∃ summand ∈ summands, ∃ entry ∈ summand.2.factors, Breaks vanishes entry) := by
  have product (summand : Operator × Product α) :
      FailsIff (do return (summand.1, ← a.product summand.2)) .divisionByZero
        (∃ entry ∈ summand.2.factors, Breaks vanishes entry) :=
    (failsIff_product h summand.2).map (summand.1, ·)
  exact (failsIff_mapM product summands).map (·.foldl a.accumulate total)

/-- No entry behind a `×` or `÷` is lost in a cut: it is a factor of the first product or of a
later one. -/
theorem exists_mem_cut {bad : Operator × α → Prop}
    (factor : ∀ entry, bad entry → entry.1.isAdditive = false) (rest : List (Operator × α)) :
    ((∃ entry ∈ (cut rest).1, bad entry) ∨
        ∃ summand ∈ (cut rest).2, ∃ entry ∈ summand.2.factors, bad entry) ↔
      ∃ entry ∈ rest, bad entry := by
  induction rest with
  | nil => simp [cut]
  | cons entry rest ih =>
    obtain ⟨op, x⟩ := entry
    cases hop : op.isAdditive with
    | true =>
      have harmless : ¬ bad (op, x) := fun hb => by simp [factor _ hb] at hop
      rw [cut_cons_additive hop]
      simp [harmless, ← ih]
    | false =>
      rw [cut_cons_factor hop]
      simp [← ih, or_assoc]

/-- The sum of products divides by the terms behind a `÷`, and by nothing else. -/
theorem failsIff_rowValue (h : a.DividesUnless vanishes) (first : α)
    (rest : List (Operator × α)) :
    FailsIff (a.rowValue first rest) .divisionByZero
      (∃ entry ∈ rest, Breaks vanishes entry) := by
  have factor (entry : Operator × α) (hb : Breaks vanishes entry) :
      entry.1.isAdditive = false := by
    rw [hb.1]
    rfl
  exact ((failsIff_product h _).bind fun total => failsIff_addUp h total _).congr
    (exists_mem_cut factor rest)

theorem failsIff_withPrecedence (h : a.DividesUnless vanishes) (first : α) (rest : List α)
    (connectives : List Operator) :
    FailsIff (a.calculus.withPrecedence (first :: rest) connectives) .divisionByZero
      (∃ entry ∈ connectives.zip rest, Breaks vanishes entry) := by
  rw [Calculus.withPrecedence_cons, (finish_eq a _ first).1]
  exact failsIff_rowValue h first _

theorem failsIff_leftToRight (h : a.DividesUnless vanishes) (first : α) (rest : List α)
    (connectives : List Operator) :
    FailsIff (a.calculus.leftToRight (first :: rest) connectives) .divisionByZero
      (∃ entry ∈ connectives.zip rest, Breaks vanishes entry) :=
  failsIff_foldlM (fun value entry => failsIff_apply h value entry.2 entry.1) _ first

end Arithmetic

/-! ## Expressions -/

/-- A double that counts as zero where it divides. -/
def Vanishes (x : Float) : Prop := x.abs ≤ zeroTolerance

instance decidableVanishes (x : Float) : Decidable (Vanishes x) :=
  inferInstanceAs (Decidable (x.abs ≤ zeroTolerance))

theorem doubles_dividesUnless : doubles.DividesUnless Vanishes := by
  intro x y
  change (if isClose zeroTolerance y 0 = true then none else some (x / y)) = none ↔ Vanishes y
  rw [Vanishes, ← Double.isClose_zero_iff]
  simp

def Term.operand (t : Term Float) : Float := if t.rooted then t.value.sqrt else t.value

theorem termValue_eq (t : Term Float) :
    doubles.termValue t =
      if t.rooted = true ∧ t.value < 0 then .error .negativeRoot else .ok t.operand := by
  obtain ⟨x, _ | _⟩ := t
  · rfl
  · simp only [Arithmetic.termValue, Arithmetic.root, doubles, Term.operand, true_and]
    by_cases negative : x < 0 <;> simp [negative]

theorem failsIff_termValue (t : Term Float) :
    FailsIff (doubles.termValue t) .negativeRoot (t.rooted = true ∧ t.value < 0) := by
  rw [termValue_eq]
  split
  · exact failsIff_error ‹_›
  · exact failsIff_ok _ ‹_›

theorem operand_of_termValue (t : Term Float) (x : Float) (h : doubles.termValue t = .ok x) :
    x = t.operand := by
  rw [termValue_eq] at h
  split at h
  · cases h
  · exact (Except.ok.inj h).symm

theorem rootedValues_eq_operands {terms : List (Term Float)}
    (sound : ¬ ∃ t ∈ terms, t.rooted = true ∧ t.value < 0) :
    doubles.calculus.rootedValues terms = .ok (terms.map Term.operand) := by
  rw [Arithmetic.rootedValues_eq]
  obtain ⟨values, read⟩ := (failsIff_mapM failsIff_termValue terms).exists_ok sound
  rw [read, mapM_eq_map operand_of_termValue read]

namespace Expression

/-- Why an expression has no value, read off its terms and connectives. -/
def flaw? (e : Expression) : Option Failure :=
  if e.terms.length = 0 then some .empty
  else if e.connectives.length + 1 ≠ e.terms.length then some .incomplete
  else if ∃ t ∈ e.terms, t.rooted = true ∧ t.value < 0 then some .negativeRoot
  else if ∃ entry ∈ e.connectives.zip e.terms.tail,
      entry.1 = .divide ∧ Vanishes entry.2.operand then some .divisionByZero
  else none

/-- The reasons are the player's own, and none is a defect of the evaluator. -/
theorem isFault_of_flaw? {e : Expression} {failure : Failure} (h : e.flaw? = some failure) :
    failure.isFault = false := by
  unfold flaw? at h
  split_ifs at h <;> (obtain rfl := Option.some.inj h; rfl)

/-- A way to combine numbers that fails only where a number behind a `÷` vanishes. -/
def FailsByDivision (combine : List Float → List Operator → Except Failure Float) : Prop :=
  ∀ first rest connectives, FailsIff (combine (first :: rest) connectives) .divisionByZero
    (∃ entry ∈ connectives.zip rest, Arithmetic.Breaks Vanishes entry)

theorem failsByDivision_withPrecedence :
    FailsByDivision doubles.calculus.withPrecedence :=
  Arithmetic.failsIff_withPrecedence doubles_dividesUnless

theorem failsByDivision_leftToRight : FailsByDivision doubles.calculus.leftToRight :=
  Arithmetic.failsIff_leftToRight doubles_dividesUnless

/-- However an expression is evaluated, it has no value if and only if it has a flaw. -/
theorem run_error_iff {combine : List Float → List Operator → Except Failure Float}
    (h : FailsByDivision combine) (e : Expression) (failure : Failure) :
    doubles.calculus.run combine e = .error failure ↔ e.flaw? = some failure := by
  obtain ⟨_ | ⟨first, rest⟩, connectives⟩ := e
  · simp [Calculus.run, Formula.isEmpty, flaw?]
  by_cases lengths : connectives.length = rest.length
  · have runs : doubles.calculus.run combine ⟨first :: rest, connectives⟩ =
        (doubles.calculus.rootedValues (first :: rest) >>= (combine · connectives)) := by
      simp [Calculus.run, Formula.isEmpty, Formula.isComplete, lengths]
    rw [runs, flaw?, if_neg (by simp), if_neg (by simp [lengths])]
    by_cases negative : ∃ t ∈ first :: rest, t.rooted = true ∧ t.value < 0
    · have failed : doubles.calculus.rootedValues (first :: rest) = .error .negativeRoot :=
        (failsIff_mapM failsIff_termValue (first :: rest)).error negative
      rw [failed, if_pos negative]
      change Except.error Failure.negativeRoot = .error failure ↔ _
      simp
    · have row : combine ((first :: rest).map Term.operand) connectives = .error failure ↔
          failure = .divisionByZero ∧ ∃ entry ∈ connectives.zip rest,
            entry.1 = .divide ∧ Vanishes entry.2.operand := by
        rw [List.map_cons, h, List.zip_map_right]
        simp [Arithmetic.Breaks]
      rw [rootedValues_eq_operands negative, if_neg negative]
      refine row.trans ?_
      by_cases breaks : ∃ entry ∈ connectives.zip rest,
          entry.1 = .divide ∧ Vanishes entry.2.operand
      · rw [List.tail_cons, if_pos breaks, Option.some.injEq, eq_comm]
        exact and_iff_left breaks
      · rw [List.tail_cons, if_neg breaks]
        exact iff_of_false (fun h => breaks h.2) (by simp)
  · simp [Calculus.run, Formula.isEmpty, Formula.isComplete, flaw?, lengths]

theorem exists_evaluate_iff (e : Expression) :
    (∃ value, e.evaluate = .ok value) ↔ e.flaw? = none := by
  have flaws : ∀ failure, e.evaluate = .error failure ↔ e.flaw? = some failure :=
    run_error_iff failsByDivision_withPrecedence e
  rw [Option.eq_none_iff_forall_ne_some]
  cases h : e.evaluate with
  | ok value => exact iff_of_true ⟨value, rfl⟩ fun failure hf => by simp [h, ← flaws] at hf
  | error failure => exact iff_of_false (by simp) fun none => none failure ((flaws failure).mp h)

/-- An expression has a value if and only if it is complete, its roots exist, and no number behind
a `÷` vanishes. -/
theorem flaw?_eq_none_iff {e : Expression} :
    e.flaw? = none ↔ e.connectives.length + 1 = e.terms.length ∧
      (∀ t ∈ e.terms, t.rooted = true → ¬ t.value < 0) ∧
      ∀ entry ∈ e.connectives.zip e.terms.tail,
        entry.1 = .divide → ¬ Vanishes entry.2.operand := by
  unfold flaw?
  split_ifs <;> grind

/-- What is reported of a result that fails for the reason `flaw`, if there is one. -/
theorem report_of_error_iff {result : Except Failure Float} {flaw : Option Failure}
    (h : ∀ failure, result = .error failure ↔ flaw = some failure)
    (harmless : ∀ failure, flaw = some failure → failure.isFault = false) :
    (Evaluation.ofResult result).success = flaw.isNone ∧
      (Evaluation.ofResult result).message = (flaw.map Failure.message).getD "" ∧
      (Evaluation.ofResult result).fault = false := by
  cases result with
  | error failure =>
    obtain rfl := (h failure).mp rfl
    exact ⟨rfl, rfl, harmless failure rfl⟩
  | ok value =>
    cases flaw with
    | none => exact ⟨rfl, rfl, rfl⟩
    | some failure => cases (h failure).mpr rfl

/-- With and without precedence the same expressions have no value, for the same reason, and the
reports say so alike: whether there is a value, the message, and no defect of the evaluator. -/
theorem evaluations_fail_alike (e : Expression) :
    (∀ failure, e.evaluate = .error failure ↔ e.flaw? = some failure) ∧
      (∀ failure, doubles.calculus.evaluateSimple e = .error failure ↔
        e.flaw? = some failure) ∧
      ∀ report ∈ [Evaluation.ofResult e.evaluate,
          Evaluation.ofResult (doubles.calculus.evaluateSimple e)],
        report.success = e.flaw?.isNone ∧
          report.message = (e.flaw?.map Failure.message).getD "" ∧ report.fault = false := by
  have precise : ∀ failure, e.evaluate = .error failure ↔ e.flaw? = some failure :=
    run_error_iff failsByDivision_withPrecedence e
  have simple : ∀ failure, doubles.calculus.evaluateSimple e = .error failure ↔
      e.flaw? = some failure :=
    run_error_iff failsByDivision_leftToRight e
  have harmless (failure : Failure) : e.flaw? = some failure → failure.isFault = false :=
    isFault_of_flaw?
  refine ⟨precise, simple, fun report hr => ?_⟩
  simp only [List.mem_cons, List.not_mem_nil, or_false] at hr
  rcases hr with rfl | rfl
  · exact report_of_error_iff precise harmless
  · exact report_of_error_iff simple harmless

end Expression

/-! ## Numbers of cards -/

/-- Only the card `0` counts as zero where it divides, with a root on it or without. -/
theorem vanishes_operand_iff {t : Term Float} {v : CardValue} (h : t.value = v.toFloat) :
    Vanishes t.operand ↔ v.val = 0 := by
  obtain ⟨x, rooted⟩ := t
  obtain rfl : x = v.toFloat := h
  revert v rooted
  decide +kernel

theorem vanishes_toFloat_iff (v : CardValue) : Vanishes v.toFloat ↔ v.val = 0 := by
  revert v
  decide +kernel

theorem toFloat_beq_zero (v : CardValue) : (v.toFloat == 0) = (v.val == 0) := by
  revert v
  decide +kernel

theorem not_toFloat_neg (v : CardValue) : ¬ v.toFloat < 0 := by
  revert v
  decide +kernel

namespace Expression

def dividesByZero (e : Expression) : Bool :=
  (e.connectives.zip e.terms.tail).any fun (op, t) => op == .divide && t.value == 0

/-- A complete expression of card numbers has a value unless it divides by zero. -/
theorem exists_evaluate_iff_of_cards {e : Expression} (complete : e.isComplete = true)
    (cards : ∀ t ∈ e.terms, ∃ v : CardValue, t.value = v.toFloat) :
    (∃ value, e.evaluate = .ok value) ↔ e.dividesByZero = false := by
  have roots : ∀ t ∈ e.terms, t.rooted = true → ¬ t.value < 0 := by
    intro t ht _
    obtain ⟨v, hv⟩ := cards t ht
    exact hv ▸ not_toFloat_neg v
  have zero : ∀ entry ∈ e.connectives.zip e.terms.tail,
      (Vanishes entry.2.operand ↔ (entry.2.value == 0) = true) := by
    intro entry h
    obtain ⟨v, hv⟩ := cards _ (List.mem_of_mem_tail (List.of_mem_zip h).2)
    rw [vanishes_operand_iff hv, hv, toFloat_beq_zero, beq_iff_eq]
  have connected : e.connectives.length + 1 = e.terms.length := by
    simp only [Formula.isComplete, Bool.and_eq_true, beq_iff_eq] at complete
    exact complete.2
  rw [exists_evaluate_iff, flaw?_eq_none_iff, dividesByZero, List.any_eq_false]
  constructor
  · rintro ⟨-, -, sound⟩ entry h
    have := sound entry h
    rw [zero entry h] at this
    simpa using this
  · refine fun sound => ⟨connected, roots, fun entry h divide => ?_⟩
    have := sound entry h
    rw [zero entry h]
    simpa [divide] using this

end Expression

end NumberDuel
