import NumberDuel.Proofs.Evaluation.Precedence

/-!
# When a formula has a value

The evaluator fails only where one of its steps fails: a complete formula has a value as soon as
its roots exist and none of its connectives can fail. On doubles only `÷` can.
-/

namespace NumberDuel

namespace Calculus

variable {ω α : Type}

def Total (c : Calculus ω α) (op : ω) : Prop := ∀ x y, ∃ z, c.apply x op y = .ok z

variable {c : Calculus ω α}

/-- With an operand more than connectives pending, total connectives settle, and there is an
operand more than connectives still. -/
theorem exists_settle (level : Nat) {operands : List α} {pending : List ω}
    (total : ∀ op ∈ pending, c.Total op) (depth : operands.length = pending.length + 1) :
    ∃ operands' pending', c.settle level operands pending = .ok (operands', pending') ∧
      operands'.length = pending'.length + 1 ∧ pending' ⊆ pending ∧
      (level = 0 → pending' = []) := by
  induction pending generalizing operands with
  | nil => exact ⟨operands, [], rfl, depth, List.nil_subset _, fun _ => rfl⟩
  | cons op pending ih =>
    obtain ⟨here, rest⟩ := List.forall_mem_cons.mp total
    by_cases tight : level ≤ c.precedence op
    · obtain _ | ⟨y, _ | ⟨x, operands⟩⟩ := operands
      · simp at depth
      · simp at depth
      obtain ⟨z, applied⟩ := here x y
      obtain ⟨operands', pending', settled, depth', sub, all⟩ :=
        @ih (z :: operands) rest (by simpa using depth)
      refine ⟨operands', pending', ?_, depth', List.subset_cons_of_subset op sub, all⟩
      rw [settle_cons c tight, applied]
      exact settled
    · refine ⟨operands, op :: pending, ?_, depth, List.Subset.refl _, fun zero => ?_⟩
      · exact settle_of_lt c (Nat.lt_of_not_le tight) ..
      · exact absurd (zero ▸ Nat.zero_le _) tight

/-- A row of total connectives is read to its end. -/
theorem exists_finish {operands : List α} {pending : List ω} {rest : List (ω × α)}
    (total : ∀ op ∈ pending, c.Total op) (coming : ∀ next ∈ rest, c.Total next.1)
    (depth : operands.length = pending.length + 1) :
    ∃ value, c.finish operands pending rest = .ok value := by
  induction rest generalizing operands pending with
  | nil =>
    obtain ⟨operands', pending', settled, depth', -, drained⟩ := exists_settle 0 total depth
    obtain rfl := drained rfl
    obtain ⟨value, rfl⟩ := List.length_eq_one_iff.mp depth'
    refine ⟨value, ?_⟩
    rw [finish_nil, settled]
    rfl
  | cons next rest ih =>
    obtain ⟨op, x⟩ := next
    obtain ⟨here, later⟩ := List.forall_mem_cons.mp coming
    obtain ⟨operands', pending', settled, depth', sub, -⟩ :=
      exists_settle (c.precedence op) total depth
    have total' : ∀ op' ∈ op :: pending', c.Total op' :=
      List.forall_mem_cons.mpr ⟨here, fun op' h => total op' (sub h)⟩
    obtain ⟨value, finished⟩ := @ih (x :: operands') _ total' later (by simpa using depth')
    refine ⟨value, ?_⟩
    rw [finish_cons, settled]
    exact finished

theorem exists_rootedValues {terms : List (Term α)}
    (roots : ∀ t ∈ terms, t.rooted = true → ∃ x, c.root t.value = .ok x) :
    ∃ values, c.rootedValues terms = .ok values ∧ values.length = terms.length := by
  induction terms with
  | nil => exact ⟨[], rfl, rfl⟩
  | cons t terms ih =>
    obtain ⟨here, later⟩ := List.forall_mem_cons.mp roots
    obtain ⟨values, read, len⟩ := ih later
    have value : ∃ x, (if t.rooted then c.root t.value else .ok t.value) = .ok x := by
      split
      · exact here ‹_›
      · exact ⟨t.value, rfl⟩
    obtain ⟨x, hx⟩ := value
    refine ⟨x :: values, ?_, by simp [len]⟩
    rw [rootedValues] at read ⊢
    rw [List.mapM_cons, hx, read]
    rfl

/-- A complete formula has a value, if its roots exist and its connectives are total. -/
theorem exists_evaluate {e : Formula ω α} (complete : e.isComplete = true)
    (roots : ∀ t ∈ e.terms, t.rooted = true → ∃ x, c.root t.value = .ok x)
    (total : ∀ op ∈ e.connectives, c.Total op) : ∃ value, c.evaluate e = .ok value := by
  have nonempty : e.isEmpty = false := by
    cases h : e.terms <;> simp_all [Formula.isComplete, Formula.isEmpty]
  obtain ⟨values, read, len⟩ := exists_rootedValues roots
  obtain _ | ⟨first, rest⟩ := values
  · simp [Formula.isEmpty, List.length_eq_zero_iff.mp len.symm] at nonempty
  have coming : ∀ next ∈ e.connectives.zip rest, c.Total next.1 :=
    fun next h => total next.1 (List.of_mem_zip h).1
  obtain ⟨value, finished⟩ : ∃ value, c.finish [first] [] (e.connectives.zip rest) = .ok value :=
    exists_finish (by simp) coming rfl
  refine ⟨value, ?_⟩
  rw [evaluate, run, nonempty, complete, read]
  exact finished

end Calculus

theorem total_of_ne_divide {op : Operator} (h : op ≠ .divide) : doubles.calculus.Total op := by
  intro x y
  cases op with
  | add => exact ⟨x + y, rfl⟩
  | subtract => exact ⟨x - y, rfl⟩
  | multiply => exact ⟨x * y, rfl⟩
  | divide => exact absurd rfl h

/-- No number card is negative. -/
theorem CardValue.exists_root (v : CardValue) :
    ∃ x, doubles.calculus.root v.toFloat = .ok x := by
  have some : (doubles.root? v.toFloat).isSome = true := by
    revert v
    decide +kernel
  obtain ⟨x, hx⟩ := Option.isSome_iff_exists.mp some
  refine ⟨x, ?_⟩
  simp only [Arithmetic.calculus, Arithmetic.root, hx]

end NumberDuel
