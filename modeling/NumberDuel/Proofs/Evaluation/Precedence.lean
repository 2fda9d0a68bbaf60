import NumberDuel.Evaluation

/-!
# Precedence is the grammar's

The grammar reads a row of numbers as a sum of products: the row is cut at every `+` and `-`,
each product is computed from left to right, and then the sum. The evaluator never cuts; it keeps
two stacks. `finish` is what remains to be done from a pair of stacks, and the two statements of
`finish_eq` are its meaning in the only two shapes that last: a bare product, and a product that
waits behind a pending `+` or `-`. A pending `×` or `÷` is as good as applied (`finish_factor`).
-/

namespace NumberDuel

variable {α : Type}

def Operator.isAdditive : Operator → Bool
  | add | subtract => true
  | multiply | divide => false

/-- A product: its first factor, and each further one behind its `×` or `÷`. -/
structure Product (α : Type) where
  first : α
  factors : List (Operator × α)

/-- Cuts a row at every `+` and `-`: the factors up to the first cut, and each product behind
a cut. -/
def cut : List (Operator × α) → List (Operator × α) × List (Operator × Product α)
  | [] => ([], [])
  | (op, x) :: rest =>
    let (factors, summands) := cut rest
    if op.isAdditive then ([], (op, ⟨x, factors⟩) :: summands)
    else ((op, x) :: factors, summands)

example : cut [(.multiply, 3), (.subtract, 4), (.divide, 2), (.multiply, 5), (.add, 1)] =
    ([(.multiply, 3)], [(.subtract, ⟨4, [(.divide, 2), (.multiply, 5)]⟩), (.add, ⟨1, []⟩)]) := rfl

theorem cut_cons_additive {op : Operator} (h : op.isAdditive = true) (x : α)
    (rest : List (Operator × α)) :
    cut ((op, x) :: rest) = ([], (op, ⟨x, (cut rest).1⟩) :: (cut rest).2) := by
  simp [cut, h]

theorem cut_cons_factor {op : Operator} (h : op.isAdditive = false) (x : α)
    (rest : List (Operator × α)) :
    cut ((op, x) :: rest) = ((op, x) :: (cut rest).1, (cut rest).2) := by
  simp [cut, h]

theorem Operator.precedence_le_two (op : Operator) : op.precedence ≤ 2 := by
  cases op <;> decide

theorem Operator.precedence_of_isAdditive {op : Operator} (h : op.isAdditive = true) :
    op.precedence = 1 := by
  cases op <;> first | rfl | cases h

theorem Operator.precedence_of_not_isAdditive {op : Operator} (h : op.isAdditive = false) :
    op.precedence = 2 := by
  cases op <;> first | rfl | cases h

section Errors

variable {ε β γ : Type}

theorem bind_error {x : Except ε β} {f : β → Except ε γ} {failure : ε}
    (h : (x >>= f) = .error failure) :
    x = .error failure ∨ ∃ value, x = .ok value ∧ f value = .error failure := by
  cases x with
  | error e => exact .inl (by cases h; rfl)
  | ok value => exact .inr ⟨value, rfl, h⟩

theorem mapM_error {f : β → Except ε γ} {xs : List β} {failure : ε}
    (h : xs.mapM f = .error failure) : ∃ x ∈ xs, f x = .error failure := by
  induction xs with
  | nil => cases h
  | cons x xs ih =>
    rw [List.mapM_cons] at h
    rcases bind_error h with head | ⟨_, _, rest⟩
    · exact ⟨x, by simp, head⟩
    · rcases bind_error rest with tail | ⟨_, _, done⟩
      · obtain ⟨y, hy, step⟩ := ih tail
        exact ⟨y, by simp [hy], step⟩
      · cases done

theorem foldlM_error {f : γ → β → Except ε γ} {xs : List β} {start : γ} {failure : ε}
    (h : xs.foldlM f start = .error failure) :
    ∃ x ∈ xs, ∃ value, f value x = .error failure := by
  induction xs generalizing start with
  | nil => cases h
  | cons x xs ih =>
    rw [List.foldlM_cons] at h
    rcases bind_error h with head | ⟨_, _, rest⟩
    · exact ⟨x, by simp, start, head⟩
    · obtain ⟨y, hy, step⟩ := ih rest
      exact ⟨y, by simp [hy], step⟩

end Errors

namespace Arithmetic

def product (a : Arithmetic α) (p : Product α) : Except Failure α :=
  p.factors.foldlM (fun value (op, x) => a.apply value op x) p.first

def accumulate (a : Arithmetic α) (total : α) : Operator × α → α
  | (.subtract, x) => a.subtract total x
  | (_, x) => a.add total x

/-- A sum from left to right, once all its products are known. -/
def addUp (a : Arithmetic α) (total : α) (summands : List (Operator × Product α)) :
    Except Failure α := do
  let values ← summands.mapM fun (op, p) => return (op, ← a.product p)
  return values.foldl a.accumulate total

def rowValue (a : Arithmetic α) (first : α) (rest : List (Operator × α)) : Except Failure α := do
  let total ← a.product ⟨first, (cut rest).1⟩
  a.addUp total (cut rest).2

def termValue (a : Arithmetic α) (t : Term α) : Except Failure α :=
  if t.rooted then a.root t.value else .ok t.value

theorem rootedValues_eq (a : Arithmetic α) (terms : List (Term α)) :
    a.calculus.rootedValues terms = terms.mapM a.termValue := rfl

def grammarValue (a : Arithmetic α) (e : Formula Operator α) : Except Failure α := do
  match ← e.terms.mapM a.termValue with
  | [] => throw .empty
  | first :: rest => a.rowValue first (e.connectives.zip rest)

theorem grammarValue_cons (a : Arithmetic α) (t : Term α) (ts : List (Term α))
    (ops : List Operator) :
    a.grammarValue ⟨t :: ts, ops⟩ =
      (a.termValue t >>= fun first => ts.mapM a.termValue >>= fun rest =>
        a.rowValue first (ops.zip rest)) := by
  simp [grammarValue, List.mapM_cons]

theorem product_cons (a : Arithmetic α) (x y : α) (op : Operator)
    (factors : List (Operator × α)) :
    a.product ⟨x, (op, y) :: factors⟩ =
      (a.apply x op y >>= fun value => a.product ⟨value, factors⟩) := rfl

theorem addUp_cons (a : Arithmetic α) (total : α) (op : Operator) (p : Product α)
    (summands : List (Operator × Product α)) :
    a.addUp total ((op, p) :: summands) =
      (a.product p >>= fun x => a.addUp (a.accumulate total (op, x)) summands) := by
  simp [addUp, List.mapM_cons]

@[simp] theorem calculus_precedence (a : Arithmetic α) (op : Operator) :
    a.calculus.precedence op = op.precedence := rfl

@[simp] theorem calculus_apply (a : Arithmetic α) (x y : α) (op : Operator) :
    a.calculus.apply x op y = a.apply x op y := rfl

theorem apply_of_isAdditive (a : Arithmetic α) {op : Operator} (h : op.isAdditive = true)
    (x y : α) :
    a.apply x op y = .ok (a.accumulate x (op, y)) := by
  cases op <;> first | rfl | cases h

theorem apply_error (a : Arithmetic α) {x y : α} {op : Operator} {failure : Failure}
    (h : a.apply x op y = .error failure) : failure = .divisionByZero := by
  cases op with
  | add | subtract | multiply => cases h
  | divide =>
    simp only [apply] at h
    split at h
    · cases h
    · exact (Except.error.inj h).symm

theorem root_error (a : Arithmetic α) {x : α} {failure : Failure}
    (h : a.root x = .error failure) : failure = .negativeRoot := by
  simp only [root] at h
  split at h
  · cases h
  · exact (Except.error.inj h).symm

end Arithmetic

namespace Calculus

variable {ω : Type}

/-- What the evaluator still does from two stacks: read the rest of the row, then apply all that
is pending. -/
def finish (c : Calculus ω α) (operands : List α) (pending : List ω) (rest : List (ω × α)) :
    Except Failure α := do
  let (operands, pending) ← c.scan rest operands pending
  let (operands, _) ← c.settle 0 operands pending
  single operands

theorem withPrecedence_cons (c : Calculus ω α) (first : α) (rest : List α)
    (connectives : List ω) :
    c.withPrecedence (first :: rest) connectives =
      c.finish [first] [] (connectives.zip rest) := rfl

theorem settle_cons (c : Calculus ω α) {level : Nat} {op : ω} (h : level ≤ c.precedence op)
    (x y : α) (operands : List α) (pending : List ω) :
    c.settle level (y :: x :: operands) (op :: pending) =
      (c.apply x op y >>= fun value => c.settle level (value :: operands) pending) := by
  simp only [settle, h, if_true, combineTop]
  cases c.apply x op y <;> rfl

theorem settle_of_lt (c : Calculus ω α) {level : Nat} {op : ω} (h : c.precedence op < level)
    (operands : List α) (pending : List ω) :
    c.settle level operands (op :: pending) = .ok (operands, op :: pending) := by
  simp [settle, Nat.not_le.mpr h]

theorem finish_nil (c : Calculus ω α) (operands : List α) (pending : List ω) :
    c.finish operands pending [] =
      (c.settle 0 operands pending >>= fun (operands, _) => single operands) := rfl

theorem finish_cons (c : Calculus ω α) (op : ω) (x : α) (rest : List (ω × α))
    (operands : List α) (pending : List ω) :
    c.finish operands pending ((op, x) :: rest) =
      (c.settle (c.precedence op) operands pending >>= fun (operands, pending) =>
        c.finish (x :: operands) (op :: pending) rest) := by
  simp only [finish, scan]
  cases c.settle (c.precedence op) operands pending <;> rfl

theorem finish_bare (c : Calculus ω α) (x y : α) (op : ω) (rest : List (ω × α)) :
    c.finish [x] [] ((op, y) :: rest) = c.finish [y, x] [op] rest := by
  rw [finish_cons]
  rfl

end Calculus

namespace Arithmetic

/-- A pending `×` or `÷` is as good as applied: whatever comes next applies it first. -/
theorem finish_factor (a : Arithmetic α) {op : Operator} (h : op.isAdditive = false) (x y : α)
    (operands : List α) (pending : List Operator) (rest : List (Operator × α)) :
    a.calculus.finish (y :: x :: operands) (op :: pending) rest =
      (a.apply x op y >>= fun value => a.calculus.finish (value :: operands) pending rest) := by
  have tight (level : Nat) (hl : level ≤ 2) :
      a.calculus.settle level (y :: x :: operands) (op :: pending) =
        (a.apply x op y >>= fun value => a.calculus.settle level (value :: operands) pending) :=
    a.calculus.settle_cons (by simpa [Operator.precedence_of_not_isAdditive h]) x y _ _
  cases rest with
  | nil => simp only [Calculus.finish_nil, tight 0 (Nat.zero_le 2), bind_assoc]
  | cons next rest =>
    obtain ⟨op', z⟩ := next
    simp only [Calculus.finish_cons, calculus_precedence, tight _ op'.precedence_le_two,
      bind_assoc]

/-- A pending `+` or `-` is applied by the next one, and at the end of the row. -/
theorem settle_summand (a : Arithmetic α) {sign : Operator} (h : sign.isAdditive = true)
    {level : Nat} (hl : level ≤ 1) (x total : α) :
    a.calculus.settle level [x, total] [sign] = .ok ([a.accumulate total (sign, x)], []) := by
  have hp : level ≤ a.calculus.precedence sign := by
    simpa [Operator.precedence_of_isAdditive h]
  rw [Calculus.settle_cons _ hp, calculus_apply, apply_of_isAdditive a h]
  rfl

/-- What the evaluator makes of a bare product, and of one behind a pending `+` or `-`. The two
go through one induction on the rest of the row, because a `+` or `-` leads from either shape to
the second. -/
theorem finish_eq (a : Arithmetic α) (rest : List (Operator × α)) (x : α) :
    a.calculus.finish [x] [] rest = a.rowValue x rest ∧
      ∀ (total : α) (sign : Operator), sign.isAdditive = true →
        a.calculus.finish [x, total] [sign] rest =
          a.addUp total ((sign, ⟨x, (cut rest).1⟩) :: (cut rest).2) := by
  induction rest generalizing x with
  | nil =>
    refine ⟨rfl, fun total sign hs => ?_⟩
    rw [Calculus.finish_nil, settle_summand a hs (Nat.zero_le 1)]
    rfl
  | cons next rest ih =>
    obtain ⟨op, y⟩ := next
    cases hop : op.isAdditive with
    | true =>
      have hl : a.calculus.precedence op ≤ 1 :=
        Nat.le_of_eq (Operator.precedence_of_isAdditive hop)
      refine ⟨?_, fun total sign hs => ?_⟩
      · rw [Calculus.finish_bare, (ih y).2 x op hop, rowValue, cut_cons_additive hop]
        rfl
      · rw [Calculus.finish_cons, settle_summand a hs hl, cut_cons_additive hop, addUp_cons]
        exact (ih y).2 _ op hop
    | false =>
      refine ⟨?_, fun total sign hs => ?_⟩
      · rw [Calculus.finish_bare, finish_factor a hop, rowValue, cut_cons_factor hop,
          product_cons, bind_assoc]
        exact bind_congr fun value => (ih value).1
      · have hl : a.calculus.precedence sign < a.calculus.precedence op := by
          simp [Operator.precedence_of_isAdditive hs, Operator.precedence_of_not_isAdditive hop]
        rw [Calculus.finish_cons, Calculus.settle_of_lt _ hl]
        change a.calculus.finish [y, x, total] [op, sign] rest = _
        rw [finish_factor a hop, cut_cons_factor hop, addUp_cons, product_cons, bind_assoc]
        refine bind_congr fun value => ?_
        rw [(ih value).2 total sign hs, addUp_cons]

theorem termValue_error (a : Arithmetic α) {t : Term α} {failure : Failure}
    (h : a.termValue t = .error failure) : failure = .negativeRoot := by
  unfold termValue at h
  split at h
  · exact root_error a h
  · cases h

theorem product_error (a : Arithmetic α) {p : Product α} {failure : Failure}
    (h : a.product p = .error failure) : failure = .divisionByZero := by
  obtain ⟨_, _, _, step⟩ := foldlM_error h
  exact apply_error a step

theorem rowValue_error (a : Arithmetic α) {x : α} {rest : List (Operator × α)}
    {failure : Failure} (h : a.rowValue x rest = .error failure) :
    failure = .divisionByZero := by
  rcases bind_error h with first | ⟨total, _, others⟩
  · exact product_error a first
  · rcases bind_error others with values | ⟨_, _, fold⟩
    · obtain ⟨⟨op, p⟩, _, step⟩ := mapM_error values
      rcases bind_error step with factor | ⟨_, _, paired⟩
      · exact product_error a factor
      · cases paired
    · cases fold

theorem grammarValue_error (a : Arithmetic α) {e : Formula Operator α}
    (nonempty : e.isEmpty = false) {failure : Failure}
    (h : a.grammarValue e = .error failure) :
    failure = .negativeRoot ∨ failure = .divisionByZero := by
  obtain ⟨_ | ⟨t, ts⟩, ops⟩ := e
  · cases nonempty
  rw [grammarValue_cons] at h
  rcases bind_error h with head | ⟨_, _, row⟩
  · exact .inl (termValue_error a head)
  · rcases bind_error row with tail | ⟨_, _, value⟩
    · obtain ⟨t', _, step⟩ := mapM_error tail
      exact .inl (termValue_error a step)
    · exact .inr (rowValue_error a value)

/-- For every complete formula the evaluator agrees with the grammar: roots first, then each
product from left to right, then the sum. It fails for a root or a quotient that is missing, and
never for a defect of its own. -/
theorem evaluate_eq_grammarValue (a : Arithmetic α) (e : Formula Operator α)
    (complete : e.isComplete = true) :
    a.calculus.evaluate e = a.grammarValue e ∧
      ∀ failure, a.calculus.evaluate e = .error failure →
        failure = .negativeRoot ∨ failure = .divisionByZero := by
  have nonempty : e.isEmpty = false := by
    cases h : e.terms <;> simp_all [Formula.isComplete, Formula.isEmpty]
  have agree : a.calculus.evaluate e = a.grammarValue e := by
    obtain ⟨_ | ⟨t, ts⟩, ops⟩ := e
    · cases nonempty
    rw [grammarValue_cons, Calculus.evaluate, Calculus.run]
    simp only [nonempty, complete, Bool.false_eq_true, Bool.not_true, if_false]
    rw [rootedValues_eq, List.mapM_cons]
    simp only [bind_assoc, pure_bind, Calculus.withPrecedence_cons, (finish_eq a _ _).1]
  exact ⟨agree, fun failure h => grammarValue_error a nonempty (agree ▸ h)⟩

/-- Seven, less the root of four times three halves, and five. -/
theorem evaluate_eq_grammarValue_mixed :
    let e := Expression.ofParts [7, 4, 3, 2, 5] [false, true, false, false, false]
      [.subtract, .multiply, .divide, .add]
    e.isComplete = true ∧ doubles.calculus.evaluate e = doubles.grammarValue e ∧
      ∀ failure, doubles.calculus.evaluate e = .error failure →
        failure = .negativeRoot ∨ failure = .divisionByZero :=
  ⟨rfl, evaluate_eq_grammarValue doubles _ rfl⟩

end Arithmetic

end NumberDuel
