import NumberDuel.Proofs.Double.Magnitude
import NumberDuel.Proofs.Evaluation.Precedence

/-!
# How large the value of an expression can get

Operands have weights, and an operator gives a value that weighs what its arguments weigh
together. Then the stack of operands keeps its weight whatever is applied, and the value of a
formula weighs what its terms weigh. With bounds of doubles as weights this says that an
expression of few card numbers never overflows: its value is finite.
-/

namespace NumberDuel

variable {ω α : Type}

section Results

variable {ε β γ : Type}

theorem bind_ok {x : Except ε β} {f : β → Except ε γ} {value : γ} (h : (x >>= f) = .ok value) :
    ∃ b, x = .ok b ∧ f b = .ok value := by
  cases x with
  | error e => cases h
  | ok b => exact ⟨b, rfl, h⟩

theorem mapM_ok {f : β → Except ε γ} {xs : List β} {ys : List γ} (h : xs.mapM f = .ok ys) :
    ys.length = xs.length ∧ ∀ y ∈ ys, ∃ x ∈ xs, f x = .ok y := by
  induction xs generalizing ys with
  | nil =>
    obtain rfl := Except.ok.inj h
    simp
  | cons x xs ih =>
    rw [List.mapM_cons] at h
    obtain ⟨y, hy, h⟩ := bind_ok h
    obtain ⟨ys, hys, h⟩ := bind_ok h
    obtain rfl := Except.ok.inj h
    obtain ⟨lengths, each⟩ := ih hys
    refine ⟨by simp [lengths], fun z hz => ?_⟩
    rcases List.mem_cons.mp hz with rfl | hz
    · exact ⟨x, by simp, hy⟩
    · obtain ⟨x', hx', eq⟩ := each z hz
      exact ⟨x', by simp [hx'], eq⟩

end Results

namespace Calculus

variable {c : Calculus ω α} {P : Nat → α → Prop}

/-- A connective gives a value that weighs what its two arguments weigh. -/
def Conserves (c : Calculus ω α) (P : Nat → α → Prop) : Prop :=
  ∀ {i j x y z op}, P i x → P j y → c.apply x op y = .ok z → P (i + j) z

def Weighs (P : Nat → α → Prop) (weight : Nat) (operands : List α) : Prop :=
  ∃ weights : List Nat, List.Forall₂ P weights operands ∧ weights.sum = weight

theorem Weighs.push {weight w : Nat} {operands : List α} {x : α} (h : Weighs P weight operands)
    (hx : P w x) : Weighs P (weight + w) (x :: operands) := by
  obtain ⟨weights, all, rfl⟩ := h
  exact ⟨w :: weights, .cons hx all, by simp [Nat.add_comm]⟩

theorem Weighs.combineTop (keeps : c.Conserves P) {weight : Nat} {operands operands' : List α}
    {op : ω} (h : Weighs P weight operands) (applied : c.combineTop op operands = .ok operands') :
    Weighs P weight operands' := by
  obtain ⟨weights, all, rfl⟩ := h
  rcases all with _ | @⟨j, y, _, _, hy, _ | @⟨i, x, weights, operands, hx, all⟩⟩
  · cases applied
  · cases applied
  · rw [Calculus.combineTop] at applied
    cases hz : c.apply x op y with
    | error failure =>
      rw [hz] at applied
      cases applied
    | ok z =>
      rw [hz] at applied
      obtain rfl := Except.ok.inj applied
      exact ⟨(i + j) :: weights, .cons (keeps hx hy hz) all, by simp; omega⟩

theorem Weighs.settle (keeps : c.Conserves P) {weight level : Nat} {pending pending' : List ω}
    {operands operands' : List α} (h : Weighs P weight operands)
    (settled : c.settle level operands pending = .ok (operands', pending')) :
    Weighs P weight operands' := by
  induction pending generalizing operands with
  | nil =>
    obtain ⟨rfl, -⟩ := Prod.mk.inj (Except.ok.inj settled)
    exact h
  | cons op pending ih =>
    rw [Calculus.settle] at settled
    split at settled
    · split at settled
      · cases settled
      · next applied => exact ih (h.combineTop keeps applied) settled
    · obtain ⟨rfl, -⟩ := Prod.mk.inj (Except.ok.inj settled)
      exact h

theorem Weighs.scan (keeps : c.Conserves P) {weight w : Nat} {rest : List (ω × α)}
    {operands operands' : List α} {pending pending' : List ω} (h : Weighs P weight operands)
    (weights : ∀ entry ∈ rest, P w entry.2)
    (scanned : c.scan rest operands pending = .ok (operands', pending')) :
    Weighs P (weight + rest.length * w) operands' := by
  induction rest generalizing weight operands pending with
  | nil =>
    obtain ⟨rfl, -⟩ := Prod.mk.inj (Except.ok.inj scanned)
    simpa using h
  | cons entry rest ih =>
    obtain ⟨op, x⟩ := entry
    rw [List.forall_mem_cons] at weights
    rw [Calculus.scan] at scanned
    split at scanned
    · cases scanned
    · next settled =>
      have := ih ((h.settle keeps settled).push weights.1) weights.2 scanned
      rwa [List.length_cons, Nat.succ_mul, Nat.add_comm (rest.length * w) w, ← Nat.add_assoc]

theorem weight_withPrecedence (keeps : c.Conserves P) {w : Nat} {numbers : List α}
    {connectives : List ω} {value : α} (weights : ∀ x ∈ numbers, P w x)
    (lengths : connectives.length + 1 = numbers.length)
    (evaluated : c.withPrecedence numbers connectives = .ok value) :
    P (numbers.length * w) value := by
  cases numbers with
  | nil => cases evaluated
  | cons first rest =>
    rw [List.forall_mem_cons] at weights
    obtain ⟨⟨operands, pending⟩, scanned, evaluated⟩ := bind_ok evaluated
    obtain ⟨⟨operands', pending'⟩, settled, single⟩ := bind_ok evaluated
    have start : Weighs P w [first] := ⟨[w], .cons weights.1 .nil, by simp⟩
    have entries : ∀ entry ∈ connectives.zip rest, P w entry.2 :=
      fun entry he => weights.2 _ (List.of_mem_zip he).2
    have all := (start.scan keeps entries scanned).settle keeps settled
    rw [List.length_zip, Nat.succ.inj lengths, Nat.min_self] at all
    rcases operands' with _ | ⟨x, _ | _⟩
    · cases single
    · obtain rfl := Except.ok.inj single
      obtain ⟨weights, hx | ⟨hx, rest⟩, sum⟩ := all
      cases rest
      simp only [List.sum_cons, List.sum_nil] at sum
      rw [List.length_cons, Nat.succ_mul, Nat.add_comm, ← sum]
      exact hx
    · cases single

/-- The value of a formula weighs what its terms weigh. -/
theorem weight_evaluate (keeps : c.Conserves P) {w : Nat} {e : Formula ω α} {value : α}
    (weights : ∀ t ∈ e.terms, ∀ x, (if t.rooted then c.root t.value else .ok t.value) = .ok x →
      P w x)
    (evaluated : c.evaluate e = .ok value) : P (e.terms.length * w) value := by
  unfold evaluate run at evaluated
  split at evaluated
  · cases evaluated
  split at evaluated
  · cases evaluated
  next complete =>
  simp only [Formula.isComplete, Bool.not_eq_true', Bool.not_eq_false, Bool.and_eq_true,
    beq_iff_eq] at complete
  obtain ⟨numbers, rooted, evaluated⟩ := bind_ok evaluated
  obtain ⟨lengths, each⟩ := mapM_ok rooted
  rw [← lengths]
  refine weight_withPrecedence keeps (fun x hx => ?_) (complete.2.trans lengths.symm) evaluated
  obtain ⟨t, ht, eq⟩ := each x hx
  exact weights t ht x eq

end Calculus

/-! ## Card numbers -/

open Double

/-- A double that weighs `w`: it is bounded as long as the weight is within the range. -/
def Bounded (w : Nat) (x : Float) : Prop := 21 ≤ w ∧ (w ≤ 992 → Below (w - 21) x)

theorem divide_ok {x y z : Float} (h : doubles.apply x .divide y = .ok z) :
    isClose zeroTolerance y 0 = false ∧ z = x / y := by
  simp only [Arithmetic.apply, doubles] at h
  split at h
  · next some =>
    split at some
    · cases some
    · next apart =>
      obtain rfl := Option.some.inj some
      obtain rfl := Except.ok.inj h
      exact ⟨Bool.eq_false_iff.mpr apart, rfl⟩
  · cases h

theorem root_ok {x z : Float} (h : doubles.root x = .ok z) : z = x.sqrt := by
  simp only [Arithmetic.root, doubles] at h
  split at h
  · next some =>
    split at some
    · cases some
    · obtain rfl := Option.some.inj some
      exact (Except.ok.inj h).symm
  · cases h

theorem conserves_bounded : doubles.calculus.Conserves Bounded := by
  rintro i j x y z op ⟨hi, hx⟩ ⟨hj, hy⟩ applied
  refine ⟨by omega, fun hw => ?_⟩
  have hx := hx (by omega)
  have hy := hy (by omega)
  cases op with
  | add =>
    obtain rfl := Except.ok.inj applied
    exact (hx.add hy (by omega) (by omega)).mono (by omega)
  | subtract =>
    obtain rfl := Except.ok.inj applied
    exact (hx.sub hy (by omega) (by omega)).mono (by omega)
  | multiply =>
    obtain rfl := Except.ok.inj applied
    exact (hx.mul hy (by omega) (by omega)).mono (by omega)
  | divide =>
    obtain ⟨apart, rfl⟩ := divide_ok applied
    exact (hx.div hy apart (by omega) (by omega)).mono (by omega)

theorem CardValue.below (v : CardValue) : Below 4 v.toFloat := by
  revert v
  decide +kernel

theorem CardValue.below_sqrt (v : CardValue) : Below 4 v.toFloat.sqrt := by
  revert v
  decide +kernel

/-- The value of an expression of at most 39 card numbers is finite. -/
theorem Expression.below_of_evaluate {e : Expression} {value : Float}
    (cards : ∀ x ∈ e.values, ∃ v : CardValue, v.toFloat = x) (few : e.terms.length ≤ 39)
    (evaluated : e.evaluate = .ok value) : Below (25 * e.terms.length) value := by
  have weight : Bounded (e.terms.length * 25) value := by
    refine Calculus.weight_evaluate conserves_bounded (fun t ht x hx => ?_) evaluated
    obtain ⟨v, hv⟩ := cards t.value (List.mem_map_of_mem ht)
    refine ⟨by decide, fun _ => ?_⟩
    split at hx
    · obtain rfl := root_ok hx
      exact hv ▸ v.below_sqrt
    · obtain rfl := Except.ok.inj hx
      exact hv ▸ v.below
  exact (weight.2 (by omega)).mono (by omega)

end NumberDuel
