import Mathlib.Logic.Function.Iterate
import NumberDuel.Expression

/-!
# Taking steps back

A formula is built in turn: a number, a connective, a number, and so on. A step back takes the
last connective where one stands between each two numbers, and the last number everywhere else.
So a formula that ends on a number gets empty, a number and a connective in turn, and in as many
steps as it has parts. A formula that ends on a connective loses its numbers only.
-/

namespace NumberDuel.Formula

variable {ω α : Type}

/-- Formulas that are built in turn from the empty one; they may end on either. -/
inductive InTurn : Formula ω α → Prop
  | start : InTurn {}
  | number {e : Formula ω α} (built : InTurn e) (turn : e.expectsNumber = true) (value : α)
      (rooted : Bool) : InTurn (e.addNumber value rooted)
  | connective {e : Formula ω α} (built : InTurn e) (turn : e.expectsNumber = false) (op : ω) :
      InTurn (e.addConnective op)

def size (e : Formula ω α) : Nat := e.terms.length + e.connectives.length

theorem size_eq_zero_iff {e : Formula ω α} : e.size = 0 ↔ e = {} := by
  obtain ⟨terms, connectives⟩ := e
  simp [size]

/-- A formula built in turn ends on a connective or is empty, or else it ends on a number. -/
theorem InTurn.turn {e : Formula ω α} (built : e.InTurn) :
    e.terms.length = e.connectives.length ∨ e.terms.length = e.connectives.length + 1 := by
  induction built with
  | start => exact .inl rfl
  | number _ turn =>
    simp only [expectsNumber, beq_iff_eq] at turn
    exact .inr (by simp [addNumber, turn])
  | connective _ turn _ ih =>
    simp only [expectsNumber, beq_eq_false_iff_ne] at turn
    exact .inl (by simpa [addConnective] using ih.resolve_left turn)

/-! ## One step back -/

theorem removeLast_of_between {e : Formula ω α} (some : e.connectives ≠ [])
    (between : e.connectives.length + 1 = e.terms.length) :
    e.removeLast = { e with connectives := e.connectives.dropLast } := by
  simp [removeLast, some, between]

theorem removeLast_of_not_between {e : Formula ω α}
    (other : e.connectives = [] ∨ e.connectives.length + 1 ≠ e.terms.length) :
    e.removeLast = { e with terms := e.terms.dropLast } := by
  rcases other with none | other
  · simp [removeLast, none]
  · simp [removeLast, other]

/-! ## Formulas that get empty -/

/-- The formulas that steps back can empty: there is a number more than connectives at least, or
nothing at all. -/
def Removable (e : Formula ω α) : Prop := e.connectives.length < e.terms.length ∨ e.size = 0

/-- One step back takes one part, and what is left can be emptied still. -/
theorem Removable.removeLast {e : Formula ω α} (h : e.Removable) :
    e.removeLast.Removable ∧ e.removeLast.size = e.size - 1 := by
  by_cases last : e.connectives ≠ [] ∧ e.connectives.length + 1 = e.terms.length
  · have some := List.length_pos_iff.mpr last.1
    rw [removeLast_of_between last.1 last.2]
    simp only [Removable, size, List.length_dropLast] at h ⊢
    omega
  · have other : e.connectives.length = 0 ∨ e.connectives.length + 1 ≠ e.terms.length := by
      simpa [Classical.or_iff_not_imp_left] using last
    rw [removeLast_of_not_between (other.imp_left List.length_eq_zero_iff.mp)]
    simp only [Removable, size, List.length_dropLast] at h ⊢
    omega

/-- Each step back takes one part, until none is left. -/
theorem Removable.size_iterate {e : Formula ω α} (h : e.Removable) (k : Nat) :
    (Formula.removeLast^[k] e).size = e.size - k := by
  induction k generalizing e with
  | zero => rfl
  | succ k ih =>
    obtain ⟨h', size⟩ := h.removeLast
    rw [Function.iterate_succ_apply, ih h', size]
    omega

/-! ## Formulas that keep their connectives -/

/-- Where connectives are as many as numbers, or more, each step back takes a number. -/
theorem iterate_removeLast_of_le {e : Formula ω α} (h : e.terms.length ≤ e.connectives.length)
    (k : Nat) :
    Formula.removeLast^[k] e = { e with terms := e.terms.take (e.terms.length - k) } := by
  induction k with
  | zero => simp
  | succ k ih =>
    have shorter : e.connectives.length + 1 ≠ (e.terms.take (e.terms.length - k)).length := by
      rw [List.length_take]
      omega
    have taken : (e.terms.take (e.terms.length - k)).dropLast =
        e.terms.take (e.terms.length - (k + 1)) := by
      rw [List.dropLast_eq_take, List.take_take, List.length_take]
      congr 1
      omega
    rw [Function.iterate_succ_apply', ih, removeLast_of_not_between (.inr shorter)]
    simp only [taken]

/-- Steps back empty a formula that ends on a number, and not before each of its parts is taken;
what is left then expects a number again. A formula that ends on a connective loses its numbers,
the last one first, and keeps all its connectives. -/
theorem iterate_removeLast_inTurn {e : Formula ω α} (built : e.InTurn) (k : Nat) :
    let left := Formula.removeLast^[k] e
    (e.isComplete = true ∨ e = {} → (e.terms.length + e.connectives.length ≤ k ↔
      left.terms = [] ∧ left.connectives = [] ∧ left.expectsNumber = true)) ∧
    (e.isComplete = false →
      left = { e with terms := e.terms.take (e.terms.length - k) }) := by
  intro left
  constructor
  · intro closed
    have removable : e.Removable := by
      rcases closed with complete | rfl
      · simp only [isComplete, Bool.and_eq_true, beq_iff_eq] at complete
        exact .inl (by omega)
      · exact .inr rfl
    calc e.terms.length + e.connectives.length ≤ k
        ↔ left.size = 0 := by rw [removable.size_iterate, Nat.sub_eq_zero_iff_le, size]
      _ ↔ left = {} := size_eq_zero_iff
      _ ↔ left.terms = [] ∧ left.connectives = [] ∧ left.expectsNumber = true := by
          constructor
          · intro empty
            rw [empty]
            exact ⟨rfl, rfl, rfl⟩
          · rintro ⟨terms, connectives, -⟩
            exact size_eq_zero_iff.mp (by simp [size, terms, connectives])
  · intro open_end
    refine iterate_removeLast_of_le ?_ k
    rcases built.turn with same | more
    · exact Nat.le_of_eq same
    · have terms : e.terms ≠ [] := List.ne_nil_of_length_eq_add_one more
      simp [isComplete, terms, more] at open_end

/-- Two numbers and the `+` between them are gone after three steps, and not before. -/
theorem iterate_removeLast_three_four :
    let e : Expression :=
      ((({} : Expression).addNumber 3 false).addConnective Operator.add).addNumber 4 true
    e.InTurn ∧ e.isComplete = true ∧ ∀ k,
      let left := Formula.removeLast^[k] e
      3 ≤ k ↔ left.terms = [] ∧ left.connectives = [] ∧ left.expectsNumber = true := by
  intro e
  have three : InTurn (({} : Expression).addNumber 3 false) := .number .start rfl 3 false
  have built : e.InTurn := .number (.connective three rfl Operator.add) rfl 4 true
  exact ⟨built, rfl, fun k => (iterate_removeLast_inTurn built k).1 (.inl rfl)⟩

/-- A number with a `+` behind it: no row of steps back takes the `+`. -/
theorem not_emptied_three_plus :
    let e : Expression := (({} : Expression).addNumber 3 false).addConnective Operator.add
    e.InTurn ∧ ∀ k, (Formula.removeLast^[k] e).connectives = [.add] := by
  intro e
  refine ⟨.connective (.number .start rfl 3 false) rfl Operator.add, fun k => ?_⟩
  have as_many : e.terms.length ≤ e.connectives.length := Nat.le_refl 1
  rw [iterate_removeLast_of_le as_many]
  rfl

end NumberDuel.Formula
