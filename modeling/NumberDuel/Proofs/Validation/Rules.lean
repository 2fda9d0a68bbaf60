import Mathlib.Data.List.Perm.Basic
import NumberDuel.Validation

/-!
# What the checks of a submission mean

Each check finds nothing if and only if its rule is kept, so a submission without a breach keeps
all rules. An expression made of the numbers of a hand passes the check of its numbers.
-/

namespace NumberDuel

namespace Expression

theorem checkCount_eq_none_iff {required used : Nat} {short surplus : Nat → Breach} :
    checkCount required used short surplus = none ↔ used = required := by
  unfold checkCount
  grind

/-- Equal counts of every number that is held or used make the two rows rearrangements. -/
theorem checkCounts_eq_none_iff {held used : List Int} :
    checkCounts held used = none ↔ used.Perm held := by
  rw [checkCounts, List.findSome?_eq_none_iff, List.perm_iff_count]
  simp only [checkCount_eq_none_iff, List.mem_eraseDups]
  constructor
  · intro counts n
    by_cases hn : n ∈ held ∨ n ∈ used
    · refine counts n ?_
      simp only [List.mem_append, List.mem_filter, List.contains_eq_mem]
      grind
    · rw [not_or] at hn
      rw [List.count_eq_zero.mpr hn.1, List.count_eq_zero.mpr hn.2]
  · exact fun counts n _ => counts n

theorem checkFinite_eq_none_iff {e : Expression} :
    e.checkFinite = none ↔ ∀ x ∈ e.values, x.isFinite = true := by
  simp [checkFinite]

theorem checkNumbers_eq_none_iff {e : Expression} {hand : Hand} :
    e.checkNumbers hand = none ↔
      (∀ x ∈ e.values, x.isFinite = true) ∧
        e.roundedValues.Perm (hand.numberValues.map fun v => (v.val : Int)) := by
  simp only [checkNumbers, Option.orElse_eq_orElse, Option.orElse_eq_or, Option.or_eq_none_iff,
    checkFinite_eq_none_iff, checkCounts_eq_none_iff]

theorem checkDisabled_eq_none_iff {e : Expression} {hand : Hand} :
    e.checkDisabled hand = none ↔
      ∀ op ∈ e.connectives, op ≠ .multiply → hand.isEnabled op = true := by
  simp [checkDisabled]

/-- A submission without a breach keeps all rules. -/
theorem breach?_eq_none_iff {e : Expression} {hand : Hand} :
    e.breach? hand = none ↔
      e.isComplete = true ∧ (∀ x ∈ e.values, x.isFinite = true) ∧
        e.roundedValues.Perm (hand.numberValues.map fun v => (v.val : Int)) ∧
        e.rootCount = hand.rootCount ∧ e.count .multiply = hand.multiplyCount ∧
        ∀ op ∈ e.connectives, op ≠ .multiply → hand.isEnabled op = true := by
  have shape : e.checkNotEmpty = none ∧ e.checkComplete = none ↔ e.isComplete = true := by
    simp only [checkNotEmpty, checkComplete, Formula.isEmpty, Formula.isComplete]
    grind
  simp only [breach?, Option.orElse_eq_orElse, Option.orElse_eq_or, Option.or_eq_none_iff,
    checkNumbers_eq_none_iff, checkDisabled_eq_none_iff, checkRoots, checkMultiplies,
    checkCount_eq_none_iff, ← shape, and_assoc]

theorem validate_valid {e : Expression} {hand : Hand} :
    (e.validate hand).valid = true ↔ e.breach? hand = none := by
  unfold validate
  split <;> simp_all [Verdict.reject]

end Expression

namespace CardValue

theorem isFinite_toFloat (v : CardValue) : v.toFloat.isFinite = true := by
  revert v
  decide +kernel

theorem roundHalfEven?_toFloat (v : CardValue) :
    roundHalfEven? v.toFloat = some (v.val : Int) := by
  revert v
  decide +kernel

end CardValue

/-- The numbers of a hand, in any order, pass the check of the numbers. -/
theorem Expression.checkNumbers_of_perm {e : Expression} {hand : Hand}
    (h : e.values.Perm (hand.numberValues.map CardValue.toFloat)) :
    e.checkNumbers hand = none := by
  rw [checkNumbers_eq_none_iff]
  constructor
  · intro x hx
    obtain ⟨v, -, rfl⟩ := List.mem_map.mp (h.mem_iff.mp hx)
    exact v.isFinite_toFloat
  · refine (h.filterMap roundHalfEven?).trans (.of_eq ?_)
    simp [List.filterMap_map, CardValue.roundHalfEven?_toFloat]

end NumberDuel
