import NumberDuel.Proofs.Double.Rounding
import NumberDuel.Proofs.Validation.Rules

/-!
# Which submissions are accepted

`Satisfies` says what the rules ask of an expression, as statements about its terms and operators
and the cards of the hand, with no order among them. The checks, which stop at the first broken
rule, accept exactly the expressions that satisfy them, and whoever is refused is told a reason.
-/

namespace NumberDuel

namespace Expression

/-- What the rules ask of an expression on a hand. -/
structure Satisfies (e : Expression) (hand : Hand) : Prop where
  nonempty : e.terms ≠ []
  between : e.connectives.length + 1 = e.terms.length
  finite : ∀ t ∈ e.terms, t.value.isFinite = true
  /-- The terms, each at its nearest whole number, are the numbers held. -/
  numbers : ∃ rounded : List Int, e.values.Forall₂ RoundsTo rounded ∧
    rounded.Perm (hand.numberValues.map fun v => (v.val : Int))
  roots : e.terms.countP (·.rooted) = hand.rootCount
  multiplies : e.connectives.count .multiply = hand.multiplyCount
  enabled : ∀ op ∈ e.connectives, op ≠ .multiply → op ∉ hand.disabled

/-- Only finite values can be rounded all, and each in one way. -/
theorem forall₂_roundsTo_iff {values : List Float} {rounded : List Int} :
    values.Forall₂ RoundsTo rounded ↔
      (∀ x ∈ values, x.isFinite = true) ∧ values.filterMap roundHalfEven? = rounded := by
  induction values generalizing rounded with
  | nil => cases rounded <;> simp
  | cons x values ih =>
    rw [List.forall_mem_cons, List.filterMap_cons, ← isSome_roundHalfEven?]
    cases hx : roundHalfEven? x with
    | none => cases rounded <;> simp [← roundHalfEven?_eq_some_iff, hx]
    | some n =>
      cases rounded with
      | nil => simp
      | cons m rounded =>
        simp [← roundHalfEven?_eq_some_iff, hx, ih, and_left_comm]

theorem breach?_eq_none_iff_satisfies {e : Expression} {hand : Hand} :
    e.breach? hand = none ↔ e.Satisfies hand := by
  have finite : (∀ t ∈ e.terms, t.value.isFinite = true) ↔ ∀ x ∈ e.values, x.isFinite = true := by
    simp [Formula.values]
  rw [breach?_eq_none_iff]
  constructor
  · rintro ⟨complete, all_finite, rounded, roots, multiplies, enabled⟩
    simp only [Formula.isComplete, Bool.and_eq_true, Bool.not_eq_true', List.isEmpty_eq_false_iff,
      beq_iff_eq] at complete
    refine ⟨complete.1, complete.2, finite.mpr all_finite,
      ⟨_, forall₂_roundsTo_iff.mpr ⟨all_finite, rfl⟩, rounded⟩, roots, multiplies, ?_⟩
    simpa [Hand.isEnabled] using enabled
  · rintro ⟨nonempty, between, all_finite, ⟨_, rounds, rounded⟩, roots, multiplies, enabled⟩
    obtain ⟨-, rfl⟩ := forall₂_roundsTo_iff.mp rounds
    refine ⟨?_, finite.mp all_finite, rounded, roots, multiplies, ?_⟩
    · simp [Formula.isComplete, nonempty, between]
    · simpa [Hand.isEnabled] using enabled

/-- The checks accept an expression if and only if it satisfies the rules. -/
theorem valid_iff_satisfies (e : Expression) (hand : Hand) :
    (e.validate hand).valid = true ↔ e.Satisfies hand :=
  validate_valid.trans breach?_eq_none_iff_satisfies

/-- Nothing can be built from a hand without numbers. -/
theorem valid_of_no_numbers {hand : Hand} (none : hand.numbers = []) (e : Expression) :
    (e.validate hand).valid = false := by
  by_contra accepted
  obtain ⟨nonempty, -, -, ⟨rounded, rounds, held⟩, -⟩ :=
    (valid_iff_satisfies e hand).mp (by simpa using accepted)
  rw [Hand.numberValues, none, List.map_nil, List.map_nil, List.perm_nil] at held
  subst held
  have no_terms : e.values = [] := List.forall₂_nil_right_iff.mp rounds
  exact nonempty (List.map_eq_nil_iff.mp no_terms)

end Expression

/-! ## Reasons -/

theorem append_ne_empty_of_left {s : String} (h : s ≠ "") (t : String) : s ++ t ≠ "" :=
  fun empty => h (String.append_eq_empty_iff.mp empty).1

theorem append_ne_empty_of_right (s : String) {t : String} (h : t ≠ "") : s ++ t ≠ "" :=
  fun empty => h (String.append_eq_empty_iff.mp empty).2

/-- No broken rule goes without words. -/
theorem Breach.detail_ne_empty (b : Breach) : b.detail ≠ "" := by
  cases b with
  | empty | incomplete => decide
  | notFinite | disabledOperator => exact append_ne_empty_of_left (by simp) _
  | numberShort | rootShort | multiplyShort => exact append_ne_empty_of_right _ (by decide)
  | numberSurplus | rootSurplus | multiplySurplus => exact append_ne_empty_of_right _ (by decide)

/-- The reason that is told is empty for accepted expressions only. -/
theorem Expression.detail_validate_eq_empty_iff (e : Expression) (hand : Hand) :
    (e.validate hand).detail = "" ↔ (e.validate hand).valid = true := by
  unfold validate
  cases e.breach? hand with
  | none => simp [Verdict.detail]
  | some breach => simp [Verdict.reject, Verdict.detail, breach.detail_ne_empty]

end NumberDuel
