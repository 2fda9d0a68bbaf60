import NumberDuel.Proofs.Search.Walk

/-!
# Which expressions are arrangements

An expression is an arrangement of a hand if and only if it is complete, has the numbers of the
hand in some order, as many roots as demanded, and connectives that fill the gaps. That a hand is
feasible need not be asked: a hand with such an expression is.
-/

namespace NumberDuel

namespace Formula

variable {ω α : Type}

theorem length_rootFlags (e : Formula ω α) : e.rootFlags.length = e.terms.length := by
  simp [rootFlags]

theorem length_values (e : Formula ω α) : e.values.length = e.terms.length := by
  simp [values]

theorem count_rootFlags (e : Formula ω α) : e.rootFlags.count true = e.rootCount := by
  rw [rootFlags, rootCount, List.count, List.countP_map]
  refine List.countP_congr fun t _ => ?_
  simp

theorem isComplete_iff {e : Formula ω α} :
    e.isComplete = true ↔ e.connectives.length + 1 = e.terms.length := by
  simp only [isComplete]
  grind

end Formula

theorem zipWith_mk (ts : List (Term Float)) :
    List.zipWith Term.mk (ts.map (·.value)) (ts.map (·.rooted)) = ts := by
  induction ts with
  | nil => rfl
  | cons t ts ih => simp [ih]

theorem map_value_zipWith_mk {numbers : List Float} {roots : List Bool}
    (h : roots.length = numbers.length) :
    (List.zipWith Term.mk numbers roots).map (·.value) = numbers := by
  induction numbers generalizing roots with
  | nil => simp
  | cons x numbers ih => cases roots <;> simp_all

theorem map_rooted_zipWith_mk {numbers : List Float} {roots : List Bool}
    (h : roots.length = numbers.length) :
    (List.zipWith Term.mk numbers roots).map (·.rooted) = roots := by
  induction numbers generalizing roots with
  | nil => simp_all
  | cons x numbers ih => cases roots <;> simp_all

namespace Expression

variable {numbers : List Float} {roots : List Bool} {operators : List Operator}

theorem values_ofParts (h : roots.length = numbers.length) :
    (ofParts numbers roots operators).values = numbers :=
  map_value_zipWith_mk h

theorem rootFlags_ofParts (h : roots.length = numbers.length) :
    (ofParts numbers roots operators).rootFlags = roots :=
  map_rooted_zipWith_mk h

theorem connectives_ofParts (h : operators.length ≤ numbers.length) :
    (ofParts numbers roots operators).connectives = operators :=
  List.take_of_length_le h

/-- An expression is made of its parts, unless it has connectives to spare. -/
theorem ofParts_self {e : Expression} (h : e.connectives.length ≤ e.terms.length) :
    ofParts e.values e.rootFlags e.connectives = e := by
  simp only [ofParts, Formula.values, Formula.rootFlags, zipWith_mk, List.length_map,
    List.take_of_length_le h]

end Expression

/-- The terms of an expression made of card numbers show the faces of cards. -/
theorem exists_card_of_perm {e : Expression} {numbers : List CardValue}
    (h : e.values.Perm (numbers.map CardValue.toFloat)) {t : Term Float} (ht : t ∈ e.terms) :
    ∃ v : CardValue, t.value = v.toFloat := by
  have held : t.value ∈ numbers.map CardValue.toFloat := h.subset (List.mem_map_of_mem ht)
  obtain ⟨v, -, eq⟩ := List.mem_map.mp held
  exact ⟨v, eq.symm⟩

namespace Search.Space

variable {s : Space} {e : Expression}

theorem mem_arrangements_iff_parts :
    e ∈ s.arrangements ↔
      s.infeasible? = none ∧
        ∃ ordering ∈ orderings s.numbers.length (tally s.numbers),
        ∃ roots ∈ rootVectors s.numbers.length s.roots,
        ∃ filling ∈ fillings s.gaps s.multiplies s.pool,
          .ofParts (ordering.map CardValue.toFloat) roots (fill filling) = e := by
  rw [arrangements_eq]
  split
  · simp only [choices, choicesWith, fillings_pool, List.map_flatMap, List.mem_flatMap,
      List.mem_map, List.map_map, exists_exists_and_eq_and, Function.comp_apply,
      Choice.expression, Choice.operators, fill_map_get, true_and, *]
  · simp [*]

theorem length_reduceOption {α : Type} (filling : List (Option α)) :
    filling.reduceOption.length + filling.countP Option.isNone = filling.length := by
  rw [List.length_eq_reduceOption_length_add_filter_none, List.countP_eq_length_filter]

/-- The arrangements of a space. -/
theorem mem_arrangements :
    e ∈ s.arrangements ↔
      e.isComplete = true ∧ e.values.Perm (s.numbers.map CardValue.toFloat) ∧
        e.rootCount = s.roots ∧
        ∃ filling, fill filling = e.connectives ∧
          filling.countP Option.isNone = s.multiplies ∧ filling.reduceOption.Subperm s.pool := by
  rw [mem_arrangements_iff_parts]
  constructor
  · rintro ⟨feasible, ordering, ho, roots, hr, filling, hf, rfl⟩
    have perm := mem_orderings_tally.mp ho
    obtain ⟨places, count⟩ := mem_rootVectors.mp hr
    obtain ⟨gaps, multiplies, cards⟩ := mem_fillings.mp hf
    have some_number := List.length_pos_iff.mpr (infeasible?_eq_none.mp feasible).1
    have flags : roots.length = (ordering.map CardValue.toFloat).length := by
      rw [places, List.length_map, perm.length_eq]
    have filled : (fill filling).length + 1 = (ordering.map CardValue.toFloat).length := by
      rw [length_fill, gaps, List.length_map, perm.length_eq, Space.gaps]
      omega
    have connectives : (Expression.ofParts (ordering.map CardValue.toFloat) roots
        (fill filling)).connectives = fill filling :=
      Expression.connectives_ofParts (Nat.le_of_succ_le (Nat.le_of_eq filled))
    refine ⟨?_, ?_, ?_, filling, connectives.symm, multiplies, cards⟩
    · rw [Formula.isComplete_iff, connectives, filled, ← Formula.length_values,
        Expression.values_ofParts flags]
    · rw [Expression.values_ofParts flags]
      exact perm.map _
    · rw [← Formula.count_rootFlags, Expression.rootFlags_ofParts flags, count]
  · rintro ⟨complete, values, roots, filling, filled, multiplies, cards⟩
    obtain ⟨ordering, hvalues, perm⟩ : ∃ ordering : List CardValue,
        e.values = ordering.map CardValue.toFloat ∧ ordering.Perm s.numbers :=
      (congrFun₂ (List.eq_map_comp_perm CardValue.toFloat) _ _).mpr values
    have terms : e.terms.length = s.numbers.length := by
      rw [← Formula.length_values, values.length_eq, List.length_map]
    rw [Formula.isComplete_iff, terms] at complete
    have gaps : filling.length = s.gaps := by
      rw [← length_fill, filled, Space.gaps]
      omega
    refine ⟨infeasible?_eq_none.mpr ⟨?_, ?_, ?_⟩, ordering, mem_orderings_tally.mpr perm,
      e.rootFlags, mem_rootVectors.mpr ⟨?_, ?_⟩, filling,
      mem_fillings.mpr ⟨gaps, multiplies, cards⟩, ?_⟩
    · exact List.length_pos_iff.mp (by omega)
    · rw [← gaps, ← multiplies]
      exact filling.countP_le_length
    · rw [← gaps, ← multiplies, ← length_reduceOption filling, Nat.add_sub_cancel]
      exact cards.length_le
    · rw [Formula.length_rootFlags, terms]
    · rw [Formula.count_rootFlags, roots]
    · rw [← hvalues, filled, Expression.ofParts_self (by omega)]

end Search.Space

end NumberDuel
