import NumberDuel.Proofs.Evaluation.Success
import NumberDuel.Proofs.Search.Soundness
import NumberDuel.Proofs.Strategy.Smart

/-!
# Hands on which both strategies succeed

The basic construction does not look for a way out: it keeps the rules where the hand has room for
its roots and forced `×` and its first operators are enabled and are neither `×` nor `÷`. Then it
is a legal arrangement with a value, so the search accepts something too, and both strategies
submit legal arrangements with a value.
-/

namespace NumberDuel

/-- A hand with room for its special cards, whose first operators can be taken as they come. With
so few numbers no value is infinite. -/
structure Hand.Workable (hand : Hand) : Prop where
  few : hand.numbers.length ≤ 38
  roots : hand.rootCount ≤ hand.numbers.length
  multiplies : hand.multiplyCount < hand.numbers.length
  operators : hand.numbers.length ≤ hand.operators.length + 1
  usable : ∀ op ∈ hand.operatorValues.take (hand.numbers.length - 1),
    op ≠ .multiply ∧ op ≠ .divide ∧ hand.isEnabled op = true

/-- The forced `×` come first, then the cards, and `+` where these run out. -/
theorem fallbackOperators_eq_append (gaps forced : Nat) (cards : List Operator) :
    fallbackOperators gaps forced cards =
      List.replicate (min forced gaps) .multiply ++ cards.take (gaps - forced) ++
        List.replicate (gaps - forced - cards.length) .add := by
  fun_induction fallbackOperators gaps forced cards with
  | case1 forced cards => simp
  | case2 gaps forced cards ih =>
    rw [ih, Nat.succ_min_succ, List.replicate_succ, Nat.succ_sub_succ]
    rfl
  | case3 gaps op cards ih => simp [ih]
  | case4 gaps ih => simp [ih, List.replicate_succ]

theorem countP_lt_range (k n : Nat) : (List.range n).countP (decide <| · < k) = min k n := by
  induction n with
  | zero => simp
  | succ n ih =>
    rw [List.range_succ, List.countP_append, ih, List.countP_singleton]
    split <;> simp_all <;> omega

namespace Hand

variable {hand : Hand}

theorem values_fallback (hand : Hand) :
    hand.fallback.values = hand.numberValues.map CardValue.toFloat := by
  simp only [fallback, Formula.values, List.map_map]
  exact List.zipIdx_map_fst 0 _

theorem length_terms_fallback (hand : Hand) : hand.fallback.terms.length = hand.numbers.length := by
  simp [fallback, numberValues]

/-- As many of the first numbers get a root as there are. -/
theorem rootCount_fallback (hand : Hand) :
    hand.fallback.rootCount = min hand.rootCount hand.numbers.length := by
  have places : (hand.fallback.terms.map (·.rooted)) =
      (List.range hand.numbers.length).map fun i => decide (i < hand.rootCount) := by
    have indices := List.zipIdx_map_snd 0 (hand.numberValues.map CardValue.toFloat)
    rw [← List.range_eq_range', List.length_map, numberValues, List.length_map] at indices
    rw [← indices, fallback, List.map_map, List.map_map]
    rfl
  rw [Formula.rootCount, ← countP_lt_range]
  have := congrArg (List.countP id) places
  simpa [List.countP_map] using this

/-- The operators that the basic construction takes from cards, one for each gap that the forced
`×` leave open. -/
def taken (hand : Hand) : List Operator :=
  hand.operatorValues.take (hand.numbers.length - 1 - hand.multiplyCount)

def invented (hand : Hand) : Nat :=
  hand.numbers.length - 1 - hand.multiplyCount - hand.operators.length

theorem connectives_fallback (hand : Hand) :
    hand.fallback.connectives =
      List.replicate (min hand.multiplyCount (hand.numbers.length - 1)) .multiply ++ hand.taken ++
        List.replicate hand.invented .add := by
  have gaps : hand.fallback.connectives =
      fallbackOperators (hand.numbers.length - 1) hand.multiplyCount hand.operatorValues := by
    simp [fallback, numberValues]
  rw [gaps, fallbackOperators_eq_append, operatorValues, List.length_map]
  rfl

/-- Where the special cards fit and the operator cards last, no sign is invented. -/
theorem connectives_fallback_of_enough (fits : hand.multiplyCount ≤ hand.numbers.length - 1)
    (enough : hand.numbers.length - 1 - hand.multiplyCount ≤ hand.operators.length) :
    hand.fallback.connectives = List.replicate hand.multiplyCount .multiply ++ hand.taken := by
  have none : hand.invented = 0 := by
    rw [invented]
    omega
  rw [connectives_fallback, Nat.min_eq_left fits, none, List.replicate_zero, List.append_nil]

/-- There the basic construction plays cards that are held, so it is legal if its roots, its `×`
and its other operators are as they should be. -/
theorem legal_fallback_of_enough (fits : hand.multiplyCount ≤ hand.numbers.length - 1)
    (enough : hand.numbers.length - 1 - hand.multiplyCount ≤ hand.operators.length)
    (roots : hand.fallback.rootCount = hand.rootCount)
    (multiplies : hand.fallback.count .multiply = hand.multiplyCount)
    (enabled : ∀ op ∈ hand.fallback.connectives, op ≠ .multiply → hand.isEnabled op = true) :
    Search.Legal hand hand.fallback := by
  refine ⟨.of_eq (values_fallback hand), roots, multiplies, ?_⟩
  have connectives := connectives_fallback_of_enough fits enough
  have usable : (hand.taken.filter (· != .multiply)).filter hand.isEnabled =
      hand.taken.filter (· != .multiply) := by
    refine List.filter_eq_self.mpr fun op hop => ?_
    obtain ⟨mem, other⟩ := List.mem_filter.mp hop
    exact enabled op (by simp [connectives, mem]) (by simpa using other)
  have cards : (hand.fallback.connectives.filter (· != .multiply)) =
      (hand.taken.filter (· != .multiply)).filter hand.isEnabled := by
    rw [usable, connectives, List.filter_append]
    simp
  rw [cards]
  exact ((List.filter_sublist.trans (List.take_sublist _ _)).filter hand.isEnabled).subperm

/-- Whatever is held, one operator stands between each two numbers. -/
theorem isComplete_fallback_iff : hand.fallback.isComplete = true ↔ 1 ≤ hand.numbers.length := by
  have gaps : hand.fallback.connectives.length = hand.numbers.length - 1 := by
    simp only [connectives_fallback, taken, invented, operatorValues, List.length_append,
      List.length_replicate, List.length_take, List.length_map]
    omega
  rw [Formula.isComplete_iff, gaps, length_terms_fallback]
  omega

namespace Workable

theorem enough (h : hand.Workable) : hand.multiplyCount ≤ hand.numbers.length - 1 ∧
    hand.numbers.length - 1 - hand.multiplyCount ≤ hand.operators.length := by
  have room := h.multiplies
  have cards := h.operators
  omega

theorem connectives_fallback (h : hand.Workable) :
    hand.fallback.connectives = List.replicate hand.multiplyCount .multiply ++ hand.taken :=
  connectives_fallback_of_enough h.enough.1 h.enough.2

/-- The operators that are taken are among the first ones held. -/
theorem usable_taken (h : hand.Workable) :
    ∀ op ∈ hand.taken, op ≠ .multiply ∧ op ≠ .divide ∧ hand.isEnabled op = true :=
  fun op hop => h.usable op ((List.take_subset_take_left _ (Nat.sub_le ..)) hop)

theorem isComplete_fallback (h : hand.Workable) : hand.fallback.isComplete = true :=
  isComplete_fallback_iff.mpr (Nat.one_le_of_lt h.multiplies)

theorem legal_fallback (h : hand.Workable) : Search.Legal hand hand.fallback := by
  have roots := (rootCount_fallback hand).trans (Nat.min_eq_left h.roots)
  have none : hand.taken.count .multiply = 0 :=
    List.count_eq_zero.mpr fun mem => (h.usable_taken _ mem).1 rfl
  have multiplies : hand.fallback.count .multiply = hand.multiplyCount := by
    rw [Formula.count, h.connectives_fallback, List.count_append, List.count_replicate_self, none]
    rfl
  refine legal_fallback_of_enough h.enough.1 h.enough.2 roots multiplies fun op hop other => ?_
  rw [h.connectives_fallback, List.mem_append] at hop
  rcases hop with forced | taken
  · exact absurd (List.eq_of_mem_replicate forced) other
  · exact (h.usable_taken op taken).2.2

theorem exists_evaluate_fallback (h : hand.Workable) :
    ∃ value, hand.fallback.evaluate = .ok value := by
  refine Calculus.exists_evaluate h.isComplete_fallback (fun t ht _ => ?_) fun op hop => ?_
  · have value : t.value ∈ hand.numberValues.map CardValue.toFloat :=
      values_fallback hand ▸ List.mem_map_of_mem ht
    obtain ⟨v, -, hv⟩ := List.mem_map.mp value
    exact hv ▸ v.exists_root
  · rw [h.connectives_fallback, List.mem_append] at hop
    rcases hop with forced | taken
    · exact total_of_ne_divide (List.eq_of_mem_replicate forced ▸ nofun)
    · exact total_of_ne_divide (h.usable_taken op taken).2.1

/-- Either strategy plays a legal arrangement that has a value. -/
theorem exists_play (h : hand.Workable) {target : Int} {aim : Float}
    (converts : doubleOfInt? target = some aim) (strategy : Strategy) :
    ∃ e value, strategy.play hand target = .ok e ∧ Search.Legal hand e ∧
      e.evaluate = .ok value := by
  obtain ⟨value, evaluated⟩ := h.exists_evaluate_fallback
  cases strategy with
  | basic => exact ⟨_, value, rfl, h.legal_fallback, evaluated⟩
  | smart =>
    have mem := h.legal_fallback.mem_accepted evaluated aim
    obtain ⟨c, chosen⟩ :=
      Option.isSome_iff_exists.mp (Search.isSome_chosen_of_mem_accepted mem)
    obtain ⟨legal, c_value, -⟩ :=
      Search.mem_accepted_standard.mp (Search.mem_accepted_of_chosen chosen)
    refine ⟨c.expression, c.value, ?_, legal, c_value⟩
    rw [Strategy.play, playSmart_eq hand converts, chosen]
    rfl

end Workable

end Hand

end NumberDuel
