import NumberDuel.Proofs.Builder.Run
import NumberDuel.Proofs.Search.Optimality

/-!
# What a player can submit

Whatever a player picks, the numbers of the expression are numbers on cards, and each operator
in it other than `×` is on an operator card of its own. This is so on every hand, also on one that
holds a card twice. A submission that breaks no rule is therefore a legal arrangement, the same
kind that the search goes through: a `×` card may stand for a forced `×` that was not played.
-/

namespace NumberDuel.Builder

/-- Every number comes from a card, and every operator but `×` from an operator card of its own. -/
structure Sourced (hand : Hand) (b : Builder) : Prop where
  on_hand : b.hand = some hand
  numbers : ∃ values : List CardValue, b.expression.values = values.map CardValue.toFloat
  operators : ∃ cards : List (Copy Operator), (∀ card ∈ cards, card ∈ hand.operators) ∧
    (cards.map (·.serial)).Nodup ∧ (∀ card ∈ cards, b.isUsed card = true) ∧
    cards.map (·.face) = b.expression.connectives.filter (· != .multiply)

variable {hand : Hand} {b b' : Builder} {card : Card}

theorem sourced_setHand (hand : Hand) (b : Builder) : Sourced hand (b.setHand (some hand)) where
  on_hand := rfl
  numbers := ⟨[], rfl⟩
  operators := ⟨[], by simp, by simp, by simp, rfl⟩

theorem Sourced.reset (h : Sourced hand b) : Sourced hand b.reset :=
  reset_eq_setHand h.on_hand ▸ sourced_setHand hand b

/-- An accepted card keeps the sources: a number adds itself, an operator its own card. -/
theorem Sourced.accept (h : Sourced hand b) (held : card ∈ hand.cards)
    (unused : b.isUsed card = false) (accepts : Accepts b card.serial card.face b') :
    Sourced hand b' := by
  obtain ⟨on_hand, ⟨values, hvalues⟩, cards, on_cards, once, used, faces⟩ := h
  obtain ⟨n, face⟩ := card
  dsimp only at accepts
  cases accepts with
  | @number value =>
    refine ⟨on_hand, ⟨values ++ [value], ?_⟩, cards, on_cards, once, fun c hc => ?_, faces⟩
    · simpa [Formula.addNumber, Formula.values] using hvalues
    · simpa [isUsed] using .inr (used c hc)
  | @rooted value root =>
    refine ⟨on_hand, ⟨values ++ [value], ?_⟩, cards, on_cards, once, fun c hc => ?_, faces⟩
    · simpa [Formula.addNumber, Formula.values] using hvalues
    · simpa [isUsed] using .inr (.inr (used c hc))
  | @operator op =>
    by_cases times : op = .multiply
    · refine ⟨on_hand, ⟨values, hvalues⟩, cards, on_cards, once, fun c hc => ?_, ?_⟩
      · simpa [isUsed] using .inr (used c hc)
      · simpa [Formula.addConnective, times] using faces
    · have fresh : n ∉ cards.map (·.serial) := by
        intro taken
        obtain ⟨c, hc, rfl⟩ := List.mem_map.mp taken
        exact Bool.false_ne_true (unused.symm.trans (used c hc))
      have held' : ⟨n, op⟩ ∈ hand.operators := Hand.map_operator_mem_cards.mp held
      refine ⟨on_hand, ⟨values, hvalues⟩, cards ++ [⟨n, op⟩], ?_, ?_, ?_, ?_⟩
      · simpa [or_imp, forall_and, held'] using on_cards
      · rw [List.map_append, List.map_singleton, ← List.concat_eq_append]
        exact once.concat fresh
      · simp only [List.mem_append, List.mem_singleton, isUsed, CardSet.has_insert]
        rintro c (hc | rfl)
        · simpa using .inr (used c hc)
        · simp
      · simp [Formula.addConnective, times, faces]
  | multiply =>
    refine ⟨on_hand, ⟨values, hvalues⟩, cards, on_cards, once, fun c hc => ?_, ?_⟩
    · simpa [isUsed] using .inr (used c hc)
    · simpa [Formula.addConnective] using faces
  | squareRoot => exact ⟨on_hand, ⟨values, hvalues⟩, cards, on_cards, once, used, faces⟩

/-- After every run of moves, on whatever hand, the expression is made of cards. -/
theorem sourced_run (hand : Hand) (b : Builder) (moves : List Move) :
    Sourced hand ((b.setHand (some hand)).run moves) := by
  refine run_keeps (sourced_setHand hand b) (fun _ h => h.reset) ?_ moves
  rintro b card b' h ⟨on_hand, held, unused, accepts⟩
  obtain rfl := Option.some.inj (h.on_hand.symm.trans on_hand)
  exact h.accept held unused accepts

/-- A submission that breaks no rule is a legal arrangement. -/
theorem Sourced.legal (h : Sourced hand b) (kept : b.expression.breach? hand = none) :
    Search.Legal hand b.expression := by
  obtain ⟨-, -, rounded, roots, multiplies, enabled⟩ := Expression.breach?_eq_none_iff.mp kept
  refine ⟨?_, roots, multiplies, ?_⟩
  · obtain ⟨values, hvalues⟩ := h.numbers
    have whole : b.expression.roundedValues = values.map fun v => (v.val : Int) := by
      simp [Expression.roundedValues, hvalues, List.filterMap_map,
        CardValue.roundHalfEven?_toFloat]
    have injective : Function.Injective fun v : CardValue => (v.val : Int) :=
      fun v w same => Fin.ext (Int.ofNat.inj same)
    rw [whole] at rounded
    rw [hvalues]
    exact ((List.map_perm_map_iff injective).mp rounded).map _
  · obtain ⟨cards, held, once, -, faces⟩ := h.operators
    have sub : (cards.map (·.face)).Subperm hand.operatorValues :=
      subperm_map _ (List.subperm_of_subset once.of_map held)
    rw [faces] at sub
    have all_enabled : (b.expression.connectives.filter (· != .multiply)).filter hand.isEnabled =
        b.expression.connectives.filter (· != .multiply) := by
      refine List.filter_eq_self.mpr fun op hop => ?_
      obtain ⟨mem, other⟩ := List.mem_filter.mp hop
      exact enabled op mem (by simpa using other)
    rw [← all_enabled]
    exact sub.filter _

end NumberDuel.Builder
