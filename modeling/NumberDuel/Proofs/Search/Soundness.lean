import NumberDuel.Proofs.Evaluation.Growth
import NumberDuel.Proofs.Game.Judgement
import NumberDuel.Proofs.Hand.Cards
import NumberDuel.Proofs.Search.Optimality

/-!
# The search is sound

What the search plays is one of the accepted candidates: a legal expression whose parts are cards
of the hand, each used once, and which the judge values as the search does.
-/

namespace NumberDuel.Search

variable {hand : Hand} {e : Expression} {aim : Float} {c : Candidate}

theorem Legal.mem_accepted (legal : Legal hand e) {value : Float}
    (evaluated : e.evaluate = .ok value) (aim : Float) :
    ⟨e, value, (value - aim).abs⟩ ∈
      accepted .standard hand aim (Space.ofHand hand).arrangements :=
  mem_accepted_standard.mpr ⟨legal, evaluated, rfl⟩

theorem mem_of_foldl_closer {cs : List Candidate} {held : Option Candidate}
    (h : cs.foldl closer held = some c) : held = some c ∨ c ∈ cs := by
  induction cs generalizing held with
  | nil => exact .inl h
  | cons d cs ih =>
    rcases ih h with first | later
    · have : held = some c ∨ c = d := by
        unfold closer at first
        grind
      rcases this with before | rfl
      · exact .inl before
      · exact .inr List.mem_cons_self
    · exact .inr (List.mem_cons_of_mem d later)

theorem mem_accepted_of_chosen (h : (explore .standard hand aim).chosen = some c) :
    c ∈ accepted .standard hand aim (Space.ofHand hand).arrangements := by
  rw [chosen_explore_standard, best_explore] at h
  exact (mem_of_foldl_closer h).resolve_left nofun

/-- Something is chosen as soon as something is accepted, whatever its distance is worth. -/
theorem isSome_chosen_of_mem_accepted
    (mem : c ∈ accepted .standard hand aim (Space.ofHand hand).arrangements) :
    (explore .standard hand aim).chosen.isSome = true := by
  have kept (cs : List Candidate) {held : Option Candidate} (h : held.isSome = true) :
      (cs.foldl closer held).isSome = true := by
    induction cs generalizing held with
    | nil => exact h
    | cons d cs ih =>
      refine ih ?_
      unfold closer
      split
      · rfl
      · split <;> simp
  rw [chosen_explore_standard, best_explore]
  cases hcs : accepted .standard hand aim (Space.ofHand hand).arrangements with
  | nil => simp [hcs] at mem
  | cons d cs => exact kept cs rfl

/-! ## The cards of a legal expression -/

theorem Legal.exists_numbers (legal : Legal hand e) :
    ∃ numbers : List (Copy CardValue), numbers.Perm hand.numbers ∧
      e.values = numbers.map fun card => card.face.toFloat := by
  have values : e.values.Perm (hand.numbers.map fun card => card.face.toFloat) := by
    simpa [Hand.numberValues, Function.comp_def] using legal.values
  obtain ⟨numbers, eq, perm⟩ := exists_of_perm_map values
  exact ⟨numbers, perm, eq.symm⟩

theorem Legal.exists_operators (legal : Legal hand e) :
    ∃ cards : List (Copy Operator), cards.Subperm hand.operators ∧
      cards.map (·.face) = e.connectives.filter (· != .multiply) ∧
      ∀ card ∈ cards, hand.isEnabled card.face = true := by
  have cards : (e.connectives.filter (· != .multiply)).Subperm
      ((hand.operators.filter fun card => hand.isEnabled card.face).map (·.face)) := by
    have pool := legal.cards
    rwa [Hand.operatorPool, Hand.operatorValues, List.filter_map] at pool
  obtain ⟨cards, faces, held⟩ := exists_of_subperm_map cards
  refine ⟨cards, held.trans List.filter_sublist.subperm, faces, fun card hc => ?_⟩
  exact (List.mem_filter.mp (held.subset hc)).2

/-- The value of a legal arrangement is bounded by the number of its cards. -/
theorem Legal.below (legal : Legal hand e) (few : hand.numbers.length ≤ 39) {value : Float}
    (evaluated : e.evaluate = .ok value) : Double.Below (25 * hand.numbers.length) value := by
  obtain ⟨numbers, perm, values⟩ := legal.exists_numbers
  have terms : e.terms.length = hand.numbers.length := by
    rw [← Formula.length_values, values, List.length_map, perm.length_eq]
  rw [← terms] at few ⊢
  refine Expression.below_of_evaluate (fun x hx => ?_) few evaluated
  rw [values] at hx
  obtain ⟨card, -, rfl⟩ := List.mem_map.mp hx
  exact ⟨card.face, rfl⟩

/-- What the search plays keeps every rule, is made of cards of the hand, no card twice and none
disabled, and is worth to the judge what the search takes it to be worth. -/
theorem search_sound (hand : Hand) {target : Int} {aim : Float}
    (converts : doubleOfInt? target = some aim) :
    ∃ outcome, search .standard hand target = .ok outcome ∧
      ∀ c, outcome.chosen = some c →
        (c.expression.validate hand).valid = true ∧
        (∃ numbers : List (Copy CardValue), numbers.Perm hand.numbers ∧
          c.expression.values = numbers.map fun card => card.face.toFloat) ∧
        c.expression.rootCount = hand.rootCount ∧
        c.expression.count .multiply = hand.multiplyCount ∧
        (∃ cards : List (Copy Operator), cards.Subperm hand.operators ∧
          cards.map (·.face) = c.expression.connectives.filter (· != .multiply) ∧
          ∀ card ∈ cards, hand.isEnabled card.face = true) ∧
        (c.value.isNaN = false →
          NumberDuel.judge c.expression hand target =
            .ok ⟨{ success := true, value := c.value }, c.distance⟩) := by
  refine ⟨explore .standard hand aim, search_eq_explore .standard hand converts, ?_⟩
  intro c chosen
  obtain ⟨legal, evaluated, distance⟩ := mem_accepted_standard.mp (mem_accepted_of_chosen chosen)
  have kept := legal.breach?_eq_none (isComplete_of_evaluate evaluated)
  refine ⟨Expression.validate_valid.mpr kept, legal.exists_numbers, legal.roots,
    legal.multiplies, legal.exists_operators, fun defined => ?_⟩
  rw [distance]
  exact judge_of_value converts kept evaluated defined

/-- A root, a forced `×`, a `×` among the operator cards and a disabled operator. -/
theorem search_sound_nine_four_two :
    let hand : Hand :=
      { numbers := [⟨0, 9⟩, ⟨1, 4⟩, ⟨2, 2⟩]
        operators := [⟨3, .multiply⟩, ⟨4, .subtract⟩, ⟨5, .add⟩]
        specials := [⟨6, .squareRoot⟩, ⟨7, .multiply⟩]
        disabled := [.subtract] }
    doubleOfInt? 20 = some 20 ∧ ∃ outcome c, search .standard hand 20 = .ok outcome ∧
      outcome.chosen = some c ∧ (c.expression.validate hand).valid = true ∧
      NumberDuel.judge c.expression hand 20 =
        .ok ⟨{ success := true, value := c.value }, c.distance⟩ := by
  intro hand
  have converts : doubleOfInt? 20 = some 20 := rfl
  obtain ⟨outcome, found, sound⟩ := search_sound hand converts
  obtain rfl : explore .standard hand 20 = outcome :=
    Except.ok.inj ((search_eq_explore .standard hand converts).symm.trans found)
  have some_chosen : (explore .standard hand 20).chosen.any (fun c => !c.value.isNaN) = true := by
    decide +kernel
  cases chosen : (explore .standard hand 20).chosen with
  | none => simp [chosen] at some_chosen
  | some c =>
    obtain ⟨valid, -, -, -, -, judged⟩ := sound c chosen
    have defined : c.value.isNaN = false := by simpa [chosen] using some_chosen
    exact ⟨converts, _, c, found, chosen, valid, judged defined⟩

end NumberDuel.Search
