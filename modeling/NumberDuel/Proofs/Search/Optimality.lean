import NumberDuel.Proofs.Search.Arrangement
import NumberDuel.Proofs.Search.Preference

/-!
# The search is complete and optimal

Under the rules of the game the accepted arrangements are the legal ones that have a value, so the
search misses none of them and the candidate it plays is at least as close as each.
-/

namespace NumberDuel.Search

/-- An arrangement that keeps the rules: the numbers of the hand in some order, exactly the roots
and the `×` it demands, and for each other connective an enabled operator card of its own. -/
structure Legal (hand : Hand) (e : Expression) : Prop where
  values : e.values.Perm (hand.numberValues.map CardValue.toFloat)
  roots : e.rootCount = hand.rootCount
  multiplies : e.count .multiply = hand.multiplyCount
  cards : (e.connectives.filter (· != .multiply)).Subperm hand.operatorPool

theorem isComplete_of_evaluate {e : Expression} {value : Float} (h : e.evaluate = .ok value) :
    e.isComplete = true := by
  unfold Expression.evaluate Calculus.evaluate Calculus.run at h
  grind

variable {hand : Hand} {e : Expression}

/-! ## The legal arrangements are the valid ones -/

/-- Reads a `×` as forced and every other connective as a card. -/
def unfill (connectives : List Operator) : List (Option Operator) :=
  connectives.map fun op => if op = .multiply then none else some op

theorem fill_unfill (connectives : List Operator) : fill (unfill connectives) = connectives := by
  rw [fill, unfill, List.map_map]
  refine List.map_id'' (fun op => ?_) connectives
  by_cases h : op = .multiply <;> simp [h]

theorem countP_unfill (connectives : List Operator) :
    (unfill connectives).countP Option.isNone = connectives.count .multiply := by
  rw [unfill, List.countP_map, List.count]
  refine List.countP_congr fun op _ => ?_
  by_cases h : op = .multiply <;> simp [h]

theorem reduceOption_unfill (connectives : List Operator) :
    (unfill connectives).reduceOption = connectives.filter (· != .multiply) := by
  induction connectives with
  | nil => rfl
  | cons op connectives ih =>
    rw [unfill, List.map_cons, ← unfill]
    by_cases h : op = .multiply <;> simp [h, ih]

theorem filter_fill_sublist (filling : List (Option Operator)) :
    ((fill filling).filter (· != .multiply)).Sublist filling.reduceOption := by
  induction filling with
  | nil => exact .refl _
  | cons card filling ih =>
    cases card with
    | none => simpa using ih
    | some op =>
      rw [fill_cons_some, List.reduceOption_cons_of_some]
      by_cases h : op = .multiply
      · simpa [h] using ih.cons op
      · simpa [h] using ih.cons_cons op

theorem Legal.mem_arrangements (h : Legal hand e) (complete : e.isComplete = true) :
    e ∈ (Space.ofHand hand).arrangements := by
  refine Space.mem_arrangements.mpr
    ⟨complete, h.values, h.roots, unfill e.connectives, fill_unfill _, ?_, ?_⟩
  · exact (countP_unfill _).trans h.multiplies
  · rw [reduceOption_unfill]
    exact h.cards

theorem Legal.breach?_eq_none (h : Legal hand e) (complete : e.isComplete = true) :
    e.breach? hand = none := by
  have numbers := Expression.checkNumbers_eq_none_iff.mp (Expression.checkNumbers_of_perm h.values)
  refine Expression.breach?_eq_none_iff.mpr
    ⟨complete, numbers.1, numbers.2, h.roots, h.multiplies, fun op hop hne => ?_⟩
  have held : op ∈ hand.operatorPool := h.cards.subset (List.mem_filter.mpr ⟨hop, by simpa⟩)
  exact (List.mem_filter.mp held).2

/-- An arrangement with as many `×` as demanded is legal: all that it has are the forced ones. -/
theorem legal_of_count (mem : e ∈ (Space.ofHand hand).arrangements)
    (multiplies : e.count .multiply = hand.multiplyCount) : Legal hand e := by
  obtain ⟨-, values, roots, filling, filled, -, cards⟩ := Space.mem_arrangements.mp mem
  exact ⟨values, roots, multiplies, filled ▸ (filter_fill_sublist filling).subperm.trans cards⟩

/-- The one rule that an arrangement can break is that of the `×`. -/
theorem breach?_eq_none_iff_count (mem : e ∈ (Space.ofHand hand).arrangements) :
    e.breach? hand = none ↔ e.count .multiply = hand.multiplyCount := by
  constructor
  · intro kept
    obtain ⟨-, -, -, -, multiplies, -⟩ := Expression.breach?_eq_none_iff.mp kept
    exact multiplies
  · intro multiplies
    obtain ⟨complete, -⟩ := Space.mem_arrangements.mp mem
    exact (legal_of_count mem multiplies).breach?_eq_none complete

theorem legal_of_breach?_eq_none (mem : e ∈ (Space.ofHand hand).arrangements)
    (h : e.breach? hand = none) : Legal hand e :=
  legal_of_count mem ((breach?_eq_none_iff_count mem).mp h)

/-! ## The accepted candidates -/

theorem judge_standard_eq_some {aim : Float} {c : Candidate} :
    judge .standard hand aim e = some c ↔
      e.breach? hand = none ∧ e.evaluate = .ok c.value ∧ c = ⟨e, c.value, (c.value - aim).abs⟩ := by
  simp only [judge, Referee.standard, Expression.validate_valid]
  grind

/-- The search accepts the legal arrangements that have a value. -/
theorem mem_accepted_standard {aim : Float} {c : Candidate} :
    c ∈ accepted .standard hand aim (Space.ofHand hand).arrangements ↔
      Legal hand c.expression ∧ c.expression.evaluate = .ok c.value ∧
        c.distance = (c.value - aim).abs := by
  simp only [accepted, List.mem_filterMap, judge_standard_eq_some]
  constructor
  · rintro ⟨e, mem, kept, value, eq⟩
    rw [eq]
    exact ⟨legal_of_breach?_eq_none mem kept, value, rfl⟩
  · rintro ⟨legal, value, distance⟩
    have complete := isComplete_of_evaluate value
    refine ⟨c.expression, legal.mem_arrangements complete, legal.breach?_eq_none complete,
      value, ?_⟩
    rw [← distance]

theorem chosen_explore_standard (hand : Hand) (aim : Float) :
    (explore .standard hand aim).chosen = (explore .standard hand aim).best :=
  chosen_explore_ofEvaluator Expression.evaluate hand aim

theorem isNaN_distance_of_mem_accepted {target : Int} {aim : Float}
    (converts : doubleOfInt? target = some aim)
    (defined : ∀ e value, Legal hand e → e.evaluate = .ok value → value.isNaN = false) :
    ∀ c ∈ accepted .standard hand aim (Space.ofHand hand).arrangements,
      c.distance.isNaN = false := by
  intro c hc
  obtain ⟨legal, value, distance⟩ := mem_accepted_standard.mp hc
  rw [distance]
  exact Double.isNaN_distance (defined _ _ legal value) (Double.isFinite_of_doubleOfInt? converts)

theorem exists_chosen_le {aim : Float} {c : Candidate}
    (distances : ∀ d ∈ accepted .standard hand aim (Space.ofHand hand).arrangements,
      d.distance.isNaN = false)
    (mem : c ∈ accepted .standard hand aim (Space.ofHand hand).arrangements) :
    ∃ d, (explore .standard hand aim).chosen = some d ∧ d.distance ≤ c.distance := by
  obtain ⟨-, d, -, -, held, -⟩ := foldl_closer_split distances (List.ne_nil_of_mem mem)
  refine ⟨d, by rw [chosen_explore_standard, best_explore, held], ?_⟩
  rw [foldl_closer distances] at held
  exact firstClosest_le held mem

/-- The candidate to play is at least as close as every legal arrangement that has a value, and
there is one as soon as there is such an arrangement. -/
theorem search_optimal (hand : Hand) {target : Int} {aim : Float}
    (converts : doubleOfInt? target = some aim)
    (defined : ∀ e value, Legal hand e → e.evaluate = .ok value → value.isNaN = false) :
    ∃ outcome, search .standard hand target = .ok outcome ∧
      ∀ e value, Legal hand e → e.evaluate = .ok value →
        ∃ c, outcome.chosen = some c ∧ c.distance ≤ (value - aim).abs := by
  refine ⟨explore .standard hand aim, search_eq_explore .standard hand converts, ?_⟩
  intro e value legal evaluated
  have mem : ⟨e, value, (value - aim).abs⟩ ∈
      accepted .standard hand aim (Space.ofHand hand).arrangements :=
    mem_accepted_standard.mpr ⟨legal, evaluated, rfl⟩
  obtain ⟨c, chosen, close⟩ :=
    exists_chosen_le (isNaN_distance_of_mem_accepted converts defined) mem
  exact ⟨c, chosen, close⟩

/-- The same number twice, a forced `×` and a root: the closest arrangement of 4, 4 and 9 to 20. -/
theorem search_optimal_four_four_nine :
    let hand : Hand :=
      { numbers := [⟨0, 4⟩, ⟨1, 4⟩, ⟨2, 9⟩]
        operators := [⟨3, .divide⟩, ⟨4, .add⟩]
        specials := [⟨5, .multiply⟩, ⟨6, .squareRoot⟩] }
    doubleOfInt? 20 = some 20 ∧
      (∀ e value, Legal hand e → e.evaluate = .ok value → value.isNaN = false) ∧
      ∃ outcome, search .standard hand 20 = .ok outcome ∧
        ∃ c, outcome.chosen = some c ∧ c.distance ≤ 1 := by
  intro hand
  have defined : ∀ e value, Legal hand e → e.evaluate = .ok value → value.isNaN = false := by
    intro e value legal evaluated
    have all : ∀ e ∈ (Space.ofHand hand).arrangements,
        e.evaluate.toOption.all fun value => !value.isNaN := by
      decide +kernel
    have := all e (legal.mem_arrangements (isComplete_of_evaluate evaluated))
    simpa [evaluated, Except.toOption] using this
  have converts : doubleOfInt? 20 = some 20 := rfl
  obtain ⟨outcome, found, least⟩ := search_optimal hand converts defined
  let e : Expression := .ofParts [4, 4, 9] [false, false, true] [.multiply, .add]
  have legal : Legal hand e :=
    ⟨by decide +kernel, by decide +kernel, by decide +kernel, by decide +kernel⟩
  have evaluated : e.evaluate = .ok 19 := by decide +kernel
  obtain ⟨c, chosen, distance⟩ := least e 19 legal evaluated
  have one : ((19 : Float) - 20).abs = 1 := by decide +kernel
  exact ⟨converts, defined, outcome, found, c, chosen, one ▸ distance⟩

end NumberDuel.Search
