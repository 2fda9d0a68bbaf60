import NumberDuel.Proofs.Evaluation.Failure
import NumberDuel.Proofs.Game.Answer

/-!
# Which hands have an answer

`Hand.Feasible` is a count of cards, and the search finds an arrangement of just the hands that
pass it. What has no value is what divides by zero, so a `÷` has to stand before a number card that
is not `0`; with the zeros first and the divisions last no number is lost. A `×` among the operator
cards is of no use: the `×` of an arrangement are the forced ones.
-/

namespace NumberDuel

/-! ## The count -/

namespace Hand

variable {hand : Hand}

/-- How many gaps are left to the operator cards: those without a forced `×`. -/
def openGaps (hand : Hand) : Int := hand.numbers.length - 1 - hand.multiplyCount

def zeroCount (hand : Hand) : Nat := hand.numberValues.countP (·.val == 0)

def additiveCount (hand : Hand) : Nat := hand.operatorPool.countP (·.isAdditive)

def divideCount (hand : Hand) : Nat := hand.operatorPool.count .divide

/-- There are numbers for the roots and gaps for the forced `×`, cards for the other gaps, and
numbers other than zero behind those divisions that the `+` and `-` cards cannot replace. -/
@[mk_iff feasible_iff_counts]
structure Feasible (hand : Hand) : Prop where
  numbers : 1 ≤ hand.numbers.length
  roots : hand.rootCount ≤ hand.numbers.length
  multiplies : 0 ≤ hand.openGaps
  cards : hand.openGaps ≤ hand.additiveCount + hand.divideCount
  divisors : max 0 (hand.openGaps - hand.additiveCount) ≤ hand.numbers.length - hand.zeroCount

instance decidableFeasible (hand : Hand) : Decidable hand.Feasible :=
  decidable_of_iff' _ hand.feasible_iff_counts

end Hand

namespace Search

variable {hand : Hand} {e : Expression}

theorem Legal.exists_card (legal : Legal hand e) {t : Term Float} (ht : t ∈ e.terms) :
    ∃ v : CardValue, t.value = v.toFloat :=
  exists_card_of_perm legal.values ht

/-! ## Arrangements have to pass the count -/

/-- A legal arrangement has as many terms that vanish as the hand has zeros. -/
theorem Legal.countP_vanishes (legal : Legal hand e) :
    e.terms.countP (fun t => Vanishes t.operand) = hand.zeroCount := by
  have rootless : ∀ t ∈ e.terms, Vanishes t.operand ↔ Vanishes t.value := by
    intro t ht
    obtain ⟨v, eq⟩ := legal.exists_card ht
    rw [vanishes_operand_iff eq, eq, vanishes_toFloat_iff]
  calc e.terms.countP (fun t => Vanishes t.operand)
      = e.terms.countP (fun t => Vanishes t.value) :=
        List.countP_congr fun t ht => by simpa using rootless t ht
    _ = e.values.countP (Vanishes ·) := by rw [Formula.values, List.countP_map]; rfl
    _ = (hand.numberValues.map CardValue.toFloat).countP (Vanishes ·) :=
        legal.values.countP_eq _
    _ = hand.zeroCount := by
        rw [List.countP_map, Hand.zeroCount]
        exact List.countP_congr fun v _ => by simpa using vanishes_toFloat_iff v

/-- Every `÷` needs a number of its own that does not vanish. -/
theorem count_divide_le (complete : e.connectives.length + 1 = e.terms.length)
    (divides : ∀ entry ∈ e.connectives.zip e.terms.tail,
      entry.1 = .divide → ¬ Vanishes entry.2.operand) :
    e.connectives.count .divide ≤ e.terms.countP (fun t => !decide (Vanishes t.operand)) := by
  have lengths : e.connectives.length = e.terms.tail.length := by
    rw [List.length_tail]
    omega
  calc e.connectives.count .divide
      = (e.connectives.zip e.terms.tail).countP (·.1 == .divide) := by
        rw [← List.map_fst_zip (Nat.le_of_eq lengths), List.count, List.countP_map,
          List.map_fst_zip (Nat.le_of_eq lengths)]
        rfl
    _ ≤ (e.connectives.zip e.terms.tail).countP (fun entry => !decide (Vanishes entry.2.operand)) :=
        List.countP_mono_left fun entry mem => by simpa using divides entry mem
    _ = e.terms.tail.countP (fun t => !decide (Vanishes t.operand)) := by
        rw [← List.map_snd_zip (Nat.le_of_eq lengths.symm), List.countP_map,
          List.map_snd_zip (Nat.le_of_eq lengths.symm)]
        rfl
    _ ≤ e.terms.countP (fun t => !decide (Vanishes t.operand)) := (List.tail_sublist _).countP_le

theorem Legal.length_terms (legal : Legal hand e) : e.terms.length = hand.numbers.length := by
  rw [← Formula.length_values, legal.values.length_eq, List.length_map, Hand.numberValues,
    List.length_map]

theorem length_eq_counts (ops : List Operator) :
    ops.length = ops.count .multiply + ops.countP (·.isAdditive) + ops.count .divide := by
  induction ops with
  | nil => rfl
  | cons op ops ih =>
    cases op <;> simp [Operator.isAdditive, ih] <;> omega

theorem countP_filter_ne_multiply {p : Operator → Bool} (h : p .multiply = false)
    (ops : List Operator) : (ops.filter (· != .multiply)).countP p = ops.countP p := by
  rw [List.countP_filter]
  refine List.countP_congr fun op _ => ?_
  by_cases same : op = .multiply <;> simp [same, h]

/-- A legal arrangement with a value passes the count. -/
theorem Legal.feasible (legal : Legal hand e) {value : Float}
    (evaluated : e.evaluate = .ok value) : hand.Feasible := by
  obtain ⟨complete, -, divides⟩ :=
    Expression.flaw?_eq_none_iff.mp ((Expression.exists_evaluate_iff e).mp ⟨value, evaluated⟩)
  have terms := legal.length_terms
  have gaps := length_eq_counts e.connectives
  have forced : e.connectives.count .multiply = hand.multiplyCount := legal.multiplies
  have sums : e.connectives.countP (·.isAdditive) ≤ hand.additiveCount := by
    rw [← countP_filter_ne_multiply rfl]
    exact legal.cards.countP_le _
  have quotients : e.connectives.count .divide ≤ hand.divideCount := by
    rw [List.count, ← countP_filter_ne_multiply rfl]
    exact legal.cards.countP_le _
  have roots : e.rootCount ≤ e.terms.length := List.countP_le_length
  have divisors := count_divide_le complete divides
  have split : e.terms.length = e.terms.countP (fun t => Vanishes t.operand) +
      e.terms.countP (fun t => !decide (Vanishes t.operand)) := by
    simp only [List.length_eq_countP_add_countP (fun t : Term Float => decide (Vanishes t.operand)),
      decide_not, Bool.decide_eq_true]
  rw [legal.countP_vanishes] at split
  have gaps_open : hand.openGaps = e.connectives.length - hand.multiplyCount := by
    rw [Hand.openGaps]
    omega
  rw [legal.roots] at roots
  exact ⟨by omega, by omega, by omega, by omega, by omega⟩

end Search

/-! ## Hands that pass the count have an arrangement -/

namespace Hand

def zerosFirst (hand : Hand) : List CardValue :=
  hand.numberValues.filter (·.val == 0) ++ hand.numberValues.filter (·.val != 0)

def divisions (hand : Hand) : Nat :=
  hand.numbers.length - 1 - hand.multiplyCount - hand.additiveCount

def sums (hand : Hand) : List Operator :=
  (hand.operatorPool.filter (·.isAdditive)).take (hand.numbers.length - 1 - hand.multiplyCount)

/-- First the forced `×`, then the `+` and `-` cards, and `÷` only in the gaps that are left. -/
def divisionsLast (hand : Hand) : List Operator :=
  (List.replicate hand.multiplyCount .multiply ++ hand.sums) ++
    List.replicate hand.divisions .divide

/-- An arrangement that divides by no zero if the hand has any such arrangement. -/
def cautious (hand : Hand) : Expression :=
  .ofParts (hand.zerosFirst.map CardValue.toFloat)
    (List.replicate hand.rootCount true ++
      List.replicate (hand.numbers.length - hand.rootCount) false)
    hand.divisionsLast

variable {hand : Hand}

theorem zerosFirst_perm (hand : Hand) : hand.zerosFirst.Perm hand.numberValues :=
  List.filter_append_perm (fun v : CardValue => v.val == 0) _

theorem length_zerosFirst (hand : Hand) : hand.zerosFirst.length = hand.numbers.length := by
  rw [hand.zerosFirst_perm.length_eq, numberValues, List.length_map]

/-- Behind as many numbers as there are zeros, no zero follows. -/
theorem ne_zero_of_mem_drop {i : Nat} (hi : hand.zeroCount ≤ i) {v : CardValue}
    (hv : v ∈ hand.zerosFirst.drop i) : v.val ≠ 0 := by
  have zeros : (hand.numberValues.filter (·.val == 0)).length ≤ i := by
    rwa [← List.countP_eq_length_filter]
  rw [zerosFirst, List.drop_append, List.drop_of_length_le zeros, List.nil_append] at hv
  simpa using (List.mem_filter.mp (List.mem_of_mem_drop hv)).2

theorem isAdditive_of_mem_sums {op : Operator} (h : op ∈ hand.sums) : op.isAdditive = true :=
  (List.mem_filter.mp (List.mem_of_mem_take h)).2

theorem length_sums (h : hand.Feasible) :
    hand.multiplyCount + hand.sums.length + hand.divisions + 1 = hand.numbers.length := by
  have gaps := h.multiplies
  have additives : (hand.operatorPool.filter (·.isAdditive)).length = hand.additiveCount :=
    List.countP_eq_length_filter.symm
  rw [openGaps] at gaps
  rw [sums, List.length_take, additives, divisions]
  omega

theorem length_divisionsLast (h : hand.Feasible) :
    hand.divisionsLast.length + 1 = hand.numbers.length := by
  simpa [divisionsLast, Nat.add_assoc] using length_sums h

theorem divisions_le (h : hand.Feasible) :
    hand.divisions ≤ hand.divideCount ∧ hand.zeroCount + hand.divisions ≤ hand.numbers.length := by
  obtain ⟨-, -, gaps, cards, divisors⟩ := h
  rw [openGaps] at gaps cards divisors
  rw [divisions]
  omega

theorem values_cautious (h : hand.Feasible) :
    hand.cautious.values = hand.zerosFirst.map CardValue.toFloat := by
  have := h.roots
  refine Expression.values_ofParts ?_
  simp only [List.length_append, List.length_replicate, List.length_map, length_zerosFirst]
  omega

theorem connectives_cautious (h : hand.Feasible) :
    hand.cautious.connectives = hand.divisionsLast := by
  have := length_divisionsLast h
  refine Expression.connectives_ofParts ?_
  rw [List.length_map, length_zerosFirst]
  omega

theorem rootCount_cautious (h : hand.Feasible) : hand.cautious.rootCount = hand.rootCount := by
  have := h.roots
  rw [← Formula.count_rootFlags, cautious, Expression.rootFlags_ofParts]
  · simp [List.count_replicate]
  · simp only [List.length_append, List.length_replicate, List.length_map, length_zerosFirst]
    omega

theorem count_multiply_divisionsLast (hand : Hand) :
    hand.divisionsLast.count .multiply = hand.multiplyCount := by
  have none : hand.sums.count .multiply = 0 :=
    List.count_eq_zero.mpr fun held => by cases isAdditive_of_mem_sums held
  simp [divisionsLast, List.count_replicate, none]

/-- Its operator cards are cards of the hand, no card twice. -/
theorem divisionsLast_subperm (h : hand.Feasible) :
    (hand.divisionsLast.filter (· != .multiply)).Subperm hand.operatorPool := by
  have cards : hand.sums.filter (· != .multiply) = hand.sums := by
    refine List.filter_eq_self.mpr fun op held => ?_
    have := isAdditive_of_mem_sums held
    cases op <;> first | rfl | cases this
  have kept : hand.divisionsLast.filter (· != .multiply) =
      hand.sums ++ List.replicate hand.divisions .divide := by
    simp [divisionsLast, List.filter_append, cards]
  have quotients : (List.replicate hand.divisions Operator.divide).Sublist
      (hand.operatorPool.filter (!·.isAdditive)) := by
    rw [List.replicate_sublist_iff, List.count_filter rfl]
    exact (divisions_le h).1
  rw [kept]
  exact ((List.take_sublist _ _).append quotients).subperm.trans
    (List.filter_append_perm _ _).subperm

theorem legal_cautious (h : hand.Feasible) : Search.Legal hand hand.cautious where
  values := by
    rw [values_cautious h]
    exact hand.zerosFirst_perm.map _
  roots := rootCount_cautious h
  multiplies := by
    rw [Formula.count, connectives_cautious h, count_multiply_divisionsLast]
  cards := by
    rw [connectives_cautious h]
    exact divisionsLast_subperm h

/-- In a row of pairs either the connective is one of the first, or the number one of the last. -/
theorem mem_zip_append {α β : Type} {xs ys : List α} {zs : List β} {entry : α × β}
    (h : entry ∈ (xs ++ ys).zip zs) : entry.1 ∈ xs ∨ entry.2 ∈ zs.drop xs.length := by
  induction xs generalizing zs with
  | nil => exact .inr (List.of_mem_zip h).2
  | cons x xs ih =>
    cases zs with
    | nil => simp at h
    | cons z zs =>
      rcases List.mem_cons.mp h with rfl | later
      · exact .inl List.mem_cons_self
      · exact (ih later).imp (List.mem_cons_of_mem x) id

/-- The numbers behind the divisions are the last ones, and no zero is among them. -/
theorem exists_card_of_divide (h : hand.Feasible) {entry : Operator × Term Float}
    (mem : entry ∈ hand.cautious.connectives.zip hand.cautious.terms.tail)
    (divides : entry.1 = .divide) : ∃ v : CardValue, entry.2.value = v.toFloat ∧ v.val ≠ 0 := by
  rw [connectives_cautious h, divisionsLast] at mem
  have behind : entry.2 ∈ hand.cautious.terms.drop
      (1 + (List.replicate hand.multiplyCount Operator.multiply ++ hand.sums).length) := by
    rw [← List.drop_drop, List.drop_one]
    refine (mem_zip_append mem).resolve_left fun early => ?_
    rw [divides] at early
    rcases List.mem_append.mp early with forced | sum
    · cases List.eq_of_mem_replicate forced
    · cases isAdditive_of_mem_sums sum
  have shown := List.mem_map_of_mem (f := (·.value)) behind
  rw [List.map_drop, ← Formula.values, values_cautious h, ← List.map_drop] at shown
  obtain ⟨v, held, eq⟩ := List.mem_map.mp shown
  refine ⟨v, eq.symm, ne_zero_of_mem_drop ?_ held⟩
  have := length_sums h
  have := (divisions_le h).2
  rw [List.length_append, List.length_replicate]
  omega

/-- A hand that passes the count has an arrangement with a value. -/
theorem exists_evaluate_cautious (h : hand.Feasible) :
    ∃ value, hand.cautious.evaluate = .ok value := by
  have legal := legal_cautious h
  rw [Expression.exists_evaluate_iff, Expression.flaw?_eq_none_iff]
  refine ⟨?_, fun t ht _ => ?_, fun entry mem divides => ?_⟩
  · rw [legal.length_terms, connectives_cautious h, length_divisionsLast h]
  · obtain ⟨v, eq⟩ := legal.exists_card ht
    rw [eq]
    exact not_toFloat_neg v
  · obtain ⟨v, eq, nonzero⟩ := exists_card_of_divide h mem divides
    rwa [vanishes_operand_iff eq]

theorem feasible_iff (hand : Hand) :
    hand.Feasible ↔ ∃ e value, Search.Legal hand e ∧ e.evaluate = .ok value := by
  constructor
  · intro h
    obtain ⟨value, evaluated⟩ := exists_evaluate_cautious h
    exact ⟨hand.cautious, value, legal_cautious h, evaluated⟩
  · rintro ⟨e, value, legal, evaluated⟩
    exact legal.feasible evaluated

/-! ## Cards that never help -/

/-- The hand without its idle operator cards: the `×`, and the disabled ones. -/
def withoutIdle (hand : Hand) : Hand :=
  { hand with operators := hand.operators.filter fun card =>
      hand.isEnabled card.face && card.face != .multiply }

theorem operatorPool_withoutIdle (hand : Hand) :
    hand.withoutIdle.operatorPool = hand.operatorPool.filter (· != .multiply) := by
  have enabled : hand.withoutIdle.isEnabled = hand.isEnabled := rfl
  rw [operatorPool, operatorPool, operatorValues, operatorValues, enabled, withoutIdle]
  simp only [List.filter_map, List.filter_filter]
  congr 2
  funext card
  simp only [Function.comp_apply]
  cases hand.isEnabled card.face <;> simp

theorem feasible_withoutIdle (hand : Hand) : hand.withoutIdle.Feasible ↔ hand.Feasible := by
  have additives : hand.withoutIdle.additiveCount = hand.additiveCount := by
    rw [additiveCount, operatorPool_withoutIdle, Search.countP_filter_ne_multiply rfl]
    rfl
  have quotients : hand.withoutIdle.divideCount = hand.divideCount := by
    rw [divideCount, operatorPool_withoutIdle, List.count, Search.countP_filter_ne_multiply rfl]
    rfl
  rw [feasible_iff_counts, feasible_iff_counts, additives, quotients]
  rfl

end Hand

namespace Search

theorem isSome_chosen_iff (hand : Hand) (aim : Float) :
    (explore .standard hand aim).chosen.isSome = true ↔ hand.Feasible := by
  rw [chosen_explore_standard, isSome_best_explore, Hand.feasible_iff]

/-- The search finds something for just the feasible hands, whatever the target is. So it does not
need the `×` cards nor the disabled ones: where it finds nothing without them, it finds nothing. -/
theorem isSome_search_iff_feasible (hand : Hand) {target : Int} {aim : Float}
    (converts : doubleOfInt? target = some aim) :
    ∃ outcome, search .standard hand target = .ok outcome ∧
      (outcome.chosen.isSome = true ↔ hand.Feasible) ∧
      ∀ {target' aim'}, doubleOfInt? target' = some aim' →
        ∃ outcome', search .standard hand.withoutIdle target' = .ok outcome' ∧
          outcome'.chosen.isSome = outcome.chosen.isSome := by
  refine ⟨explore .standard hand aim, search_eq_explore .standard hand converts,
    isSome_chosen_iff hand aim, fun {_ aim'} converts' => ?_⟩
  refine ⟨explore .standard hand.withoutIdle aim',
    search_eq_explore .standard hand.withoutIdle converts', ?_⟩
  rw [Bool.eq_iff_iff, isSome_chosen_iff, isSome_chosen_iff]
  exact hand.feasible_withoutIdle

/-- Two divisions, and one number to divide by: a `+` has to take the place of one of them. -/
theorem isSome_search_zero_zero_six :
    let hand : Hand :=
      { numbers := [⟨0, 0⟩, ⟨1, 0⟩, ⟨2, 6⟩]
        operators := [⟨3, .divide⟩, ⟨4, .divide⟩, ⟨5, .multiply⟩, ⟨6, .add⟩]
        specials := [⟨7, .squareRoot⟩] }
    doubleOfInt? 10 = some 10 ∧
      (∃ outcome, search .standard hand 10 = .ok outcome ∧ outcome.chosen.isSome = true) ∧
      ∃ outcome, search .standard (hand.disable .add) 10 = .ok outcome ∧
        outcome.chosen.isSome = false := by
  intro hand
  have converts : doubleOfInt? 10 = some 10 := rfl
  obtain ⟨outcome, found, some_chosen, -⟩ := isSome_search_iff_feasible hand converts
  obtain ⟨outcome', found', none_chosen, -⟩ :=
    isSome_search_iff_feasible (hand.disable .add) converts
  have infeasible : ¬ (hand.disable .add).Feasible := by decide
  refine ⟨converts, ⟨outcome, found, some_chosen.mpr (by decide)⟩, outcome', found', ?_⟩
  exact Bool.eq_false_iff.mpr (mt none_chosen.mp infeasible)

end Search

end NumberDuel
