import Mathlib.Algebra.BigOperators.Ring.List
import Mathlib.Algebra.BigOperators.Group.Finset.Basic
import Mathlib.Data.Nat.Choose.Basic
import Mathlib.Data.Nat.Factorial.BigOperators
import Mathlib.Tactic.Ring
import NumberDuel.Proofs.Search.Statistics

/-!
# How many arrangements a search visits

Each stage has a closed count: the orderings are the permutations of the numbers up to those of
equal ones, the root vectors the ways to choose the numbers under a root, and the fillings the ways
to choose the gaps of the forced `×`, with a row of distinct cards for the other gaps. The search
visits their product. Different choices give different expressions where the operator cards
differ from each other and from the forced `×`, and then none is visited twice.
-/

namespace NumberDuel.Search

open scoped Nat

variable {α β : Type}

/-! ## Orderings -/

section Orderings

variable [BEq α] [LawfulBEq α] {stock : List (α × Nat)} {x : α} {n : Nat}

theorem takeOne_of_notMem (h : x ∉ stock.map Prod.fst) : takeOne stock x = stock := by
  refine (List.map_congr_left fun (y, n) held => ?_).trans (List.map_id stock)
  have other : y ≠ x := fun eq => h (List.mem_map.mpr ⟨(y, n), held, eq⟩)
  simp [other]

/-- Taking one copy of an element changes its entry only. -/
theorem exists_takeOne_eq (keys : (stock.map Prod.fst).Nodup) (held : (x, n + 1) ∈ stock) :
    ∃ front back, stock = front ++ (x, n + 1) :: back ∧
      takeOne stock x = front ++ (x, n) :: back := by
  obtain ⟨front, back, rfl⟩ := List.append_of_mem held
  refine ⟨front, back, rfl, ?_⟩
  simp only [List.map_append, List.map_cons, List.nodup_append, List.nodup_cons] at keys
  obtain ⟨-, ⟨behind, -⟩, apart⟩ := keys
  have before : x ∉ front.map Prod.fst := fun h => apart x h x List.mem_cons_self rfl
  have split : takeOne (front ++ (x, n + 1) :: back) x =
      takeOne front x ++ (x, n) :: takeOne back x := by
    simp [takeOne]
  rw [split, takeOne_of_notMem before, takeOne_of_notMem behind]

theorem sum_takeOne (keys : (stock.map Prod.fst).Nodup) (held : (x, n + 1) ∈ stock) :
    ((takeOne stock x).map Prod.snd).sum + 1 = (stock.map Prod.snd).sum := by
  obtain ⟨front, back, split, taken⟩ := exists_takeOne_eq keys held
  rw [taken, split]
  simp only [List.map_append, List.map_cons, List.sum_append, List.sum_cons]
  omega

theorem prod_factorial_takeOne (keys : (stock.map Prod.fst).Nodup) (held : (x, n + 1) ∈ stock) :
    (stock.map fun entry => entry.2 !).prod =
      (n + 1) * ((takeOne stock x).map fun entry => entry.2 !).prod := by
  obtain ⟨front, back, split, taken⟩ := exists_takeOne_eq keys held
  rw [taken, split]
  simp only [List.map_append, List.map_cons, List.prod_append, List.prod_cons,
    Nat.factorial_succ]
  ring

/-- A stock that is used up has as many orderings as its copies have permutations, up to those
among equal copies. -/
theorem length_orderings_mul {slots : Nat} (keys : (stock.map Prod.fst).Nodup)
    (used : (stock.map Prod.snd).sum = slots) :
    (orderings slots stock).length * (stock.map fun entry => entry.2 !).prod = slots ! := by
  induction slots generalizing stock with
  | zero =>
    have empty : ∀ entry ∈ stock, entry.2 ! = 1 := fun entry held => by
      rw [List.sum_eq_zero_iff.mp used _ (List.mem_map_of_mem held), Nat.factorial_zero]
    simp [orderings, List.map_congr_left empty]
  | succ slots ih =>
    -- the orderings that begin with `x` are those of the rest, and count once for each copy of `x`
    have first : ∀ entry ∈ stock,
        (if entry.2 = 0 then []
          else (orderings slots (takeOne stock entry.1)).map (entry.1 :: ·)).length *
          (stock.map fun entry => entry.2 !).prod = entry.2 * slots ! := by
      rintro ⟨x, _ | n⟩ held
      · simp
      have left := sum_takeOne keys held
      have rest := @ih (takeOne stock x) (by simpa using keys) (by omega)
      rw [if_neg n.succ_ne_zero, List.length_map, prod_factorial_takeOne keys held, ← rest]
      ring
    rw [orderings, List.length_flatMap, ← List.sum_map_mul_right, List.map_congr_left first,
      List.sum_map_mul_right, used, Nat.factorial_succ]

end Orderings

/-- The orderings of a row are its permutations up to those of equal elements. -/
theorem length_orderings_tally [DecidableEq α] [Fintype α] (xs : List α) :
    (orderings xs.length (tally xs)).length * ∏ x, (xs.count x)! = xs.length ! := by
  have distinct : xs.eraseDups.Nodup := by simpa using nodup_keys_tally xs
  have values : xs.eraseDups.toFinset = xs.toFinset := by ext x; simp
  have used : ((tally xs).map Prod.snd).sum = xs.length := by
    rw [← List.sum_toFinset_count_eq_length, ← values, List.sum_toFinset _ distinct]
    simp [tally, Function.comp_def]
  have equal : ((tally xs).map fun entry => entry.2 !).prod = ∏ x, (xs.count x)! := by
    have absent : ∀ x ∉ xs.toFinset, (xs.count x)! = 1 := fun x h => by
      rw [List.count_eq_zero.mpr (by simpa using h), Nat.factorial_zero]
    rw [← Finset.prod_subset (Finset.subset_univ xs.toFinset) fun x _ h => absent x h, ← values,
      List.prod_toFinset _ distinct]
    simp [tally, Function.comp_def]
  rw [← equal, length_orderings_mul (nodup_keys_tally xs) used]

/-! ## Roots and gaps -/

theorem length_rootVectors (places roots : Nat) :
    (rootVectors places roots).length = places.choose roots := by
  fun_induction rootVectors places roots with
  | case1 => rfl
  | case2 => rfl
  | case3 places ih => simp [ih]
  | case4 places roots ih₁ ih₂ => simp [ih₁, ih₂, Nat.choose_succ_succ']

theorem length_picks (pool : List α) : (picks pool).length = pool.length := by
  rw [← List.length_map Prod.fst, map_fst_picks]

/-- If every pick yields equally many, they yield as many times the number of cards. -/
theorem length_flatMap_picks {pool : List α} {f : α × List α → List β} {n : Nat}
    (each : ∀ card rest, (card, rest) ∈ picks pool → (f (card, rest)).length = n) :
    ((picks pool).flatMap f).length = pool.length * n := by
  rw [List.length_flatMap, List.map_congr_left fun pick picked => each pick.1 pick.2 picked,
    List.map_const', List.sum_replicate, length_picks, smul_eq_mul]

theorem mul_descFactorial_pred (n k : Nat) :
    n * (n - 1).descFactorial k = n.descFactorial (k + 1) := by
  cases n with
  | zero => rw [Nat.zero_descFactorial_succ, Nat.zero_mul]
  | succ n => rw [Nat.succ_descFactorial_succ, Nat.add_sub_cancel]

/-- A filling chooses the gaps of the forced `×`, and a row of distinct cards for the others. -/
theorem length_fillings (gaps forced : Nat) (pool : List α) :
    (fillings gaps forced pool).length =
      gaps.choose forced * pool.length.descFactorial (gaps - forced) := by
  induction gaps generalizing forced pool with
  | zero => cases forced <;> simp [fillings]
  | succ gaps ih =>
    have each (forced : Nat) (card : α) (rest : List α) (picked : (card, rest) ∈ picks pool) :
        ((fillings gaps forced rest).map (some card :: ·)).length =
          gaps.choose forced * (pool.length - 1).descFactorial (gaps - forced) := by
      rw [List.length_map, ih, (perm_of_mem_picks picked).length_eq, List.length_cons,
        Nat.add_sub_cancel]
    cases forced with
    | zero =>
      rw [fillings, length_flatMap_picks (each 0), Nat.mul_left_comm, mul_descFactorial_pred]
      simp
    | succ forced =>
      rw [fillings, List.length_append, List.length_map, ih,
        length_flatMap_picks (each (forced + 1)), Nat.mul_left_comm, mul_descFactorial_pred,
        Nat.choose_succ_succ', Nat.add_sub_add_right, Nat.add_mul]
      rcases Nat.lt_or_ge gaps (forced + 1) with few | room
      · simp [Nat.choose_eq_zero_of_lt few]
      · rw [show gaps - (forced + 1) + 1 = gaps - forced by omega]

/-! ## Choices -/

namespace Space

theorem length_choices (s : Space) :
    s.choices.length =
      (orderings s.numbers.length (tally s.numbers)).length *
        (s.numbers.length.choose s.roots *
          (s.gaps.choose s.multiplies * s.pool.length.descFactorial (s.gaps - s.multiplies))) := by
  have each (ordering : List CardValue) : (s.choicesWith ordering).length =
      s.numbers.length.choose s.roots *
        (s.gaps.choose s.multiplies * s.pool.length.descFactorial (s.gaps - s.multiplies)) := by
    simp only [choicesWith, List.length_flatMap, List.length_map, List.map_const',
      List.sum_replicate, smul_eq_mul, length_rootVectors, length_fillings, List.length_finRange]
  simp only [choices, List.length_flatMap, each, List.map_const', List.sum_replicate, smul_eq_mul]

theorem nodup_choices (s : Space) : s.choices.Nodup :=
  s.pairwise_choices.imp fun before eq => by subst eq; exact before.asymm before

theorem nodup_considered (s : Space) : s.considered.Nodup := by
  unfold considered
  split
  · exact s.nodup_choices
  · exact .nil

end Space

theorem toFloat_injective : Function.Injective CardValue.toFloat := by
  intro v w
  revert v w
  decide +kernel

/-- Where the operator cards differ from each other and from `×`, the connective of a gap tells
its card, or that the `×` is forced. -/
theorem connective_injective {pool : List Operator} (distinct : pool.Nodup)
    (plain : .multiply ∉ pool) :
    Function.Injective fun card : Option (Fin pool.length) =>
      (card.map pool.get).getD .multiply := by
  have get := List.nodup_iff_injective_get.mp distinct
  have other (i : Fin pool.length) : pool.get i ≠ .multiply :=
    fun eq => plain (eq ▸ List.get_mem pool i)
  rintro (_ | i) (_ | j) same
  · rfl
  · exact absurd same.symm (other j)
  · exact absurd same (other i)
  · exact congrArg some (get same)

/-- So an expression tells its choice. -/
theorem Choice.Legal.eq_of_expression_eq {s : Space} (distinct : s.pool.Nodup)
    (plain : .multiply ∉ s.pool) {a b : Choice s} (ha : a.Legal) (hb : b.Legal)
    (same : a.expression = b.expression) : a = b := by
  have flags {c : Choice s} (h : c.Legal) :
      c.roots.length = (c.ordering.map CardValue.toFloat).length := by
    rw [h.places, List.length_map, h.ordering.length_eq]
  have ordering : a.ordering = b.ordering := by
    have := congrArg Formula.values same
    rw [expression, expression, Expression.values_ofParts (flags ha),
      Expression.values_ofParts (flags hb)] at this
    exact List.map_injective_iff.mpr toFloat_injective this
  have roots : a.roots = b.roots := by
    have := congrArg Formula.rootFlags same
    rwa [expression, expression, Expression.rootFlags_ofParts (flags ha),
      Expression.rootFlags_ofParts (flags hb)] at this
  have filling : a.filling = b.filling := by
    have := congrArg Formula.connectives same
    rw [ha.connectives_expression, hb.connectives_expression] at this
    exact List.map_injective_iff.mpr (connective_injective distinct plain) this
  cases a
  cases b
  simp_all

theorem nodup_arrangements {s : Space} (distinct : s.pool.Nodup) (plain : .multiply ∉ s.pool) :
    s.arrangements.Nodup := by
  rw [← Space.map_expression_considered]
  refine s.nodup_considered.map_on fun a ha b hb same => ?_
  exact Choice.Legal.eq_of_expression_eq distinct plain (Space.legal_of_mem_considered ha)
    (Space.legal_of_mem_considered hb) same

/-! ## The size of a search -/

section

variable (referee : Referee) (hand : Hand) (aim : Float)

theorem orderings_explore_mul (feasible : (Space.ofHand hand).infeasible? = none) :
    (explore referee hand aim).stats.orderings * ∏ v, (hand.numberValues.count v)! =
      hand.numbers.length ! := by
  rw [orderings_explore, if_pos feasible, length_orderings_tally, Hand.numberValues,
    List.length_map]

theorem candidates_explore_eq (feasible : (Space.ofHand hand).infeasible? = none) :
    (explore referee hand aim).stats.candidates =
      (explore referee hand aim).stats.orderings *
        (hand.numbers.length.choose hand.rootCount *
          ((hand.numbers.length - 1).choose hand.multiplyCount *
            hand.operatorPool.length.descFactorial
              (hand.numbers.length - 1 - hand.multiplyCount))) := by
  have numbers : hand.numberValues.length = hand.numbers.length := List.length_map _
  rw [orderings_explore, if_pos feasible, stats_explore, ← numbers]
  dsimp only
  rw [← Space.map_expression_considered, List.length_map, Space.considered, if_pos feasible,
    Space.length_choices]
  rfl

theorem stats_explore_of_infeasible (infeasible : (Space.ofHand hand).infeasible? ≠ none) :
    (explore referee hand aim).stats = {} := by
  obtain ⟨reason, infeasible⟩ := Option.ne_none_iff_exists'.mp infeasible
  simp only [explore, Space.walk, infeasible]

end

theorem exists_explore_of_search {referee : Referee} {hand : Hand} {target : Int}
    {outcome : Outcome} (found : search referee hand target = .ok outcome) :
    ∃ aim, explore referee hand aim = outcome := by
  unfold search at found
  split at found
  · next aim _ => exact ⟨aim, Except.ok.inj found⟩
  · dsimp only at found
    split at found
    · cases found
    · exact ⟨0, Except.ok.inj found⟩

/-- A search that does not turn a hand down at once visits the permutations of its numbers up to
those of equal ones, and with each of them every choice of the roots, every choice of the gaps of
the forced `×`, and every row of distinct cards for the other gaps. Where the enabled operator
cards differ from each other and none has a `×`, it considers no expression twice. -/
theorem search_size (referee : Referee) (hand : Hand) (target : Int) :
    let n := hand.numbers.length
    let rest := n - 1 - hand.multiplyCount
    let feasible := 1 ≤ n ∧ hand.multiplyCount ≤ n - 1 ∧ rest ≤ hand.operatorPool.length
    (∀ outcome, search referee hand target = .ok outcome →
      ∃ aim asked, traced referee hand aim = (outcome, asked) ∧
        asked.length = outcome.stats.candidates ∧
        (feasible →
          outcome.stats.orderings * ∏ v, (hand.numberValues.count v)! = n ! ∧
          outcome.stats.candidates = outcome.stats.orderings * (n.choose hand.rootCount *
            ((n - 1).choose hand.multiplyCount * hand.operatorPool.length.descFactorial rest))) ∧
        (¬ feasible → outcome.stats.orderings = 0 ∧ outcome.stats.candidates = 0) ∧
        (hand.operatorPool.Nodup → .multiply ∉ hand.operatorPool → asked.Nodup)) ∧
    (doubleOfInt? target ≠ none → ∃ outcome, search referee hand target = .ok outcome) := by
  intro n rest feasible
  have walked : (Space.ofHand hand).infeasible? = none ↔ feasible := by
    rw [Space.infeasible?_eq_none]
    simp only [Space.ofHand, Space.gaps, Hand.numberValues, List.length_map, ne_eq,
      List.map_eq_nil_iff, ← List.length_pos_iff]
    exact Iff.rfl
  refine ⟨fun outcome found => ?_, fun converts => ?_⟩
  · obtain ⟨aim, rfl⟩ := exists_explore_of_search found
    refine ⟨aim, (Space.ofHand hand).arrangements, Prod.ext (traced_fst ..) (traced_snd ..), ?_,
      fun h => ?_, fun h => ?_, nodup_arrangements (s := Space.ofHand hand)⟩
    · rw [stats_explore]
    · exact ⟨orderings_explore_mul referee hand aim (walked.mpr h),
        candidates_explore_eq referee hand aim (walked.mpr h)⟩
    · rw [stats_explore_of_infeasible referee hand aim (mt walked.mp h)]
      exact ⟨rfl, rfl⟩
  · obtain ⟨aim, some⟩ := Option.ne_none_iff_exists'.mp converts
    exact ⟨_, search_eq_explore referee hand some⟩

/-- Two threes and a five have three orderings; with one root to place, and two cards for the two
gaps, these are eighteen arrangements. -/
theorem search_size_three_three_five :
    let hand : Hand :=
      { numbers := [⟨0, 3⟩, ⟨1, 3⟩, ⟨2, 5⟩]
        operators := [⟨3, .add⟩, ⟨4, .subtract⟩]
        specials := [⟨5, .squareRoot⟩] }
    hand.operatorPool.Nodup ∧ .multiply ∉ hand.operatorPool ∧ doubleOfInt? 11 ≠ none ∧
      ∃ outcome aim asked, search .standard hand 11 = .ok outcome ∧
        traced .standard hand aim = (outcome, asked) ∧ outcome.stats.orderings = 3 ∧
        outcome.stats.candidates = 18 ∧ asked.length = 18 ∧ asked.Nodup := by
  intro hand
  have distinct : hand.operatorPool.Nodup := by decide
  have plain : .multiply ∉ hand.operatorPool := by decide
  have converts : doubleOfInt? 11 ≠ none := by decide +kernel
  obtain ⟨sized, returns⟩ := search_size .standard hand 11
  obtain ⟨outcome, found⟩ := returns converts
  obtain ⟨aim, asked, trace, length, counts, -, once⟩ := sized outcome found
  obtain ⟨orderings, candidates⟩ := counts (by decide)
  have equal : ∏ v, (hand.numberValues.count v)! = 2 := by decide +kernel
  have three : outcome.stats.orderings = 3 := by
    rw [equal] at orderings
    change outcome.stats.orderings * 2 = 6 at orderings
    omega
  have eighteen : outcome.stats.candidates = 18 := by
    rw [candidates, three]
    decide +kernel
  exact ⟨distinct, plain, converts, outcome, aim, asked, found, trace, three, eighteen,
    length.trans eighteen, once distinct plain⟩

end NumberDuel.Search
