import NumberDuel.Proofs.Evaluation.Failure
import NumberDuel.Proofs.Search.Optimality

/-!
# What the search counts

Every arrangement is a candidate, and a referee refuses it, fails to evaluate it, or accepts it:
`Referee.ruling`. The counters of a search are the numbers of arrangements by their ruling. Under
the rules of the game the ruling can be read off the choice behind an arrangement: it is refused
if and only if it has a `×` from an operator card, and of the others those fail that divide by a
zero. The evaluator itself is never at fault.
-/

namespace NumberDuel.Search

/-! ## The counters -/

inductive Ruling where
  | refused
  | failed
  | faulty
  | accepted
  deriving DecidableEq

def Referee.ruling (referee : Referee) (hand : Hand) (e : Expression) : Ruling :=
  if (referee.validate e hand).valid then
    match referee.evaluate e with
    | .ok _ => .accepted
    | .error (.fault _) => .faulty
    | .error _ => .failed
  else .refused

section

variable (referee : Referee) (hand : Hand) (aim : Float)

/-- An arrangement counts as a candidate, and once more by its ruling unless it is accepted. -/
theorem stats_consider (e : Expression) (o : Outcome) :
    (consider referee hand aim e o).stats =
      { orderings := o.stats.orderings
        candidates := o.stats.candidates + 1
        invalid := o.stats.invalid + if referee.ruling hand e = .refused then 1 else 0
        failed := o.stats.failed + if referee.ruling hand e = .failed then 1 else 0
        faults := o.stats.faults + if referee.ruling hand e = .faulty then 1 else 0 } := by
  unfold consider Referee.ruling
  dsimp only
  cases (referee.validate e hand).valid with
  | false => rfl
  | true =>
    cases referee.evaluate e with
    | ok value => rfl
    | error failure => cases failure <;> rfl

theorem orderings_explore :
    (explore referee hand aim).stats.orderings =
      if (Space.ofHand hand).infeasible? = none then
        (orderings hand.numberValues.length (tally hand.numberValues)).length
      else 0 := by
  have counted (o : Outcome) : (countOrdering o).stats.orderings = o.stats.orderings + 1 := rfl
  have ignored (e : Expression) (o : Outcome) :
      (consider referee hand aim e o).stats.orderings = o.stats.orderings := by
    rw [stats_consider]
  have walked := (Space.ofHand hand).map_walk (fun o : Outcome => o.stats.orderings)
    (· + 1) (fun _ n => n) counted ignored
  rw [explore, walked]
  split
  · next feasible =>
    rw [Space.walk_eq_foldl feasible]
    simp [Space.ofHand]
  · next infeasible =>
    obtain ⟨reason, infeasible⟩ := Option.ne_none_iff_exists'.mp infeasible
    simp only [Space.walk, infeasible]

/-- A counter that goes up by one for an arrangement of one kind, and never else, is the number of
arrangements of that kind. -/
theorem counter_explore (counter : Outcome → Nat) (kind : Expression → Bool)
    (ordering : ∀ o, counter (countOrdering o) = counter o)
    (step : ∀ e o, counter (consider referee hand aim e o) =
      counter o + if kind e = true then 1 else 0)
    (start : ∀ prioritizes, counter { prioritizes := prioritizes } = 0) :
    counter (explore referee hand aim) = (Space.ofHand hand).arrangements.countP kind := by
  have count (es : List Expression) (n : Nat) :
      es.foldl (fun n e => n + if kind e = true then 1 else 0) n = n + es.countP kind := by
    induction es generalizing n with
    | nil => rfl
    | cons e es ih => rw [List.foldl_cons, ih, List.countP_cons]; omega
  rw [explore, (Space.ofHand hand).proj_walk counter countOrdering (consider referee hand aim)
    (fun n e => n + if kind e = true then 1 else 0) ordering step, count, start, Nat.zero_add]

/-- The counters of a search are the numbers of arrangements by their ruling. -/
theorem stats_explore :
    let es := (Space.ofHand hand).arrangements
    (explore referee hand aim).stats =
      { orderings :=
          if (Space.ofHand hand).infeasible? = none then
            (orderings hand.numberValues.length (tally hand.numberValues)).length
          else 0
        candidates := es.length
        invalid := es.countP (referee.ruling hand · = .refused)
        failed := es.countP (referee.ruling hand · = .failed)
        faults := es.countP (referee.ruling hand · = .faulty) } := by
  intro es
  have candidates := counter_explore referee hand aim (fun o => o.stats.candidates)
    (fun _ => true) (fun _ => rfl) (fun e o => by simp [stats_consider]) (fun _ => rfl)
  have invalid := counter_explore referee hand aim (fun o => o.stats.invalid)
    (referee.ruling hand · = .refused) (fun _ => rfl) (fun e o => by simp [stats_consider])
    (fun _ => rfl)
  have failed := counter_explore referee hand aim (fun o => o.stats.failed)
    (referee.ruling hand · = .failed) (fun _ => rfl) (fun e o => by simp [stats_consider])
    (fun _ => rfl)
  have faults := counter_explore referee hand aim (fun o => o.stats.faults)
    (referee.ruling hand · = .faulty) (fun _ => rfl) (fun e o => by simp [stats_consider])
    (fun _ => rfl)
  rw [List.countP_true] at candidates
  rw [← orderings_explore referee hand aim, ← candidates, ← invalid, ← failed, ← faults]

end

/-! ## The choices behind the candidates -/

/-- A filling makes the forced `×` and those on its cards. -/
theorem count_multiply_fill (filling : List (Option Operator)) :
    (fill filling).count .multiply =
      filling.countP Option.isNone + filling.reduceOption.count .multiply := by
  induction filling with
  | nil => rfl
  | cons card filling ih =>
    cases card with
    | none => simp [ih]; omega
    | some op => simp [ih, List.count_cons]; omega

section

variable {s : Space} {c : Choice s}

/-- Some gap has a `×` from an operator card. -/
def Choice.playsMultiply (c : Choice s) : Bool :=
  c.filling.reduceOption.any fun card => s.pool.get card == .multiply

theorem Choice.playsMultiply_eq_false_iff :
    c.playsMultiply = false ↔ (c.filling.reduceOption.map s.pool.get).count .multiply = 0 := by
  simp [playsMultiply, List.count_eq_zero]

/-- A choice has no other cards than those of the pool. -/
theorem Choice.playsMultiply_of_plain (plain : .multiply ∉ s.pool) (c : Choice s) :
    c.playsMultiply = false := by
  rw [playsMultiply_eq_false_iff, List.count_eq_zero]
  intro mem
  obtain ⟨card, -, face⟩ := List.mem_map.mp mem
  exact plain (face ▸ List.get_mem _ card)

theorem Choice.Legal.connectives_expression (legal : c.Legal) :
    c.expression.connectives = c.operators := by
  refine Expression.connectives_ofParts ?_
  rw [operators, List.length_map, List.length_map, legal.gaps, legal.ordering.length_eq]
  exact Nat.sub_le _ 1

theorem Choice.Legal.count_multiply (legal : c.Legal) :
    c.expression.count .multiply =
      s.multiplies + (c.filling.reduceOption.map s.pool.get).count .multiply := by
  have forced : (c.filling.map (Option.map s.pool.get)).countP Option.isNone = s.multiplies := by
    rw [List.countP_map, ← legal.multiplies]
    exact List.countP_congr fun card _ => by simp
  rw [Formula.count, legal.connectives_expression, operators, ← Space.fill_map_get,
    count_multiply_fill, forced, List.reduceOption_map]

/-- The choices that the search goes through: all of them, if the space is walked at all. -/
def Space.considered (s : Space) : List (Choice s) :=
  if s.infeasible? = none then s.choices else []

theorem Space.map_expression_considered (s : Space) :
    s.considered.map Choice.expression = s.arrangements := by
  rw [arrangements_eq, considered]
  split <;> rfl

theorem Space.expression_mem_arrangements (mem : c ∈ s.considered) :
    c.expression ∈ s.arrangements :=
  s.map_expression_considered ▸ List.mem_map_of_mem mem

theorem Space.legal_of_mem_considered (mem : c ∈ s.considered) : c.Legal := by
  unfold considered at mem
  split at mem
  · exact mem_choices.mp mem
  · cases mem

end

/-! ## The rulings under the rules -/

/-- What the rules say of a choice: it is refused for a `×` from an operator card, fails for a
division by zero, and is accepted otherwise. -/
def Choice.ruling {s : Space} (c : Choice s) : Ruling :=
  if c.playsMultiply then .refused
  else if c.expression.dividesByZero then .failed
  else .accepted

theorem Choice.ruling_eq_refused_iff {s : Space} {c : Choice s} :
    c.ruling = .refused ↔ c.playsMultiply = true := by
  unfold ruling
  split_ifs <;> simp_all

theorem Choice.ruling_eq_failed_iff {s : Space} {c : Choice s} :
    c.ruling = .failed ↔ c.playsMultiply = false ∧ c.expression.dividesByZero = true := by
  unfold ruling
  split_ifs <;> simp_all

theorem Choice.ruling_ne_faulty {s : Space} (c : Choice s) : c.ruling ≠ .faulty := by
  unfold ruling
  split_ifs <;> simp

section

variable {hand : Hand} {c : Choice (Space.ofHand hand)}

theorem valid_expression (mem : c ∈ (Space.ofHand hand).considered) :
    (c.expression.validate hand).valid = !c.playsMultiply := by
  have count : c.expression.count .multiply = hand.multiplyCount + _ :=
    (Space.legal_of_mem_considered mem).count_multiply
  rw [Bool.eq_iff_iff, Expression.validate_valid,
    breach?_eq_none_iff_count (Space.expression_mem_arrangements mem), count, Bool.not_eq_true',
    Choice.playsMultiply_eq_false_iff]
  omega

theorem ruling_standard (mem : c ∈ (Space.ofHand hand).considered) :
    Referee.standard.ruling hand c.expression = c.ruling := by
  obtain ⟨complete, values, -⟩ :=
    Space.mem_arrangements.mp (Space.expression_mem_arrangements mem)
  have divides := Expression.exists_evaluate_iff_of_cards complete fun t ht =>
    exists_card_of_perm values ht
  simp only [Referee.ruling, Referee.standard, valid_expression mem, Choice.ruling]
  cases c.playsMultiply with
  | true => rfl
  | false =>
    cases evaluated : c.expression.evaluate with
    | ok value => simp [divides.mp ⟨value, evaluated⟩]
    | error failure =>
      have zero : c.expression.dividesByZero = true := by simpa [evaluated] using divides
      have flaw := (Expression.run_error_iff Expression.failsByDivision_withPrecedence _ _).mp
        evaluated
      have harmless := Expression.isFault_of_flaw? flaw
      rw [zero]
      cases failure with
      | fault defect => cases harmless
      | _ => rfl

end

/-- The arrangements with a ruling are counted by their choices. -/
theorem countP_ruling_standard (hand : Hand) (ruling : Ruling) :
    (Space.ofHand hand).arrangements.countP (Referee.standard.ruling hand · = ruling) =
      (Space.ofHand hand).considered.countP (·.ruling = ruling) := by
  rw [← Space.map_expression_considered, List.countP_map]
  refine List.countP_congr fun c mem => ?_
  rw [Function.comp_apply, ruling_standard mem]

/-- Under the rules of the game the evaluator is never at fault, and the refused candidates are
those with a `×` from an operator card; of the others those fail that divide by zero. So where no
enabled operator card has a `×`, every candidate keeps the rules. -/
theorem search_statistics (hand : Hand) {target : Int} {aim : Float}
    (converts : doubleOfInt? target = some aim) :
    let considered := (Space.ofHand hand).considered
    ∃ outcome, search .standard hand target = .ok outcome ∧
      traced .standard hand aim = (outcome, considered.map Choice.expression) ∧
      outcome.stats.faults = 0 ∧
      outcome.stats.invalid = considered.countP Choice.playsMultiply ∧
      outcome.stats.failed =
        considered.countP (fun c => !c.playsMultiply && c.expression.dividesByZero) ∧
      (.multiply ∉ hand.operatorPool →
        outcome.stats.invalid = 0 ∧
        outcome.stats.failed = considered.countP fun c => c.expression.dividesByZero) := by
  intro considered
  have stats := stats_explore .standard hand aim
  simp only [countP_ruling_standard] at stats
  have faults : (explore .standard hand aim).stats.faults = 0 := by
    rw [stats, List.countP_eq_zero]
    exact fun c _ => by simp [c.ruling_ne_faulty]
  have invalid : (explore .standard hand aim).stats.invalid =
      considered.countP Choice.playsMultiply := by
    rw [stats]
    exact List.countP_congr fun c _ => by simp [Choice.ruling_eq_refused_iff]
  have failed : (explore .standard hand aim).stats.failed =
      considered.countP fun c => !c.playsMultiply && c.expression.dividesByZero := by
    rw [stats]
    exact List.countP_congr fun c _ => by simp [Choice.ruling_eq_failed_iff]
  have trace : traced .standard hand aim =
      (explore .standard hand aim, considered.map Choice.expression) := by
    rw [Space.map_expression_considered]
    exact Prod.ext (traced_fst ..) (traced_snd ..)
  refine ⟨explore .standard hand aim, search_eq_explore .standard hand converts, trace, faults,
    invalid, failed, fun plain => ?_⟩
  have none := Choice.playsMultiply_of_plain (s := Space.ofHand hand) plain
  constructor
  · rw [invalid, List.countP_eq_zero]
    exact fun c _ => by simp [none c]
  · rw [failed]
    exact List.countP_congr fun c _ => by simp [none c]

/-- Of 6 ÷ 0, 6 × 0, 0 ÷ 6 and 0 × 6 the first has no value, and the products are refused. -/
theorem search_statistics_six_zero :
    let hand : Hand :=
      { numbers := [⟨0, 6⟩, ⟨1, 0⟩], operators := [⟨2, .divide⟩, ⟨3, .multiply⟩] }
    doubleOfInt? 3 = some 3 ∧ ∃ outcome, search .standard hand 3 = .ok outcome ∧
      (traced .standard hand 3).2.length = 4 ∧ outcome.stats.invalid = 2 ∧
      outcome.stats.failed = 1 ∧ outcome.stats.faults = 0 := by
  intro hand
  have converts : doubleOfInt? 3 = some 3 := rfl
  obtain ⟨outcome, found, trace, faults, invalid, failed, -⟩ := search_statistics hand converts
  refine ⟨converts, outcome, found, ?_, invalid.trans ?_, failed.trans ?_, faults⟩
  · rw [congrArg Prod.snd trace]
    dsimp only
    decide +kernel
  · decide +kernel
  · decide +kernel

end NumberDuel.Search
