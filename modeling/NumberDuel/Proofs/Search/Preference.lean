import NumberDuel.Proofs.Search.Refinement
import NumberDuel.Proofs.Validation.Rules

/-!
# The preference for special cards changes nothing

The search keeps two candidates: the closest one, and the closest one that uses the special cards.
The rules let nothing pass that does not use them, so with the rules as referee both are one and
the same, however arrangements are evaluated.
-/

namespace NumberDuel.Search

/-- A hand demands something if and only if it holds a special card. -/
theorem demands_iff {hand : Hand} :
    0 < hand.rootCount ∨ 0 < hand.multiplyCount ↔ hand.specials ≠ [] := by
  simp only [Hand.rootCount, Hand.multiplyCount, Hand.countSpecial, List.countP_pos_iff]
  constructor
  · rintro (⟨card, held, -⟩ | ⟨card, held, -⟩) <;> exact List.ne_nil_of_mem held
  · intro some
    obtain ⟨card, held⟩ := List.exists_mem_of_ne_nil _ some
    cases mark : card.face with
    | squareRoot => exact .inl ⟨card, held, by simp [mark]⟩
    | multiply => exact .inr ⟨card, held, by simp [mark]⟩

/-- What breaks no rule uses the special cards. -/
theorem usesSpecials_of_kept {hand : Hand} {e : Expression} (kept : e.breach? hand = none) :
    usesSpecials e hand = true := by
  obtain ⟨-, -, -, roots, multiplies, -⟩ := Expression.breach?_eq_none_iff.mp kept
  simp [usesSpecials, roots, multiplies]

def Referee.ofEvaluator (evaluate : Expression → Except Failure Float) : Referee :=
  ⟨Expression.validate, evaluate⟩

section

variable (evaluate : Expression → Except Failure Float) (hand : Hand) (aim : Float)

theorem usesSpecials_of_accepted {es : List Expression} {c : Candidate}
    (mem : c ∈ accepted (.ofEvaluator evaluate) hand aim es) :
    usesSpecials c.expression hand = true := by
  obtain ⟨e, -, judged⟩ := List.mem_filterMap.mp mem
  unfold judge at judged
  split at judged
  · next valid =>
    split at judged
    · obtain rfl := Option.some.inj judged
      exact usesSpecials_of_kept (Expression.validate_valid.mp valid)
    · cases judged
  · cases judged

/-- Under the rules the candidate with the special cards is the closest of all, if the hand has
any, and else there is none. -/
theorem prioritized_explore_ofEvaluator :
    (explore (.ofEvaluator evaluate) hand aim).prioritized =
      if hand.specials ≠ [] then (explore (.ofEvaluator evaluate) hand aim).best else none := by
  rw [prioritized_explore, best_explore]
  split
  · next special =>
    have all (c : Candidate)
        (mem : c ∈ accepted (.ofEvaluator evaluate) hand aim (Space.ofHand hand).arrangements) :
        usesSpecials c.expression hand = true :=
      usesSpecials_of_accepted evaluate hand aim mem
    simp only [demands_iff.mpr special, decide_true, Bool.true_and, List.filter_eq_self.mpr all]
  · next plain => simp [mt demands_iff.mp plain]

theorem chosen_explore_ofEvaluator :
    (explore (.ofEvaluator evaluate) hand aim).chosen =
      (explore (.ofEvaluator evaluate) hand aim).best := by
  unfold Outcome.chosen
  split
  · next demands =>
    rw [prioritizes_explore, decide_eq_true_iff, demands_iff] at demands
    rw [prioritized_explore_ofEvaluator, if_pos demands]
    cases (explore (.ofEvaluator evaluate) hand aim).best <;> rfl
  · rfl

end

/-- With the rules as referee, and whatever evaluates, the candidate with the special cards is the
closest one of all if the hand has special cards, and is missing if it has none; so the closest
one is played. -/
theorem preference_redundant (evaluate : Expression → Except Failure Float) (hand : Hand)
    {target : Int} {aim : Float} (converts : doubleOfInt? target = some aim) :
    ∃ outcome, search ⟨Expression.validate, evaluate⟩ hand target = .ok outcome ∧
      (hand.specials ≠ [] → outcome.prioritized = outcome.best) ∧
      (hand.specials = [] → outcome.prioritized = none) ∧ outcome.chosen = outcome.best := by
  have prioritized := prioritized_explore_ofEvaluator evaluate hand aim
  refine ⟨explore (.ofEvaluator evaluate) hand aim, search_eq_explore _ hand converts, ?_, ?_,
    chosen_explore_ofEvaluator evaluate hand aim⟩
  · intro special
    rw [prioritized, if_pos special]
  · intro plain
    rw [prioritized, if_neg (not_not.mpr plain)]

/-- A `×` on an operator card makes arrangements with too many `×`, here evaluated from left to
right. -/
theorem preference_redundant_two_three_four :
    let hand : Hand :=
      { numbers := [⟨0, 2⟩, ⟨1, 3⟩, ⟨2, 4⟩]
        operators := [⟨3, .multiply⟩, ⟨4, .add⟩]
        specials := [⟨5, .multiply⟩] }
    let simple := doubles.calculus.evaluateSimple
    doubleOfInt? 20 = some 20 ∧ hand.specials ≠ [] ∧
      ∃ outcome c, search ⟨Expression.validate, simple⟩ hand 20 = .ok outcome ∧
        outcome.stats.invalid ≠ 0 ∧ outcome.best = some c ∧ outcome.prioritized = some c ∧
          outcome.chosen = some c := by
  intro hand simple
  have converts : doubleOfInt? 20 = some 20 := rfl
  obtain ⟨outcome, found, same, -, chosen⟩ := preference_redundant simple hand converts
  obtain rfl : explore ⟨Expression.validate, simple⟩ hand 20 = outcome :=
    Except.ok.inj ((search_eq_explore _ hand converts).symm.trans found)
  have special : hand.specials ≠ [] := by decide
  obtain ⟨c, best⟩ : ∃ c, (explore ⟨Expression.validate, simple⟩ hand 20).best = some c :=
    Option.isSome_iff_exists.mp (by decide +kernel)
  exact ⟨converts, special, _, c, found, by decide +kernel, best, (same special).trans best,
    chosen.trans best⟩

end NumberDuel.Search
