import NumberDuel.Proofs.Builder.Playable
import NumberDuel.Proofs.Search.Refinement

/-!
# What a player can complete is what the search tries

On a hand without a disabled operator the expressions that a player can complete, with every
special card used, are the arrangements the search goes through. One inclusion reads the cards of
a completed expression off its invariant; the other is that the cards of an arrangement can be
picked in turn.
-/

namespace NumberDuel.Builder

variable {hand : Hand} {log : List Card} {b : Builder} {card : Card}

/-! ## A completed expression is an arrangement -/

theorem subperm_filterMap {α β : Type} (f : α → Option β) {xs ys : List α} (h : xs.Subperm ys) :
    (xs.filterMap f).Subperm (ys.filterMap f) := by
  obtain ⟨zs, perm, sub⟩ := h
  exact ⟨zs.filterMap f, perm.filterMap f, sub.filterMap f⟩

theorem Built.subperm (h : Built hand log b) : log.Subperm hand.cards :=
  List.subperm_of_subset h.once.of_map h.held

/-- What is read off the accepted cards is read off the hand, if they are all that matter. -/
theorem Built.filterMap_perm {β : Type} (h : Built hand log b) (distinct : hand.Distinct)
    (f : Face → Option β) (all : ∀ card ∈ hand.cards, (f card.face).isSome → card ∈ log) :
    (log.filterMap (f ·.face)).Perm (hand.cards.filterMap (f ·.face)) := by
  refine (subperm_filterMap _ h.subperm).antisymm ?_
  have relevant : (hand.cards.filter fun card => (f card.face).isSome).Subperm log := by
    refine List.subperm_of_subset (distinct.of_map.filter _) fun card hc => ?_
    obtain ⟨held, some⟩ := List.mem_filter.mp hc
    exact all card held some
  have dropped : (hand.cards.filter fun card => (f card.face).isSome).filterMap (f ·.face) =
      hand.cards.filterMap (f ·.face) := by
    rw [List.filterMap_filter]
    refine List.filterMap_congr fun card _ => ?_
    cases f card.face <;> rfl
  exact dropped ▸ subperm_filterMap _ relevant

theorem Built.mem_of_used (h : Built hand log b) (distinct : hand.Distinct)
    (held : card ∈ hand.cards) (used : b.isUsed card = true) : card ∈ log := by
  have mem : card.serial ∈ b.used.serials := by simpa [isUsed, CardSet.has] using used
  obtain ⟨c, hc, same⟩ := List.mem_map.mp ((h.used _).mp mem).1
  exact distinct.eq_of_serial (h.held c hc) held same ▸ hc

theorem Built.isUsed_of_mem (h : Built hand log b) (bare : b.pendingRoot = none)
    (mem : card ∈ log) : b.isUsed card = true := by
  have used : card.serial ∈ b.used.serials :=
    (h.used _).mpr ⟨List.mem_map_of_mem mem, by simp [bare]⟩
  simpa [isUsed, CardSet.has] using used

/-- The forced `×` among the accepted cards. -/
theorem countP_gaps (log : List Card) :
    (log.filterMap (·.face.gap?)).countP Option.isNone =
      (log.filterMap (·.face.special?)).count .multiply := by
  induction log with
  | nil => rfl
  | cons card log ih =>
    obtain ⟨n, _ | _ | _ | _⟩ := card <;> simpa [Face.gap?, Face.special?] using ih

theorem reduceOption_gaps_cards (hand : Hand) :
    (hand.cards.filterMap (·.face.gap?)).reduceOption = hand.operatorValues := by
  rw [List.reduceOption, List.filterMap_filterMap]
  simp only [Hand.cards, Copy.map, List.filterMap_append, List.filterMap_map]
  have numbers : (hand.numbers.filterMap fun _ => (none : Option Operator)) = [] := by simp
  have specials : (hand.specials.filterMap fun card => (Face.special card.face).gap?.bind id) =
      [] := by
    refine List.filterMap_eq_nil_iff.mpr fun card _ => ?_
    cases card.face <;> rfl
  have operators : (hand.operators.filterMap fun card => some card.face) = hand.operatorValues := by
    simp [Hand.operatorValues]
  exact (congrArg₂ _ (congrArg₂ _ numbers operators) specials).trans (List.append_nil _)

theorem countSpecial_eq (hand : Hand) (mark : Special) :
    hand.countSpecial mark = (hand.specials.map (·.face)).count mark := by
  rw [Hand.countSpecial, List.count, List.countP_map]
  rfl

/-- The operators of the expression are those of distinct cards. -/
theorem Built.operators_subperm (h : Built hand log b) :
    (log.filterMap (·.face.gap?)).reduceOption.Subperm hand.operatorValues := by
  rw [← reduceOption_gaps_cards]
  exact subperm_filterMap _ (subperm_filterMap _ h.subperm)

theorem Built.number_mem (h : Built hand log b) (distinct : hand.Distinct)
    (placed : b.hasUnusedNumbers = false) :
    ∀ card ∈ hand.cards, (card.face.number?).isSome → card ∈ log := by
  rintro ⟨n, value | _ | _⟩ held some
  · refine h.mem_of_used distinct held ?_
    simp only [hasUnusedNumbers, h.on_hand, List.any_eq_false, Bool.not_eq_true'] at placed
    have used := placed ⟨n, value⟩ (Hand.map_number_mem_cards.mp held)
    rw [Bool.not_eq_false] at used
    exact used
  · cases some
  · cases some

theorem Built.special_mem (h : Built hand log b) (distinct : hand.Distinct)
    (done : b.specialsDone = true) :
    ∀ card ∈ hand.cards, (card.face.special?).isSome → card ∈ log := by
  rintro ⟨n, _ | _ | mark⟩ held some
  · cases some
  · cases some
  · refine h.mem_of_used distinct held ?_
    have mem : ⟨n, mark⟩ ∈ hand.specials := Hand.map_special_mem_cards.mp held
    simp only [specialsDone, h.on_hand, Bool.and_eq_true, List.all_eq_true] at done
    exact (h.consumed _ mem).symm.trans (done.2 _ mem)

/-- A finished expression is complete: no number is left, and no root waits. -/
theorem Built.complete_of_finished (h : Built hand log b) (finished : b.isFinished = true) :
    b.expression.isComplete = true ∧ b.pendingRoot = none ∧ b.hasUnusedNumbers = false := by
  simp only [isFinished, Bool.and_eq_true, Bool.not_eq_true'] at finished
  obtain ⟨⟨-, placed⟩, turn⟩ := finished
  exact ⟨h.turn.resolve_left (by simp [turn]), h.pendingRoot_eq_none turn, placed⟩

theorem Built.values_perm (h : Built hand log b) (distinct : hand.Distinct)
    (placed : b.hasUnusedNumbers = false) :
    b.expression.values.Perm (hand.numberValues.map CardValue.toFloat) := by
  have values := h.filterMap_perm distinct Face.number? (h.number_mem distinct placed)
  rw [Hand.filterMap_number_cards] at values
  rw [← h.expression_eq, values_spelled]
  exact values.map _

/-- All special cards were accepted, each once. -/
theorem Built.specials_perm (h : Built hand log b) (distinct : hand.Distinct)
    (done : b.specialsDone = true) :
    (log.filterMap (·.face.special?)).Perm (hand.specials.map (·.face)) := by
  rw [← Hand.filterMap_special_cards]
  exact h.filterMap_perm distinct Face.special? (h.special_mem distinct done)

theorem Built.rootCount_eq (h : Built hand log b) (distinct : hand.Distinct)
    (done : b.specialsDone = true) (bare : b.pendingRoot = none) :
    b.expression.rootCount = hand.rootCount := by
  have roots := h.roots
  rw [bare, Option.toList_none, List.length_nil, Nat.add_zero,
    (h.specials_perm distinct done).count_eq, ← countSpecial_eq] at roots
  exact roots

/-- A completed expression with all special cards is an arrangement of the hand. -/
theorem Built.mem_arrangements (h : Built hand log b) (distinct : hand.Distinct)
    (enabled : hand.disabled = []) (finished : b.isFinished = true)
    (done : b.specialsDone = true) : b.expression ∈ (Search.Space.ofHand hand).arrangements := by
  obtain ⟨complete, bare, placed⟩ := h.complete_of_finished finished
  refine Search.Space.mem_arrangements.mpr ⟨complete, h.values_perm distinct placed,
    h.rootCount_eq distinct done bare, log.filterMap (·.face.gap?), ?_, ?_, ?_⟩
  · rw [← h.expression_eq, connectives_spelled]
  · rw [countP_gaps, (h.specials_perm distinct done).count_eq, ← countSpecial_eq]
    rfl
  · rw [Search.Space.ofHand, operatorPool_of_enabled enabled]
    exact h.operators_subperm

/-! ## An arrangement can be completed -/

/-- With all numbers and special cards picked, an expression that is spelled to its end is
completed. -/
theorem Built.completed (h : Built hand log b) {e : Expression} (complete : e.isComplete = true)
    (spells : spelled log = (e, false)) (numbers : ∀ card ∈ hand.numbers, card.map .number ∈ log)
    (specials : ∀ card ∈ hand.specials, card.map .special ∈ log) :
    b.isFinished = true ∧ b.specialsDone = true ∧ b.expression = e := by
  have expression : b.expression = e := by rw [← h.expression_eq, spells]
  have bare : b.pendingRoot = none := by
    have waits := h.waits_eq
    rw [spells] at waits
    exact Option.isNone_iff_eq_none.mp (by simpa using waits.symm)
  have placed : b.hasUnusedNumbers = false := by
    simp only [hasUnusedNumbers, h.on_hand, List.any_eq_false]
    intro card hc
    have used : b.isUsed card = true := h.isUsed_of_mem bare (numbers card hc)
    simp [used]
  have done : ∀ card ∈ hand.specials, b.consumed.has card = true := by
    intro card hc
    rw [h.consumed card hc]
    exact h.isUsed_of_mem bare (specials card hc)
  simp only [Formula.isComplete, Bool.and_eq_true, Bool.not_eq_true', beq_iff_eq] at complete
  obtain ⟨some_term, lengths⟩ := complete
  refine ⟨?_, ?_, expression⟩
  · simp only [isFinished, Formula.isEmpty, Formula.expectsNumber, expression, placed, some_term]
    simp only [Bool.not_false, Bool.true_and, Bool.not_eq_true', beq_eq_false_iff_ne]
    omega
  · simp only [specialsDone, h.on_hand, Formula.isEmpty, expression, some_term, Bool.not_false,
      Bool.true_and, List.all_eq_true]
    exact done

/-- On a hand without a disabled operator, what a player can complete with every special card used
is exactly what the search asks the referee about; nothing, if the hand is infeasible. -/
theorem completed_iff_asked (referee : Search.Referee) (hand : Hand) (distinct : hand.Distinct)
    (enabled : hand.disabled = []) {target : Int} {aim : Float}
    (converts : doubleOfInt? target = some aim) :
    ∃ outcome asked, Search.search referee hand target = .ok outcome ∧
      Search.traced referee hand aim = (outcome, asked) ∧
      (∀ (b : Builder) (e : Expression),
        (∃ moves, ((b.setHand (some hand)).run moves).isFinished = true ∧
          ((b.setHand (some hand)).run moves).specialsDone = true ∧
          ((b.setHand (some hand)).run moves).expression = e) ↔ e ∈ asked) ∧
      ((Search.Space.ofHand hand).infeasible?.isSome = true → asked = []) := by
  refine ⟨Search.explore referee hand aim, (Search.Space.ofHand hand).arrangements,
    Search.search_eq_explore referee hand converts,
    Prod.ext (Search.traced_fst ..) (Search.traced_snd ..), fun b e => ⟨?_, fun mem => ?_⟩,
    fun infeasible => ?_⟩
  · rintro ⟨moves, finished, done, rfl⟩
    obtain ⟨log, built⟩ := exists_built distinct b moves
    exact built.mem_arrangements distinct enabled finished done
  · obtain ⟨log, playable, spells, numbers, specials⟩ := exists_playable distinct enabled mem
    obtain ⟨moves, built⟩ := playable b
    have complete := (Search.Space.mem_arrangements.mp mem).1
    exact ⟨moves, built.completed complete spells numbers specials⟩
  · rw [Search.Space.arrangements_eq, if_neg]
    rintro feasible
    simp [feasible] at infeasible

/-- A root on the second number of two. -/
theorem completed_iff_asked_three_nine :
    let hand : Hand :=
      { numbers := [⟨0, 3⟩, ⟨1, 9⟩], operators := [⟨2, .add⟩], specials := [⟨3, .squareRoot⟩] }
    hand.Distinct ∧ hand.disabled = [] ∧ doubleOfInt? 6 = some 6 ∧
      ∃ moves, ((ofHand hand).run moves).isFinished = true ∧
        ((ofHand hand).run moves).specialsDone = true ∧
        ((ofHand hand).run moves).expression = .ofParts [3, 9] [false, true] [.add] := by
  intro hand
  have distinct : hand.Distinct := by
    unfold Hand.Distinct
    decide
  have converts : doubleOfInt? 6 = some 6 := rfl
  obtain ⟨outcome, asked, -, trace, same, -⟩ :=
    completed_iff_asked .standard hand distinct rfl converts
  have listed : asked = (Search.Space.ofHand hand).arrangements :=
    (congrArg Prod.snd trace).symm.trans (Search.traced_snd ..)
  have mem : .ofParts [3, 9] [false, true] [.add] ∈ asked := by
    rw [listed]
    decide +kernel
  exact ⟨distinct, rfl, converts, (same {} _).mpr mem⟩

end NumberDuel.Builder
