import NumberDuel.Proofs.Double.Vanishing
import NumberDuel.Proofs.Search.Soundness

/-!
# Hands with more to choose from

A hand covers another one if it has the same numbers and special cards, and all the enabled
operators of the other. What is legal for a hand is legal for every hand that covers it, so the
search of the covering hand comes at least as close, although it walks through other arrangements
in another order. Hands of the same cards cover each other, whatever the order of the cards; a
hand covers what is left of it when an operator card is taken away or an operator is disabled.
-/

namespace NumberDuel

theorem subperm_insertIdx {α : Type} (xs : List α) (i : Nat) (x : α) :
    xs.Subperm (xs.insertIdx i x) := by
  by_cases h : i ≤ xs.length
  · exact (List.sublist_cons_self x xs).subperm.trans (List.perm_insertIdx x xs h).symm.subperm
  · rw [List.insertIdx_of_length_lt (by omega)]

namespace Hand

variable {hand more : Hand} {op : Operator}

/-! ## Covering -/

/-- A hand has the same numbers and special cards as another one, and at least its enabled
operators. -/
structure Covers (more hand : Hand) : Prop where
  numbers : hand.numberValues.Perm more.numberValues
  roots : hand.rootCount = more.rootCount
  multiplies : hand.multiplyCount = more.multiplyCount
  pool : hand.operatorPool.Subperm more.operatorPool

/-- Two hands hold the same cards, in any order, and the same operators are disabled. -/
structure SameCards (hand hand' : Hand) : Prop where
  numbers : hand.numberValues.Perm hand'.numberValues
  operators : hand.operatorValues.Perm hand'.operatorValues
  specials : (hand.specials.map (·.face)).Perm (hand'.specials.map (·.face))
  disabled : ∀ op, op ∈ hand.disabled ↔ op ∈ hand'.disabled

theorem SameCards.symm {hand' : Hand} (h : hand.SameCards hand') : hand'.SameCards hand :=
  ⟨h.numbers.symm, h.operators.symm, h.specials.symm, fun op => (h.disabled op).symm⟩

theorem SameCards.countSpecial_eq {hand' : Hand} (h : hand.SameCards hand') (mark : Special) :
    hand.countSpecial mark = hand'.countSpecial mark := by
  have count := h.specials.countP_eq (· == mark)
  rwa [List.countP_map, List.countP_map] at count

theorem SameCards.covers {hand' : Hand} (h : hand.SameCards hand') : hand'.Covers hand := by
  have enabled : hand.isEnabled = hand'.isEnabled := by
    funext op
    simp [isEnabled, h.disabled op]
  refine ⟨h.numbers, h.countSpecial_eq _, h.countSpecial_eq _, ?_⟩
  rw [operatorPool, operatorPool, enabled]
  exact (h.operators.filter _).subperm

def insertOperator (hand : Hand) (place : Nat) (card : Copy Operator) : Hand :=
  { hand with operators := hand.operators.insertIdx place card }

theorem covers_insertOperator (hand : Hand) (place : Nat) (card : Copy Operator) :
    (hand.insertOperator place card).Covers hand := by
  refine ⟨.refl _, rfl, rfl, ?_⟩
  exact (subperm_map _ (subperm_insertIdx hand.operators place card)).filter hand.isEnabled

theorem operatorPool_disable (hand : Hand) (op : Operator) :
    (hand.disable op).operatorPool = hand.operatorPool.filter (· != op) := by
  rw [operatorPool, operatorPool, List.filter_filter]
  refine List.filter_congr fun other _ => ?_
  by_cases same : other = op <;> simp [isEnabled, disable, same]

theorem covers_disable (hand : Hand) (op : Operator) : hand.Covers (hand.disable op) := by
  refine ⟨.refl _, rfl, rfl, ?_⟩
  rw [operatorPool_disable]
  exact List.filter_sublist.subperm

end Hand

namespace Search

variable {hand more : Hand} {e : Expression} {target : Int} {aim : Float} {c : Candidate}

/-! ## Searches of covering hands -/

/-- No legal arrangement of a hand is worth an undefined value. -/
def Defined (hand : Hand) : Prop :=
  ∀ e value, Legal hand e → e.evaluate = .ok value → value.isNaN = false

/-- Where the search of one hand finds something for a target, that of another hand does too and
comes at least as close. -/
def AsClose (more hand : Hand) (target : Int) : Prop :=
  ∃ outcome outcome', search .standard hand target = .ok outcome ∧
    search .standard more target = .ok outcome' ∧
    ∀ c, outcome.chosen = some c → ∃ c', outcome'.chosen = some c' ∧ c'.distance ≤ c.distance

theorem Legal.of_covers (legal : Legal hand e) (covers : more.Covers hand) : Legal more e where
  values := legal.values.trans (covers.numbers.map _)
  roots := legal.roots.trans covers.roots
  multiplies := legal.multiplies.trans covers.multiplies
  cards := legal.cards.trans covers.pool

theorem Defined.of_covers (defined : Defined more) (covers : more.Covers hand) : Defined hand :=
  fun e value legal evaluated => defined e value (legal.of_covers covers) evaluated

theorem exists_chosen_le_of_covers (covers : more.Covers hand)
    (converts : doubleOfInt? target = some aim) (defined : Defined more)
    (chosen : (explore .standard hand aim).chosen = some c) :
    ∃ c', (explore .standard more aim).chosen = some c' ∧ c'.distance ≤ c.distance := by
  obtain ⟨legal, evaluated, distance⟩ := mem_accepted_standard.mp (mem_accepted_of_chosen chosen)
  have mem : c ∈ accepted .standard more aim (Space.ofHand more).arrangements :=
    mem_accepted_standard.mpr ⟨legal.of_covers covers, evaluated, distance⟩
  exact exists_chosen_le (isNaN_distance_of_mem_accepted converts defined) mem

theorem asClose_of_covers (covers : more.Covers hand) (converts : doubleOfInt? target = some aim)
    (defined : Defined more) : AsClose more hand target :=
  ⟨explore .standard hand aim, explore .standard more aim, search_eq_explore _ hand converts,
    search_eq_explore _ more converts,
    fun _ chosen => exists_chosen_le_of_covers covers converts defined chosen⟩

/-- Distances are magnitudes, so two chosen candidates at least as close as each other are equally
close. -/
theorem distance_eq_of_le {hand' : Hand} {c' : Candidate}
    (converts : doubleOfInt? target = some aim) (defined : Defined hand) (defined' : Defined hand')
    (chosen : (explore .standard hand aim).chosen = some c)
    (chosen' : (explore .standard hand' aim).chosen = some c')
    (le : c'.distance ≤ c.distance) (ge : c.distance ≤ c'.distance) : c.distance = c'.distance := by
  have mem := mem_accepted_of_chosen chosen
  have mem' := mem_accepted_of_chosen chosen'
  have number := isNaN_distance_of_mem_accepted converts defined c mem
  have number' := isNaN_distance_of_mem_accepted converts defined' c' mem'
  rw [(mem_accepted_standard.mp mem).2.2] at number le ge ⊢
  rw [(mem_accepted_standard.mp mem').2.2] at number' le ge ⊢
  exact Double.abs_eq_of_le number number' ge le

/-- More operator cards never hurt: with one more of them, at any place among the others, the
search still finds something where it did before, and comes at least as close; and to disable an
operator never makes it find something where it did not, nor come closer. -/
theorem search_monotone (hand : Hand) (converts : doubleOfInt? target = some aim) :
    (∀ place card, Defined (hand.insertOperator place card) →
      AsClose (hand.insertOperator place card) hand target) ∧
    ∀ op, Defined hand → AsClose hand (hand.disable op) target :=
  ⟨fun place card defined =>
      asClose_of_covers (hand.covers_insertOperator place card) converts defined,
    fun op defined => asClose_of_covers (hand.covers_disable op) converts defined⟩

/-- With a second subtraction eight, two and four come down to two, where they were four off before,
and without the addition there are too few operators to build anything. -/
theorem search_monotone_eight_two_four :
    let hand : Hand :=
      { numbers := [⟨0, 8⟩, ⟨1, 2⟩, ⟨2, 4⟩], operators := [⟨3, .subtract⟩, ⟨4, .add⟩] }
    let card : Copy Operator := ⟨5, .subtract⟩
    let distance (hand : Hand) := (explore .standard hand 2).chosen.map (·.distance)
    doubleOfInt? 2 = some 2 ∧ Defined (hand.insertOperator 1 card) ∧
      AsClose (hand.insertOperator 1 card) hand 2 ∧ Defined hand ∧
      AsClose hand (hand.disable .add) 2 ∧ distance hand = some 4 ∧
      distance (hand.insertOperator 1 card) = some 0 ∧ distance (hand.disable .add) = none := by
  intro hand card distance
  have converts : doubleOfInt? 2 = some 2 := rfl
  have defined : Defined hand :=
    fun _ _ legal evaluated => (legal.below (by decide) evaluated).isNaN
  have defined' : Defined (hand.insertOperator 1 card) :=
    fun _ _ legal evaluated => (legal.below (by decide) evaluated).isNaN
  obtain ⟨more, fewer⟩ := search_monotone hand converts
  exact ⟨converts, defined', more 1 card defined', defined, fewer .add defined,
    by decide +kernel, by decide +kernel, by decide +kernel⟩

/-! ## The order of the cards -/

/-- The order of the cards of a hand decides which of the closest arrangements is found, but not
how close it is, nor whether there is one. -/
theorem distance_of_sameCards {hand' : Hand} (same : hand.SameCards hand')
    (converts : doubleOfInt? target = some aim) (defined : Defined hand) :
    ∃ outcome outcome', search .standard hand target = .ok outcome ∧
      search .standard hand' target = .ok outcome' ∧
      outcome.chosen.map (·.distance) = outcome'.chosen.map (·.distance) := by
  refine ⟨_, _, search_eq_explore _ hand converts, search_eq_explore _ hand' converts, ?_⟩
  have defined' : Defined hand' := defined.of_covers same.symm.covers
  have closer : ∀ c, (explore .standard hand aim).chosen = some c →
      ∃ c', (explore .standard hand' aim).chosen = some c' ∧ c'.distance ≤ c.distance :=
    fun _ => exists_chosen_le_of_covers same.covers converts defined'
  have closer' : ∀ c', (explore .standard hand' aim).chosen = some c' →
      ∃ c, (explore .standard hand aim).chosen = some c ∧ c.distance ≤ c'.distance :=
    fun _ => exists_chosen_le_of_covers same.symm.covers converts defined
  cases chosen : (explore .standard hand aim).chosen with
  | none =>
    cases chosen' : (explore .standard hand' aim).chosen with
    | none => rfl
    | some c' =>
      obtain ⟨c, found, -⟩ := closer' c' chosen'
      cases found.symm.trans chosen
  | some c =>
    obtain ⟨c', chosen', le⟩ := closer c chosen
    obtain ⟨d, found, ge⟩ := closer' c' chosen'
    obtain rfl := Option.some.inj (found.symm.trans chosen)
    rw [chosen', Option.map_some, Option.map_some, Option.some_inj]
    exact distance_eq_of_le converts defined defined' chosen chosen' le ge

/-- Nine and four, dealt in both orders: the root of nine plus four is found in one order, four
plus the root of nine in the other. -/
theorem distance_of_sameCards_nine_four :
    let hand : Hand :=
      { numbers := [⟨0, 9⟩, ⟨1, 4⟩]
        operators := [⟨2, .add⟩, ⟨3, .divide⟩, ⟨4, .subtract⟩]
        specials := [⟨5, .squareRoot⟩]
        disabled := [.divide, .subtract] }
    let hand' : Hand :=
      { numbers := [⟨0, 4⟩, ⟨1, 9⟩]
        operators := [⟨2, .subtract⟩, ⟨3, .add⟩, ⟨4, .divide⟩]
        specials := [⟨5, .squareRoot⟩]
        disabled := [.subtract, .divide] }
    hand.SameCards hand' ∧ doubleOfInt? 7 = some 7 ∧ Defined hand ∧
      ∃ outcome outcome' c c', search .standard hand 7 = .ok outcome ∧
        search .standard hand' 7 = .ok outcome' ∧ outcome.chosen = some c ∧
        outcome'.chosen = some c' ∧ c.distance = c'.distance ∧
        c.expression.values = [9, 4] ∧ c'.expression.values = [4, 9] := by
  intro hand hand'
  have same : hand.SameCards hand' :=
    ⟨by decide, by decide, by decide, fun op => by cases op <;> decide⟩
  have converts : doubleOfInt? 7 = some 7 := rfl
  have defined : Defined hand :=
    fun _ _ legal evaluated => (legal.below (by decide) evaluated).isNaN
  obtain ⟨outcome, outcome', found, found', distances⟩ :=
    distance_of_sameCards same converts defined
  obtain rfl := Except.ok.inj ((search_eq_explore _ hand converts).symm.trans found)
  obtain rfl := Except.ok.inj ((search_eq_explore _ hand' converts).symm.trans found')
  have shown : (explore .standard hand 7).chosen.map (·.expression.values) = some [9, 4] := by
    decide +kernel
  have shown' : (explore .standard hand' 7).chosen.map (·.expression.values) = some [4, 9] := by
    decide +kernel
  obtain ⟨c, chosen, values⟩ := Option.map_eq_some_iff.mp shown
  obtain ⟨c', chosen', values'⟩ := Option.map_eq_some_iff.mp shown'
  rw [chosen, chosen', Option.map_some, Option.map_some, Option.some_inj] at distances
  exact ⟨same, converts, defined, _, _, c, c', found, found', chosen, chosen', distances, values,
    values'⟩

end Search

end NumberDuel
