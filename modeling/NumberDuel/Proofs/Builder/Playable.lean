import NumberDuel.Proofs.Builder.Run
import NumberDuel.Proofs.Search.Arrangement

/-!
# The cards of an arrangement can be picked in turn

Given cards for the terms and for the gaps of an arrangement, a player can pick the first number,
then gap and number in turn, each root before its number. The hand has such cards for every
arrangement, and they include all its numbers and special cards.
-/

namespace NumberDuel.Builder

variable {hand : Hand} {log : List Card} {b : Builder} {card : Card}

/-! ## Picks that are accepted -/

/-- Cards that a builder on the hand accepts, one after the other, in some run. -/
def Playable (hand : Hand) (log : List Card) : Prop :=
  ∀ b : Builder, ∃ moves, Built hand log ((b.setHand (some hand)).run moves)

theorem playable_nil (hand : Hand) : Playable hand [] := fun b => ⟨[], built_setHand hand b⟩

theorem Playable.accept (h : Playable hand log) (distinct : hand.Distinct)
    (held : card ∈ hand.cards) (fresh : card.serial ∉ log.map (·.serial))
    (accepts : ∀ b, Built hand log b → ∃ b', Accepts b card.serial card.face b') :
    Playable hand (log ++ [card]) := by
  intro b
  obtain ⟨moves, built⟩ := h b
  obtain ⟨b', hb'⟩ := accepts _ built
  have unused : ((b.setHand (some hand)).run moves).isUsed card = false := by
    simp only [isUsed, CardSet.has, List.contains_eq_mem, decide_eq_false_iff_not]
    exact fun used => fresh ((built.used _).mp used).1
  have picked := (pick_of_takes ⟨built.on_hand, held, unused, hb'⟩).1
  refine ⟨moves ++ [.pick (some card)], ?_⟩
  rw [run_append_singleton, move, picked]
  exact built.accept distinct held fresh hb'

theorem Built.hasUnusedNumbers_of_fresh (h : Built hand log b) {next : Copy CardValue}
    (held : next ∈ hand.numbers) (fresh : next.serial ∉ log.map (·.serial)) :
    b.hasUnusedNumbers = true := by
  simp only [hasUnusedNumbers, h.on_hand, List.any_eq_true]
  refine ⟨next, held, ?_⟩
  simp only [isUsed, CardSet.has, List.contains_eq_mem, Bool.not_eq_true', decide_eq_false_iff_not]
  exact fun used => fresh ((h.used _).mp used).1

theorem Playable.number (h : Playable hand log) (distinct : hand.Distinct)
    {number : Copy CardValue} (held : number ∈ hand.numbers)
    (fresh : number.serial ∉ log.map (·.serial)) (turn : (spelled log).1.expectsNumber = true) :
    Playable hand (log ++ [number.map .number]) := by
  refine h.accept distinct (Hand.map_number_mem_cards.mpr held) fresh fun b built => ?_
  rw [built.expression_eq] at turn
  cases waits : b.pendingRoot with
  | none => exact ⟨_, .number turn waits⟩
  | some root => exact ⟨_, .rooted turn waits⟩

theorem Playable.root (h : Playable hand log) (distinct : hand.Distinct) {n : Nat}
    (held : ⟨n, .squareRoot⟩ ∈ hand.specials) (fresh : n ∉ log.map (·.serial))
    (bare : (spelled log).2 = false) (turn : (spelled log).1.expectsNumber = true)
    {next : Copy CardValue} (left : next ∈ hand.numbers)
    (unused : next.serial ∉ log.map (·.serial)) :
    Playable hand (log ++ [⟨n, .special .squareRoot⟩]) := by
  refine h.accept distinct (Hand.map_special_mem_cards.mpr held) fresh fun b built => ?_
  rw [built.waits_eq, Option.isSome_eq_false_iff, Option.isNone_iff_eq_none] at bare
  rw [built.expression_eq] at turn
  exact ⟨_, .squareRoot bare turn (built.hasUnusedNumbers_of_fresh left unused)⟩

theorem Playable.gap (h : Playable hand log) (distinct : hand.Distinct)
    (held : card ∈ hand.cards) (gap : card.face.gap?.isSome)
    (fresh : card.serial ∉ log.map (·.serial)) (turn : (spelled log).1.isComplete = true)
    {next : Copy CardValue} (left : next ∈ hand.numbers)
    (unused : next.serial ∉ log.map (·.serial)) :
    Playable hand (log ++ [card]) := by
  refine h.accept distinct held fresh fun b built => ?_
  rw [built.expression_eq] at turn
  have turn' : b.wantsNumber = false := by
    simp only [Formula.isComplete, Bool.and_eq_true, beq_iff_eq] at turn
    simp only [wantsNumber, Formula.isEmpty, Formula.expectsNumber]
    grind
  have left' := built.hasUnusedNumbers_of_fresh left unused
  obtain ⟨n, _ | op | _ | _⟩ := card
  · cases gap
  · exact ⟨_, .operator turn' left'⟩
  · exact ⟨_, .multiply turn' left'⟩
  · cases gap

/-! ## Laying out the cards -/

/-- A number card and, if it gets a root, the serial number of its root card. -/
structure Placement where
  root : Option Nat
  number : Copy CardValue

namespace Placement

/-- The cards to pick: the root, if any, and then the number. -/
def cards (p : Placement) : List Card :=
  p.root.toList.map (⟨·, .special .squareRoot⟩) ++ [p.number.map .number]

def term (p : Placement) : Term Float := ⟨p.number.face.toFloat, p.root.isSome⟩

end Placement

/-- The face of the card that puts this into a gap. -/
def gapFace : Option Operator → Face
  | some op => .operator op
  | none => .special .multiply

@[simp] theorem gap?_gapFace (gap : Option Operator) : (gapFace gap).gap? = some gap := by
  cases gap <;> rfl

def weave : List (Copy (Option Operator)) → List Placement → List Card
  | gap :: gaps, p :: ps => gap.map gapFace :: (p.cards ++ weave gaps ps)
  | _, _ => []

theorem weave_perm {gaps : List (Copy (Option Operator))} {ps : List Placement}
    (h : gaps.length = ps.length) :
    (weave gaps ps).Perm (gaps.map (·.map gapFace) ++ ps.flatMap Placement.cards) := by
  induction gaps generalizing ps with
  | nil =>
    obtain rfl := List.length_eq_zero_iff.mp h.symm
    exact .refl _
  | cons gap gaps ih =>
    cases ps with
    | nil => cases h
    | cons p ps =>
      rw [weave, List.map_cons, List.flatMap_cons, List.cons_append]
      refine .cons _ ?_
      refine ((ih (Nat.succ.inj h)).append_left _).trans ?_
      rw [← List.append_assoc, ← List.append_assoc]
      exact List.perm_append_comm.append_right _

theorem spelled_placement (p : Placement) (bare : (spelled log).2 = false) :
    spelled (log ++ p.cards) =
      ((spelled log).1.addNumber p.number.face.toFloat p.root.isSome, false) := by
  rw [spelled_append]
  obtain ⟨_ | n, number⟩ := p <;> simp [Placement.cards, spell, Copy.map, bare]

theorem spell_gap (gap : Copy (Option Operator)) (s : Expression × Bool) :
    spell s (gap.map gapFace) = (s.1.addConnective (gap.face.getD .multiply), s.2) := by
  obtain ⟨n, _ | op⟩ := gap <;> rfl

theorem fresh_of_nodup {cards : List Card} (once : ((log ++ cards).map (·.serial)).Nodup)
    (mem : card ∈ cards) : card.serial ∉ log.map (·.serial) := by
  rw [List.map_append, List.nodup_append'] at once
  exact fun placed => once.2.2 placed (List.mem_map_of_mem mem)

theorem number_mem_cards (p : Placement) : p.number.map .number ∈ p.cards := by
  simp [Placement.cards]

theorem Playable.placement (h : Playable hand log) (distinct : hand.Distinct) {p : Placement}
    (held : ∀ card ∈ p.cards, card ∈ hand.cards)
    (once : ((log ++ p.cards).map (·.serial)).Nodup) (bare : (spelled log).2 = false)
    (turn : (spelled log).1.expectsNumber = true) : Playable hand (log ++ p.cards) := by
  have number := Hand.map_number_mem_cards.mp (held _ (number_mem_cards p))
  have fresh := fresh_of_nodup once (number_mem_cards p)
  obtain ⟨_ | n, next⟩ := p
  · exact h.number distinct number fresh turn
  · have root : ⟨n, .special .squareRoot⟩ ∈ Placement.cards ⟨some n, next⟩ := by
      simp [Placement.cards]
    have waiting := h.root distinct (Hand.map_special_mem_cards.mp (held _ root))
      (fresh_of_nodup once root) bare turn number fresh
    have placed : log ++ Placement.cards ⟨some n, next⟩ =
        log ++ [⟨n, .special .squareRoot⟩] ++ [next.map .number] := by
      simp [Placement.cards]
    rw [placed] at once ⊢
    refine waiting.number distinct number (fresh_of_nodup once List.mem_cons_self) ?_
    rw [spelled_append_singleton]
    exact turn

/-- After a first placement the rest can be played gap by gap, and spells what it should. -/
theorem Playable.weave (h : Playable hand log) (distinct : hand.Distinct)
    {gaps : List (Copy (Option Operator))} {ps : List Placement} (len : gaps.length = ps.length)
    (held : ∀ card ∈ weave gaps ps, card ∈ hand.cards)
    (once : ((log ++ weave gaps ps).map (·.serial)).Nodup) (bare : (spelled log).2 = false)
    (turn : (spelled log).1.isComplete = true) :
    Playable hand (log ++ weave gaps ps) ∧
      spelled (log ++ weave gaps ps) =
        (⟨(spelled log).1.terms ++ ps.map Placement.term,
          (spelled log).1.connectives ++ Search.fill (gaps.map (·.face))⟩, false) := by
  induction gaps generalizing log ps with
  | nil =>
    obtain rfl := List.length_eq_zero_iff.mp len.symm
    refine ⟨by simpa [Builder.weave] using h, ?_⟩
    simp [Builder.weave, ← bare]
  | cons gap gaps ih =>
    cases ps with
    | nil => cases len
    | cons p ps =>
      simp only [Builder.weave, List.forall_mem_cons, List.forall_mem_append] at held
      obtain ⟨gap_held, p_held, rest_held⟩ := held
      have number := Hand.map_number_mem_cards.mp (p_held _ (number_mem_cards p))
      have number_fresh : p.number.serial ∉ log.map (·.serial) := by
        have laid : p.number.map .number ∈ Builder.weave (gap :: gaps) (p :: ps) := by
          simp [Builder.weave, number_mem_cards]
        exact fresh_of_nodup once laid
      have gapped := h.gap distinct gap_held (by simp [Copy.map])
        (fresh_of_nodup once List.mem_cons_self) turn number number_fresh
      have spelled_gap : spelled (log ++ [gap.map gapFace]) =
          ((spelled log).1.addConnective (gap.face.getD .multiply), false) := by
        rw [spelled_append_singleton, spell_gap, bare]
      have laid : log ++ Builder.weave (gap :: gaps) (p :: ps) =
          log ++ [gap.map gapFace] ++ p.cards ++ Builder.weave gaps ps := by
        simp [Builder.weave]
      rw [laid] at once ⊢
      have expects : (spelled (log ++ [gap.map gapFace])).1.expectsNumber = true := by
        rw [spelled_gap]
        exact Formula.expectsNumber_addConnective turn _
      have bare' : (spelled (log ++ [gap.map gapFace])).2 = false := by rw [spelled_gap]
      have once' : ((log ++ [gap.map gapFace] ++ p.cards).map (·.serial)).Nodup := by
        rw [List.map_append] at once
        exact once.of_append_left
      have placed := gapped.placement distinct p_held once' bare' expects
      have spelled_p := spelled_placement p bare'
      obtain ⟨played, spelled_rest⟩ := ih placed (Nat.succ.inj len) rest_held once
        (by rw [spelled_p]) (by rw [spelled_p]; exact Formula.isComplete_addNumber expects ..)
      refine ⟨played, ?_⟩
      rw [spelled_rest, spelled_p, spelled_gap]
      simp [Formula.addNumber, Formula.addConnective, Placement.term, Search.fill]

/-- Cards for the gaps: each `×` that is forced takes a special card, each other gap its operator
card. -/
theorem exists_gaps (filling : List (Option Operator)) {operators : List (Copy Operator)}
    {multiplies : List (Copy Special)} (faces : operators.map (·.face) = filling.reduceOption)
    (count : multiplies.length = filling.countP Option.isNone)
    (marks : ∀ card ∈ multiplies, card.face = .multiply) :
    ∃ gaps : List (Copy (Option Operator)), gaps.map (·.face) = filling ∧
      (gaps.map (·.map gapFace)).Perm
        (operators.map (·.map .operator) ++ multiplies.map (·.map .special)) := by
  induction filling generalizing operators multiplies with
  | nil =>
    obtain rfl := List.map_eq_nil_iff.mp faces
    obtain rfl := List.length_eq_zero_iff.mp count
    exact ⟨[], rfl, .refl _⟩
  | cons gap filling ih =>
    cases gap with
    | none =>
      obtain _ | ⟨card, multiplies⟩ := multiplies
      · simp at count
      obtain ⟨mark, marks⟩ := List.forall_mem_cons.mp marks
      obtain ⟨gaps, hgaps, perm⟩ := ih faces (by simpa using count) marks
      refine ⟨⟨card.serial, none⟩ :: gaps, by simp [hgaps], ?_⟩
      have same : (⟨card.serial, none⟩ : Copy (Option Operator)).map gapFace =
          card.map .special := by
        simp [Copy.map, gapFace, mark]
      rw [List.map_cons, List.map_cons, same]
      exact (perm.cons _).trans List.perm_middle.symm
    | some op =>
      rw [List.reduceOption_cons_of_some] at faces
      obtain ⟨card, operators, rfl, face, faces⟩ := List.map_eq_cons_iff.mp faces
      obtain ⟨gaps, hgaps, perm⟩ := ih faces (by simpa using count) marks
      refine ⟨⟨card.serial, some op⟩ :: gaps, by simp [hgaps], ?_⟩
      have same : (⟨card.serial, some op⟩ : Copy (Option Operator)).map gapFace =
          card.map .operator := by
        simp [Copy.map, gapFace, face]
      rw [List.map_cons, List.map_cons, same]
      exact perm.cons _

/-- Cards for the terms: each number its card, and each rooted one a root card. -/
theorem exists_placements (terms : List (Term Float)) {numbers : List (Copy CardValue)}
    {roots : List (Copy Special)}
    (values : terms.map (·.value) = numbers.map fun card => card.face.toFloat)
    (count : roots.length = terms.countP (·.rooted))
    (marks : ∀ card ∈ roots, card.face = .squareRoot) :
    ∃ ps : List Placement, ps.map Placement.term = terms ∧
      (ps.flatMap Placement.cards).Perm
        (numbers.map (·.map .number) ++ roots.map (·.map .special)) := by
  induction terms generalizing numbers roots with
  | nil =>
    obtain rfl := List.map_eq_nil_iff.mp values.symm
    obtain rfl := List.length_eq_zero_iff.mp count
    exact ⟨[], rfl, .refl _⟩
  | cons t terms ih =>
    obtain ⟨number, numbers, rfl, value, rest⟩ := List.map_eq_cons_iff.mp values.symm
    obtain ⟨x, _ | _⟩ := t
    · obtain ⟨ps, hps, perm⟩ := ih rest.symm (by simpa using count) marks
      refine ⟨⟨none, number⟩ :: ps, by simp [Placement.term, hps, value], ?_⟩
      exact perm.cons _
    · obtain _ | ⟨root, roots⟩ := roots
      · simp at count
      obtain ⟨mark, marks⟩ := List.forall_mem_cons.mp marks
      obtain ⟨ps, hps, perm⟩ := ih rest.symm (by simpa using count) marks
      refine ⟨⟨some root.serial, number⟩ :: ps, by simp [Placement.term, hps, value], ?_⟩
      have same : (⟨root.serial, .special .squareRoot⟩ : Card) = root.map .special := by
        simp [Copy.map, mark]
      rw [List.flatMap_cons, Placement.cards, Option.toList_some, List.map_singleton, same]
      refine ((perm.cons _).cons _).trans (.trans ?_ List.perm_middle.symm)
      exact .refl _

def marked (hand : Hand) (mark : Special) : List (Copy Special) :=
  hand.specials.filter (·.face == mark)

theorem length_marked (hand : Hand) (mark : Special) :
    (marked hand mark).length = hand.countSpecial mark := List.countP_eq_length_filter.symm

theorem face_of_mem_marked {mark : Special} : ∀ card ∈ marked hand mark, card.face = mark :=
  fun _ hc => eq_of_beq (List.mem_filter.mp hc).2

theorem marked_perm (hand : Hand) :
    (marked hand .squareRoot ++ marked hand .multiply).Perm hand.specials := by
  have other : marked hand .multiply = hand.specials.filter fun c => !(c.face == .squareRoot) :=
    List.filter_congr fun card _ => by cases card.face <;> rfl
  rw [other]
  exact List.filter_append_perm ..

theorem operatorPool_of_enabled (enabled : hand.disabled = []) :
    hand.operatorPool = hand.operatorValues := by
  simp [Hand.operatorPool, Hand.isEnabled, enabled]

/-- Every arrangement of a hand is spelled by cards that can be picked in turn, all numbers and
special cards among them. -/
theorem exists_playable (distinct : hand.Distinct) (enabled : hand.disabled = []) {e : Expression}
    (mem : e ∈ (Search.Space.ofHand hand).arrangements) :
    ∃ log, Playable hand log ∧ spelled log = (e, false) ∧
      (∀ card ∈ hand.numbers, card.map .number ∈ log) ∧
      ∀ card ∈ hand.specials, card.map .special ∈ log := by
  obtain ⟨complete, values, roots, filling, filled, multiplies, cards⟩ :=
    Search.Space.mem_arrangements.mp mem
  -- the cards that stand for the numbers, the operators and the special marks
  have values' : e.values.Perm (hand.numbers.map fun card => card.face.toFloat) := by
    simpa [Search.Space.ofHand, Hand.numberValues, Function.comp_def] using values
  obtain ⟨numbers, hvalues, numbers_perm⟩ := exists_of_perm_map values'
  have cards' : filling.reduceOption.Subperm hand.operatorValues := by
    rw [← operatorPool_of_enabled enabled]
    exact cards
  obtain ⟨operators, faces, operators_sub⟩ := exists_of_subperm_map cards'
  obtain ⟨ps, hps, ps_perm⟩ := exists_placements e.terms hvalues.symm
    ((length_marked hand .squareRoot).trans roots.symm) face_of_mem_marked
  obtain ⟨gaps, hgaps, gaps_perm⟩ := exists_gaps filling faces
    ((length_marked hand .multiply).trans multiplies.symm) face_of_mem_marked
  rw [Formula.isComplete_iff, ← hps, ← filled, Search.length_fill, ← hgaps, List.length_map,
    List.length_map] at complete
  obtain _ | ⟨p, ps⟩ := ps
  · cases complete
  have len : gaps.length = ps.length := Nat.succ.inj complete
  have laid : (p.cards ++ weave gaps ps).Perm
      (numbers.map (·.map .number) ++ operators.map (·.map .operator) ++
        (marked hand .squareRoot ++ marked hand .multiply).map (·.map .special)) := by
    refine List.perm_iff_count.mpr fun card => ?_
    have woven := (weave_perm len).count_eq card
    have placed := ps_perm.count_eq card
    have filled := gaps_perm.count_eq card
    simp only [List.flatMap_cons, List.count_append, List.map_append] at woven placed filled ⊢
    omega
  have sub : (p.cards ++ weave gaps ps).Subperm hand.cards := by
    refine laid.subperm.trans (.append (.append ?_ ?_) ?_)
    · exact (numbers_perm.map _).subperm
    · exact subperm_map _ operators_sub
    · exact ((marked_perm hand).map _).subperm
  have held : ∀ card ∈ p.cards ++ weave gaps ps, card ∈ hand.cards := sub.subset
  have once : ((p.cards ++ weave gaps ps).map (·.serial)).Nodup := by
    obtain ⟨cards, perm, sublist⟩ := sub
    exact (perm.map _).nodup_iff.mp (distinct.sublist (sublist.map _))
  rw [List.forall_mem_append] at held
  have once_first : (p.cards.map (·.serial)).Nodup := by
    rw [List.map_append] at once
    exact once.of_append_left
  have first : Playable hand p.cards :=
    (playable_nil hand).placement distinct held.1 once_first rfl rfl
  have spelled_first : spelled p.cards = ((({} : Expression).addNumber p.number.face.toFloat
      p.root.isSome), false) :=
    @spelled_placement [] p rfl
  obtain ⟨played, spelled_all⟩ := first.weave distinct len held.2 once (by rw [spelled_first])
    (by rw [spelled_first]; rfl)
  refine ⟨_, played, ?_, fun card hc => ?_, fun card hc => ?_⟩
  · rw [spelled_all, spelled_first, hgaps, filled]
    exact congrArg (·, false) (congrArg (Formula.mk · e.connectives) hps)
  · refine laid.mem_iff.mpr (List.mem_append_left _ (List.mem_append_left _ ?_))
    exact List.mem_map_of_mem (numbers_perm.mem_iff.mpr hc)
  · refine laid.mem_iff.mpr (List.mem_append_right _ ?_)
    exact List.mem_map_of_mem ((marked_perm hand).mem_iff.mpr hc)

end NumberDuel.Builder
