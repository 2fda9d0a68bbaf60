import Mathlib.Data.Finset.Card
import Mathlib.Data.Finset.Image
import NumberDuel.Proofs.Builder.Run

/-!
# A player is never stuck

A hand can be played to the end when its operator and forced `×` cards are enough to stand between
its numbers. No pick spoils that: a connective is accepted only while a number is left to follow
it, so each card of these two kinds is either left or in the expression, and what is left is
always enough to go on from the middle of an expression, without a reset.
-/

namespace NumberDuel

/-! ## Cards by kind -/

namespace Face

def isNumber (face : Face) : Bool := face.number?.isSome

def connects (face : Face) : Bool := face.gap?.isSome

end Face

theorem Copy.map_injective {α β : Type} {f : α → β} (injective : Function.Injective f) :
    Function.Injective (Copy.map f) := by
  rintro ⟨m, x⟩ ⟨n, y⟩ same
  obtain ⟨serial, face⟩ := Copy.mk.inj same
  exact congrArg₂ Copy.mk serial (injective face)

namespace Hand

variable {hand : Hand}

/-- One serial number, one card; a card may still be held twice. -/
def Coherent (hand : Hand) : Prop :=
  ∀ c ∈ hand.cards, ∀ d ∈ hand.cards, c.serial = d.serial → c = d

theorem Distinct.coherent (distinct : hand.Distinct) : hand.Coherent :=
  fun _ hc _ hd same => distinct.eq_of_serial hc hd same

def multiplies (hand : Hand) : List (Copy Special) := hand.specials.filter (·.face == .multiply)

def ofKind (hand : Hand) (kind : Face → Bool) : Finset Card :=
  (hand.cards.filter (kind ·.face)).toFinset

theorem card_numbers (hand : Hand) :
    (hand.ofKind Face.isNumber).card = hand.numbers.dedup.length := by
  have cards : hand.ofKind Face.isNumber = hand.numbers.toFinset.image (Copy.map .number) := by
    ext ⟨n, value | op | mark⟩ <;> simp [ofKind, Hand.cards, Copy.map, Face.isNumber, Face.number?]
  rw [cards, Finset.card_image_of_injective _ (Copy.map_injective fun _ _ => Face.number.inj),
    List.card_toFinset]

theorem card_connecting (hand : Hand) :
    (hand.ofKind Face.connects).card =
      hand.operators.dedup.length + hand.multiplies.dedup.length := by
  have cards : hand.ofKind Face.connects =
      hand.operators.toFinset.image (Copy.map .operator) ∪
        hand.multiplies.toFinset.image (Copy.map .special) := by
    ext ⟨n, value | op | mark⟩
    · simp [ofKind, Hand.cards, Copy.map, Face.connects, Face.gap?]
    · simp [ofKind, Hand.cards, Copy.map, Face.connects, Face.gap?]
    · cases mark <;> simp [ofKind, multiplies, Hand.cards, Copy.map, Face.connects, Face.gap?] <;>
        grind
  have apart : Disjoint (hand.operators.toFinset.image (Copy.map Face.operator))
      (hand.multiplies.toFinset.image (Copy.map Face.special)) := by
    simp [Finset.disjoint_left, Copy.map]
  rw [cards, Finset.card_union_of_disjoint apart,
    Finset.card_image_of_injective _ (Copy.map_injective fun _ _ => Face.operator.inj),
    Finset.card_image_of_injective _ (Copy.map_injective fun _ _ => Face.special.inj),
    List.card_toFinset, List.card_toFinset]

end Hand

namespace Builder

/-! ## The cards that are left -/

def left (b : Builder) (hand : Hand) (kind : Face → Bool) : Finset Card :=
  (hand.ofKind kind).filter fun card => b.isUsed card = false

variable {hand : Hand} {b b' : Builder} {card : Card} {kind : Face → Bool}

theorem mem_left : card ∈ b.left hand kind ↔
    card ∈ hand.cards ∧ kind card.face = true ∧ b.isUsed card = false := by
  simp [left, Hand.ofKind, and_assoc]

/-- A card of the hand that gets used is left no more, and no other card goes with it. -/
theorem left_of_insert (coherent : hand.Coherent) (held : card ∈ hand.cards)
    (used : b'.used = b.used.insert card) :
    b'.left hand kind = (b.left hand kind).erase card := by
  ext c
  have marked : b'.isUsed c = false ↔ c.serial ≠ card.serial ∧ b.isUsed c = false := by
    simp [isUsed, used]
  rw [Finset.mem_erase, mem_left, mem_left, marked]
  constructor
  · rintro ⟨mem, of_kind, other, unused⟩
    exact ⟨fun same => other (congrArg Copy.serial same), mem, of_kind, unused⟩
  · rintro ⟨other, mem, of_kind, unused⟩
    exact ⟨mem, of_kind, fun same => other (coherent c mem card held same), unused⟩

/-- A card of another kind takes nothing away. -/
theorem left_of_insert_other (coherent : hand.Coherent) (held : card ∈ hand.cards)
    (used : b'.used = b.used.insert card) (other : kind card.face = false) :
    b'.left hand kind = b.left hand kind := by
  rw [left_of_insert coherent held used, Finset.erase_eq_of_notMem]
  simp [mem_left, other]

/-- A card of this kind takes itself away. -/
theorem card_left_of_insert (coherent : hand.Coherent) (held : card ∈ hand.cards)
    (unused : b.isUsed card = false) (used : b'.used = b.used.insert card)
    (of_kind : kind card.face = true) :
    (b'.left hand kind).card + 1 = (b.left hand kind).card := by
  rw [left_of_insert coherent held used]
  exact Finset.card_erase_add_one (mem_left.mpr ⟨held, of_kind, unused⟩)

theorem hasUnusedNumbers_iff (on_hand : b.hand = some hand) :
    b.hasUnusedNumbers = true ↔ (b.left hand Face.isNumber).Nonempty := by
  simp only [hasUnusedNumbers, on_hand, List.any_eq_true, Bool.not_eq_true']
  constructor
  · rintro ⟨c, mem, unused⟩
    exact ⟨c.map .number, mem_left.mpr ⟨Hand.map_number_mem_cards.mpr mem, rfl, unused⟩⟩
  · rintro ⟨⟨n, value | _ | _⟩, mem⟩
    · obtain ⟨held, -, unused⟩ := mem_left.mp mem
      exact ⟨⟨n, value⟩, Hand.map_number_mem_cards.mp held, unused⟩
    all_goals cases (mem_left.mp mem).2.1

/-! ## What every run keeps -/

/-- Each number and each connecting card of the hand is either left or in the expression, and the
expression waits for a number only at its start or while one is left. -/
structure Tallied (hand : Hand) (b : Builder) : Prop where
  on_hand : b.hand = some hand
  numbers : (b.left hand Face.isNumber).card + b.expression.terms.length =
    (hand.ofKind Face.isNumber).card
  connectives : (b.left hand Face.connects).card + b.expression.connectives.length =
    (hand.ofKind Face.connects).card
  turn : b.expression.expectsNumber = true ∨ b.expression.isComplete = true
  room : b.expression.expectsNumber = true →
    b.expression.isEmpty = true ∨ (b.left hand Face.isNumber).Nonempty
  waits : ∀ root, b.pendingRoot = some root →
    root.face = .squareRoot ∧ root.map .special ∈ hand.cards

theorem tallied_setHand (hand : Hand) (b : Builder) : Tallied hand (b.setHand (some hand)) := by
  have all_left (kind : Face → Bool) : (b.setHand (some hand)).left hand kind = hand.ofKind kind :=
    Finset.filter_true_of_mem fun _ _ => rfl
  refine ⟨rfl, ?_, ?_, .inl rfl, fun _ => .inl rfl, nofun⟩
  · rw [all_left]
    rfl
  · rw [all_left]
    rfl

theorem Tallied.reset (h : Tallied hand b) : Tallied hand b.reset :=
  reset_eq_setHand h.on_hand ▸ tallied_setHand hand b

/-- A placed number is no longer left. -/
theorem Tallied.place (h : Tallied hand b) {value : Float} {rooted : Bool}
    (turn : b.expression.expectsNumber = true) (on_hand : b'.hand = some hand)
    (expression : b'.expression = b.expression.addNumber value rooted)
    (taken : (b'.left hand Face.isNumber).card + 1 = (b.left hand Face.isNumber).card)
    (others : b'.left hand Face.connects = b.left hand Face.connects)
    (bare : b'.pendingRoot = none) : Tallied hand b' := by
  have complete : b'.expression.isComplete = true :=
    expression ▸ Formula.isComplete_addNumber turn value rooted
  refine ⟨on_hand, ?_, ?_, .inr complete, fun turn' => ?_, by simp [bare]⟩
  · have terms : b'.expression.terms.length = b.expression.terms.length + 1 := by
      simp [expression, Formula.addNumber]
    have := h.numbers
    omega
  · rw [others, expression]
    exact h.connectives
  · simp only [Formula.isComplete, Formula.expectsNumber, Bool.and_eq_true, beq_iff_eq]
      at complete turn'
    omega

/-- A placed connective is no longer left, and the number that follows it is. -/
theorem Tallied.join (h : Tallied hand b) {op : Operator}
    (complete : b.expression.isComplete = true) (follows : b.hasUnusedNumbers = true)
    (on_hand : b'.hand = some hand)
    (expression : b'.expression = b.expression.addConnective op)
    (taken : (b'.left hand Face.connects).card + 1 = (b.left hand Face.connects).card)
    (others : b'.left hand Face.isNumber = b.left hand Face.isNumber)
    (waits : b'.pendingRoot = b.pendingRoot) : Tallied hand b' := by
  have turn : b'.expression.expectsNumber = true :=
    expression ▸ Formula.expectsNumber_addConnective complete op
  refine ⟨on_hand, ?_, ?_, .inl turn, fun _ => .inr ?_, waits ▸ h.waits⟩
  · rw [others, expression]
    exact h.numbers
  · have connectives : b'.expression.connectives.length =
        b.expression.connectives.length + 1 := by
      simp [expression, Formula.addConnective]
    have := h.connectives
    omega
  · rw [others]
    exact (hasUnusedNumbers_iff h.on_hand).mp follows

theorem Tallied.complete_of_turn (h : Tallied hand b) (turn : b.wantsNumber = false) :
    b.expression.isComplete = true :=
  h.turn.resolve_left (by simp [(Bool.or_eq_false_iff.mp turn).2])

/-- An accepted card keeps the tally. -/
theorem Tallied.accept (h : Tallied hand b) (coherent : hand.Coherent) (held : card ∈ hand.cards)
    (unused : b.isUsed card = false) (accepts : Accepts b card.serial card.face b') :
    Tallied hand b' := by
  obtain ⟨n, face⟩ := card
  dsimp only at accepts
  cases accepts with
  | number turn bare =>
    exact h.place turn h.on_hand rfl (card_left_of_insert coherent held unused rfl rfl)
      (left_of_insert_other coherent held rfl rfl) bare
  | @rooted value root turn waits =>
    -- the number gets used first, and then the root, which is of neither kind
    let placed : Builder := { b with used := b.used.insert (⟨n, .number value⟩ : Card) }
    obtain ⟨mark, root_held⟩ := h.waits root waits
    have root_other {b' : Builder} (kind : Face → Bool)
        (other : kind (.special .squareRoot) = false) (used : b'.used = placed.used.insert root) :
        b'.left hand kind = placed.left hand kind :=
      left_of_insert_other coherent root_held used (by simpa [Copy.map, mark] using other)
    refine h.place turn h.on_hand rfl ?_ ?_ rfl
    · rw [root_other Face.isNumber rfl rfl]
      exact card_left_of_insert coherent held unused rfl rfl
    · rw [root_other Face.connects rfl rfl]
      exact left_of_insert_other coherent held rfl rfl
  | operator turn follows =>
    exact h.join (h.complete_of_turn turn) follows h.on_hand rfl
      (card_left_of_insert coherent held unused rfl rfl)
      (left_of_insert_other coherent held rfl rfl) rfl
  | multiply turn follows =>
    exact h.join (h.complete_of_turn turn) follows h.on_hand rfl
      (card_left_of_insert coherent held unused rfl rfl)
      (left_of_insert_other coherent held rfl rfl) rfl
  | squareRoot =>
    refine ⟨h.on_hand, h.numbers, h.connectives, h.turn, h.room, ?_⟩
    rintro _ ⟨⟩
    exact ⟨rfl, held⟩

theorem Tallied.take (h : Tallied hand b) (coherent : hand.Coherent) (takes : b.Takes card b') :
    Tallied hand b' := by
  obtain ⟨on_hand, held, unused, accepts⟩ := takes
  obtain rfl := Option.some.inj (h.on_hand.symm.trans on_hand)
  exact h.accept coherent held unused accepts

theorem tallied_run (coherent : hand.Coherent) (b : Builder) (moves : List Move) :
    Tallied hand ((b.setHand (some hand)).run moves) :=
  run_keeps (tallied_setHand hand b) (fun _ h => h.reset) (fun _ _ _ h => h.take coherent) moves

/-! ## Going on -/

/-- Picked in turn, every one of these cards is accepted. -/
def Admits (b : Builder) : List Card → Prop
  | [] => True
  | card :: cards => (b.pick (some card)).2.accepted = true ∧ (b.pick (some card)).1.Admits cards

theorem admits_cons (takes : b.Takes card b') (cards : List Card) :
    b.Admits (card :: cards) ↔ b'.Admits cards := by
  obtain ⟨rfl, accepted⟩ := pick_of_takes takes
  simp [Admits, accepted]

theorem pickAll_cons (takes : b.Takes card b') (cards : List Card) :
    b.pickAll (card :: cards) = b'.pickAll cards := by
  obtain ⟨rfl, -⟩ := pick_of_takes takes
  rfl

def CanFinish (b : Builder) : Prop := ∃ cards, b.Admits cards ∧ (b.pickAll cards).isFinished = true

theorem canFinish_of_takes (takes : b.Takes card b') (can : b'.CanFinish) : b.CanFinish := by
  obtain ⟨cards, admits, finished⟩ := can
  exact ⟨card :: cards, (admits_cons takes cards).mpr admits,
    pickAll_cons takes cards ▸ finished⟩

/-- While a number is left, one is accepted in its turn. -/
theorem Tallied.exists_number (h : Tallied hand b) (turn : b.expression.expectsNumber = true)
    (some_left : (b.left hand Face.isNumber).Nonempty) :
    ∃ card b', b.Takes card b' ∧
      b'.expression.terms.length = b.expression.terms.length + 1 := by
  obtain ⟨⟨n, face⟩, mem⟩ := some_left
  obtain ⟨held, number, unused⟩ := mem_left.mp mem
  obtain value | _ | _ := face
  · cases waits : b.pendingRoot with
    | none =>
      exact ⟨_, _, ⟨h.on_hand, held, unused, .number turn waits⟩,
        by simp [Formula.addNumber]⟩
    | some root =>
      exact ⟨_, _, ⟨h.on_hand, held, unused, .rooted turn waits⟩,
        by simp [Formula.addNumber]⟩
  all_goals cases number

/-- While a number and a connecting card are left, a connecting card is accepted in its turn. -/
theorem Tallied.exists_connective (h : Tallied hand b) (turn : b.expression.isComplete = true)
    (number_left : (b.left hand Face.isNumber).Nonempty)
    (some_left : (b.left hand Face.connects).Nonempty) :
    ∃ card b', b.Takes card b' ∧ b'.expression.expectsNumber = true ∧
      b'.expression.terms.length = b.expression.terms.length := by
  have turn' : b.wantsNumber = false := by
    simp only [Formula.isComplete, Bool.and_eq_true, beq_iff_eq, Bool.not_eq_true'] at turn
    simp only [wantsNumber, Formula.isEmpty, turn.1, Formula.expectsNumber, Bool.false_or,
      beq_eq_false_iff_ne]
    omega
  have follows := (hasUnusedNumbers_iff h.on_hand).mpr number_left
  obtain ⟨⟨n, face⟩, mem⟩ := some_left
  obtain ⟨held, connects, unused⟩ := mem_left.mp mem
  obtain _ | op | _ | _ := face
  · cases connects
  · exact ⟨_, _, ⟨h.on_hand, held, unused, .operator turn' follows⟩,
      Formula.expectsNumber_addConnective turn _, rfl⟩
  · exact ⟨_, _, ⟨h.on_hand, held, unused, .multiply turn' follows⟩,
      Formula.expectsNumber_addConnective turn _, rfl⟩
  · cases connects

/-- A hand with a number, and with enough cards to connect its numbers. -/
structure Connectable (hand : Hand) : Prop where
  some_number : 1 ≤ (hand.ofKind Face.isNumber).card
  enough : (hand.ofKind Face.isNumber).card ≤ (hand.ofKind Face.connects).card + 1

/-- Nothing is left to place once the last number stands. -/
theorem Tallied.finished (h : Tallied hand b) (some_number : 1 ≤ (hand.ofKind Face.isNumber).card)
    (none_left : (b.left hand Face.isNumber).card = 0) : b.isFinished = true := by
  have empty : ¬ (b.left hand Face.isNumber).Nonempty := by
    rw [← Finset.card_pos]
    omega
  have placed : b.hasUnusedNumbers = false := by
    rw [Bool.eq_false_iff, Ne, hasUnusedNumbers_iff h.on_hand]
    exact empty
  have terms : b.expression.terms ≠ [] := by
    intro none
    have := h.numbers
    simp only [none, List.length_nil] at this
    omega
  have closed : b.expression.expectsNumber = false := by
    rw [Bool.eq_false_iff]
    intro turn
    rcases h.room turn with start | some_left
    · exact terms (List.isEmpty_iff.mp start)
    · exact empty some_left
  simp [isFinished, placed, closed, Formula.isEmpty, terms]

/-- From every state that a run reaches, the numbers that are left can be placed one by one. -/
theorem Tallied.canFinish (h : Tallied hand b) (coherent : hand.Coherent)
    (connectable : Connectable hand) : b.CanFinish := by
  obtain ⟨some_number, enough⟩ := connectable
  -- on the numbers left; in the middle of an expression a connective comes first
  induction count : (b.left hand Face.isNumber).card using Nat.strong_induction_on
    generalizing b with
  | _ n ih =>
    obtain rfl | positive := Nat.eq_zero_or_pos n
    · exact ⟨[], trivial, h.finished some_number count⟩
    have place {c : Builder} (hc : Tallied hand c) (turn : c.expression.expectsNumber = true)
        (same : c.expression.terms.length = b.expression.terms.length) : c.CanFinish := by
      have := h.numbers
      have := hc.numbers
      obtain ⟨card, c', takes, terms⟩ := hc.exists_number turn (Finset.card_pos.mp (by omega))
      have hc' := hc.take coherent takes
      have := hc'.numbers
      exact canFinish_of_takes takes (ih _ (by omega) hc' rfl)
    rcases h.turn with turn | turn
    · exact place h turn rfl
    · have lengths : b.expression.connectives.length + 1 = b.expression.terms.length := by
        simpa using (Bool.and_eq_true_iff.mp turn).2
      have := h.numbers
      have := h.connectives
      obtain ⟨card, b', takes, turn', same⟩ := h.exists_connective turn
        (Finset.card_pos.mp (by omega)) (Finset.card_pos.mp (by omega))
      exact canFinish_of_takes takes (place (h.take coherent takes) turn' same)

/-- A finished expression has placed each number and connected it. -/
theorem Tallied.connectable (h : Tallied hand b) (finished : b.isFinished = true) :
    Connectable hand := by
  simp only [isFinished, Formula.isEmpty, Bool.and_eq_true, Bool.not_eq_true',
    List.isEmpty_eq_false_iff] at finished
  obtain ⟨⟨some_term, placed⟩, closed⟩ := finished
  have none_left : (b.left hand Face.isNumber).card = 0 := by
    rw [Finset.card_eq_zero, ← Finset.not_nonempty_iff_eq_empty, ← hasUnusedNumbers_iff h.on_hand]
    simp [placed]
  have complete := h.turn.resolve_left (by simp [closed])
  have lengths : b.expression.connectives.length + 1 = b.expression.terms.length := by
    simpa using (Bool.and_eq_true_iff.mp complete).2
  have := h.numbers
  have := h.connectives
  exact ⟨by omega, by omega⟩

theorem Tallied.pickAll (h : Tallied hand b) (coherent : hand.Coherent) (cards : List Card) :
    Tallied hand (b.pickAll cards) := by
  induction cards generalizing b with
  | nil => exact h
  | cons card cards ih =>
    exact ih (move_keeps h h.reset (fun _ _ => h.take coherent) (.pick (some card)))

/-- On a hand with a number, whatever was picked and reset before, accepted picks alone finish the
expression if and only if the operator and forced `×` cards are one fewer than the numbers or
more. A card that the hand holds twice counts once. -/
theorem finishes_from_anywhere (hand : Hand) (coherent : hand.Coherent) (b : Builder)
    (moves : List Move) :
    ((b.setHand (some hand)).run moves).CanFinish ↔
      1 ≤ hand.numbers.dedup.length ∧
        hand.numbers.dedup.length - 1 ≤
          hand.operators.dedup.length + hand.multiplies.dedup.length := by
  have tallied := tallied_run coherent b moves
  have counts : Connectable hand ↔ 1 ≤ hand.numbers.dedup.length ∧
      hand.numbers.dedup.length - 1 ≤
        hand.operators.dedup.length + hand.multiplies.dedup.length := by
    rw [← hand.card_numbers, ← hand.card_connecting, Nat.sub_le_iff_le_add]
    exact ⟨fun ⟨some_number, enough⟩ => ⟨some_number, enough⟩,
      fun ⟨some_number, enough⟩ => ⟨some_number, enough⟩⟩
  rw [← counts]
  constructor
  · rintro ⟨cards, -, finished⟩
    exact (tallied.pickAll coherent cards).connectable finished
  · exact tallied.canFinish coherent

/-- With all operators spent before a reset, and then a forced `×` and a root that waits. -/
theorem finishes_from_anywhere_three_numbers :
    let hand : Hand :=
      { numbers := [⟨0, 3⟩, ⟨1, 9⟩, ⟨2, 3⟩], operators := [⟨3, .divide⟩],
        specials := [⟨4, .squareRoot⟩, ⟨5, .multiply⟩] }
    let moves : List Move :=
      [.pick (some ⟨0, .number 3⟩), .pick (some ⟨3, .operator .divide⟩), .reset,
        .pick (some ⟨2, .number 3⟩), .pick (some ⟨5, .special .multiply⟩),
        .pick (some ⟨4, .special .squareRoot⟩)]
    hand.Coherent ∧ ((ofHand hand).run moves).pendingRoot = some ⟨4, .squareRoot⟩ ∧
      ((ofHand hand).run moves).CanFinish := by
  intro hand moves
  have distinct : hand.Distinct := by
    unfold Hand.Distinct
    decide
  exact ⟨distinct.coherent, by decide,
    (finishes_from_anywhere hand distinct.coherent {} moves).mpr (by decide)⟩

end Builder

end NumberDuel
