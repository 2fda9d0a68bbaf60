import NumberDuel.Builder

/-!
# One pick

A pick runs through a chain of checks and then through the steps that change the builder. `Takes`
says which picks pass all checks and what the builder becomes, `Refuses` which check stops the
others. Of every pick one of the two holds, so together they say all about it: what is refused
leaves the builder as it was, and what is taken is accepted.
-/

namespace NumberDuel.Builder

/-! ## Taken and refused picks -/

/-- What the builder becomes when it accepts the card `n` with a given face, and when it does. -/
inductive Accepts (b : Builder) (n : Nat) : Face → Builder → Prop
  | number {value : CardValue} (turn : b.expression.expectsNumber = true)
      (bare : b.pendingRoot = none) :
      Accepts b n (.number value)
        { b with
          expression := b.expression.addNumber value.toFloat false
          used := b.used.insert (⟨n, value⟩ : Copy CardValue) }
  | rooted {value : CardValue} {root : Copy Special} (turn : b.expression.expectsNumber = true)
      (waits : b.pendingRoot = some root) :
      Accepts b n (.number value)
        { b with
          expression := b.expression.addNumber value.toFloat true
          used := (b.used.insert (⟨n, value⟩ : Copy CardValue)).insert root
          consumed := b.consumed.insert root
          pendingRoot := none }
  | operator {op : Operator} (turn : b.wantsNumber = false) (left : b.hasUnusedNumbers = true) :
      Accepts b n (.operator op)
        { b with
          expression := b.expression.addConnective op
          used := b.used.insert (⟨n, op⟩ : Copy Operator) }
  | multiply (turn : b.wantsNumber = false) (left : b.hasUnusedNumbers = true) :
      Accepts b n (.special .multiply)
        { b with
          expression := b.expression.addConnective .multiply
          used := b.used.insert (⟨n, .multiply⟩ : Copy Special)
          consumed := b.consumed.insert (⟨n, .multiply⟩ : Copy Special) }
  | squareRoot (bare : b.pendingRoot = none) (turn : b.expression.expectsNumber = true)
      (left : b.hasUnusedNumbers = true) :
      Accepts b n (.special .squareRoot) { b with pendingRoot := some ⟨n, .squareRoot⟩ }

/-- A pick that passes all checks, and what the builder becomes. -/
inductive Takes (b : Builder) (card : Card) (b' : Builder) : Prop
  | intro {hand : Hand} (on_hand : b.hand = some hand) (held : card ∈ hand.cards)
      (unused : b.isUsed card = false) (accepts : Accepts b card.serial card.face b')

/-- What speaks against a card that is held and not used yet. -/
inductive Objects (b : Builder) : Face → Refusal → Prop
  | operatorExpected {value : CardValue} (turn : b.expression.expectsNumber = false) :
      Objects b (.number value) .operatorExpected
  | numberExpected {op : Operator} (turn : b.wantsNumber = true) :
      Objects b (.operator op) .numberExpected
  | noNumberAfterOperator {op : Operator} (turn : b.wantsNumber = false)
      (spent : b.hasUnusedNumbers = false) : Objects b (.operator op) .noNumberAfterOperator
  | multiplyBeforeNumber (turn : b.wantsNumber = true) :
      Objects b (.special .multiply) .multiplyBeforeNumber
  | noNumberAfterMultiply (turn : b.wantsNumber = false) (spent : b.hasUnusedNumbers = false) :
      Objects b (.special .multiply) .noNumberAfterMultiply
  | rootAlreadyPending (waits : b.pendingRoot.isSome = true) :
      Objects b (.special .squareRoot) .rootAlreadyPending
  | rootOutOfTurn (bare : b.pendingRoot = none) (turn : b.expression.expectsNumber = false) :
      Objects b (.special .squareRoot) .rootOutOfTurn
  | noNumberForRoot (bare : b.pendingRoot = none) (turn : b.expression.expectsNumber = true)
      (spent : b.hasUnusedNumbers = false) : Objects b (.special .squareRoot) .noNumberForRoot

inductive Refuses (b : Builder) : Option Card → Refusal → Prop
  | noCard : Refuses b none .noCard
  | noHand {card : Card} (absent : b.hand = none) : Refuses b (some card) .noHand
  | notHeld {card : Card} {hand : Hand} (on_hand : b.hand = some hand)
      (foreign : card ∉ hand.cards) : Refuses b (some card) .notHeld
  | alreadyUsed {card : Card} {hand : Hand} (on_hand : b.hand = some hand)
      (held : card ∈ hand.cards) (used : b.isUsed card = true) :
      Refuses b (some card) .alreadyUsed
  | turn {card : Card} {hand : Hand} {r : Refusal} (on_hand : b.hand = some hand)
      (held : card ∈ hand.cards) (unused : b.isUsed card = false)
      (objects : b.Objects card.face r) : Refuses b (some card) r

/-! ## What the methods do -/

variable {b b' : Builder} {card : Card} {r : Refusal}

theorem play_of_objects (objects : b.Objects card.face r) : b.play card = b.refuse r := by
  obtain ⟨n, face⟩ := card
  dsimp only at objects
  cases objects with
  | operatorExpected turn => simp [play, playNumber, turn]
  | numberExpected turn => simp [play, playOperator, turn]
  | noNumberAfterOperator turn spent => simp [play, playOperator, turn, spent]
  | multiplyBeforeNumber turn => simp [play, playMultiply, turn]
  | noNumberAfterMultiply turn spent => simp [play, playMultiply, turn, spent]
  | rootAlreadyPending waits => simp [play, playRoot, waits]
  | rootOutOfTurn bare turn => simp [play, playRoot, bare, turn]
  | noNumberForRoot bare turn spent => simp [play, playRoot, bare, turn, spent]

theorem play_of_accepts (accepts : Accepts b card.serial card.face b') :
    ∃ message, b.play card = b'.accept message := by
  obtain ⟨n, face⟩ := card
  dsimp only at accepts
  cases accepts with
  | number turn bare =>
    simp only [play, playNumber, turn, Bool.not_true, Bool.false_eq_true, if_false, addNumber,
      markUsed, takeRoot, bare]
    split <;> exact ⟨_, rfl⟩
  | rooted turn waits =>
    simp only [play, playNumber, turn, Bool.not_true, Bool.false_eq_true, if_false, addNumber,
      markUsed, consume, takeRoot, waits]
    split <;> exact ⟨_, rfl⟩
  | operator turn left =>
    simp only [play, playOperator, turn, left]
    exact ⟨_, rfl⟩
  | multiply turn left =>
    simp only [play, playMultiply, turn, left]
    exact ⟨_, rfl⟩
  | squareRoot bare turn left =>
    simp only [play, playRoot, bare, turn, left]
    exact ⟨_, rfl⟩

/-- The checks for a card leave nothing open. -/
theorem objects_or_accepts (b : Builder) (card : Card) :
    (∃ r, b.Objects card.face r) ∨ ∃ b', Accepts b card.serial card.face b' := by
  obtain ⟨n, value | op | _ | _⟩ := card
  · cases turn : b.expression.expectsNumber with
    | false => exact .inl ⟨_, .operatorExpected turn⟩
    | true =>
      cases waits : b.pendingRoot with
      | none => exact .inr ⟨_, .number turn waits⟩
      | some root => exact .inr ⟨_, .rooted turn waits⟩
  · cases turn : b.wantsNumber with
    | true => exact .inl ⟨_, .numberExpected turn⟩
    | false =>
      cases left : b.hasUnusedNumbers with
      | false => exact .inl ⟨_, .noNumberAfterOperator turn left⟩
      | true => exact .inr ⟨_, .operator turn left⟩
  · cases turn : b.wantsNumber with
    | true => exact .inl ⟨_, .multiplyBeforeNumber turn⟩
    | false =>
      cases left : b.hasUnusedNumbers with
      | false => exact .inl ⟨_, .noNumberAfterMultiply turn left⟩
      | true => exact .inr ⟨_, .multiply turn left⟩
  · cases bare : b.pendingRoot with
    | some root => exact .inl ⟨_, .rootAlreadyPending (by rw [bare]; rfl)⟩
    | none =>
      cases turn : b.expression.expectsNumber with
      | false => exact .inl ⟨_, .rootOutOfTurn bare turn⟩
      | true =>
        cases left : b.hasUnusedNumbers with
        | false => exact .inl ⟨_, .noNumberForRoot bare turn left⟩
        | true => exact .inr ⟨_, .squareRoot bare turn left⟩

/-! ## What a pick does -/

/-- A refused pick changes nothing, and its reason is told. -/
theorem pick_of_refuses {card : Option Card} (refuses : b.Refuses card r) :
    b.pick card = (b, ⟨false, r.message⟩) := by
  cases refuses with
  | noCard => rfl
  | noHand absent => simp only [pick, absent, refuse]
  | notHeld on_hand foreign => simp [pick, on_hand, Hand.holds, foreign, refuse]
  | alreadyUsed on_hand held used => simp [pick, on_hand, Hand.holds, held, used, refuse]
  | turn on_hand held unused objects =>
    simp [pick, on_hand, Hand.holds, held, unused, play_of_objects objects, refuse]

/-- A taken pick is accepted. -/
theorem pick_of_takes (takes : b.Takes card b') :
    (b.pick (some card)).1 = b' ∧ (b.pick (some card)).2.accepted = true := by
  obtain ⟨on_hand, held, unused, accepts⟩ := takes
  obtain ⟨message, played⟩ := play_of_accepts accepts
  simp [pick, on_hand, Hand.holds, held, unused, played, accept]

/-- A pick is refused or taken. -/
theorem refuses_or_takes (b : Builder) (card : Option Card) :
    (∃ r, b.Refuses card r) ∨ ∃ c b', card = some c ∧ b.Takes c b' := by
  cases card with
  | none => exact .inl ⟨_, .noCard⟩
  | some card =>
    cases on_hand : b.hand with
    | none => exact .inl ⟨_, .noHand on_hand⟩
    | some hand =>
      by_cases held : card ∈ hand.cards
      · cases used : b.isUsed card with
        | true => exact .inl ⟨_, .alreadyUsed on_hand held used⟩
        | false =>
          rcases b.objects_or_accepts card with ⟨r, objects⟩ | ⟨b', accepts⟩
          · exact .inl ⟨r, .turn on_hand held used objects⟩
          · exact .inr ⟨card, b', rfl, on_hand, held, used, accepts⟩
      · exact .inl ⟨_, .notHeld on_hand held⟩

/-- So a pick leaves everything as it was, or it is taken. -/
theorem pick_cases (b : Builder) (card : Option Card) :
    (∃ r, b.Refuses card r ∧ b.pick card = (b, ⟨false, r.message⟩)) ∨
      ∃ c, card = some c ∧ b.Takes c (b.pick card).1 ∧ (b.pick card).2.accepted = true := by
  rcases b.refuses_or_takes card with ⟨r, refuses⟩ | ⟨c, b', rfl, takes⟩
  · exact .inl ⟨r, refuses, pick_of_refuses refuses⟩
  · obtain ⟨rfl, accepted⟩ := pick_of_takes takes
    exact .inr ⟨c, rfl, takes, accepted⟩

end NumberDuel.Builder
