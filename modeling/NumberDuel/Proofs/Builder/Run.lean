import Mathlib.Data.List.Induction
import NumberDuel.Proofs.Builder.Pick
import NumberDuel.Proofs.Hand.Cards
import NumberDuel.Proofs.Search.Walk

/-!
# What a builder knows

A builder answers picks and resets. Everything it keeps is a function of the cards it accepted
since it last started over: `Built` says which, and holds after every run of moves on a hand that
holds no card twice.
-/

namespace NumberDuel

namespace CardSet

variable {α β : Type} (s : CardSet)

@[simp] theorem mem_serials_insert (card : Copy α) (n : Nat) :
    n ∈ (s.insert card).serials ↔ n = card.serial ∨ n ∈ s.serials := List.mem_insert_iff

@[simp] theorem has_insert (card : Copy α) (other : Copy β) :
    (s.insert card).has other = (other.serial == card.serial || s.has other) := by
  rw [Bool.eq_iff_iff]
  simp [has]

theorem has_eraseAll (cards : List (Copy α)) (card : Copy β) :
    (s.eraseAll cards).has card = (s.has card && cards.all fun c => !c.isSame card) := by
  induction cards generalizing s with
  | nil => simp [eraseAll]
  | cons c cards ih =>
    rw [eraseAll, List.foldl_cons, ← eraseAll, ih]
    simp only [has, erase, Copy.isSame, List.all_cons, List.contains_eq_mem, List.mem_filter]
    grind

end CardSet

namespace Formula

variable {ω α : Type} {e : Formula ω α}

@[simp] theorem rootCount_addNumber (value : α) (rooted : Bool) :
    (e.addNumber value rooted).rootCount = e.rootCount + rooted.toNat := by
  cases rooted <;> simp [addNumber, rootCount]

@[simp] theorem rootCount_addConnective (op : ω) :
    (e.addConnective op).rootCount = e.rootCount := rfl

theorem isComplete_addNumber (turn : e.expectsNumber = true) (value : α) (rooted : Bool) :
    (e.addNumber value rooted).isComplete = true := by
  simp only [expectsNumber, beq_iff_eq] at turn
  simp [isComplete, addNumber, turn]

theorem expectsNumber_addConnective (complete : e.isComplete = true) (op : ω) :
    (e.addConnective op).expectsNumber = true := by
  simp only [isComplete, Bool.and_eq_true, beq_iff_eq] at complete
  simp [expectsNumber, addConnective, complete.2]

end Formula

namespace Builder

/-! ## Moves -/

inductive Move where
  | pick (card : Option Card)
  | reset

def move (b : Builder) : Move → Builder
  | .pick card => (b.pick card).1
  | .reset => b.reset

def run (b : Builder) (moves : List Move) : Builder := moves.foldl move b

theorem run_append_singleton (b : Builder) (moves : List Move) (m : Move) :
    b.run (moves ++ [m]) = (b.run moves).move m := by
  rw [run, List.foldl_append]
  rfl

/-- What a reset and a taken pick keep, every move keeps: a refused pick changes nothing. -/
theorem move_keeps {P : Builder → Prop} {b : Builder} (h : P b) (reset : P b.reset)
    (take : ∀ card b', b.Takes card b' → P b') (m : Move) : P (b.move m) := by
  cases m with
  | reset => exact reset
  | pick card =>
    rw [move]
    rcases b.pick_cases card with ⟨r, -, same⟩ | ⟨c, -, takes, -⟩
    · rw [same]
      exact h
    · exact take c _ takes

theorem run_keeps {P : Builder → Prop} {b : Builder} (h : P b) (reset : ∀ b, P b → P b.reset)
    (take : ∀ b card b', P b → b.Takes card b' → P b') (moves : List Move) : P (b.run moves) := by
  induction moves using List.reverseRecOn with
  | nil => exact h
  | append_singleton moves m ih =>
    rw [run_append_singleton]
    exact move_keeps ih (reset _ ih) (fun card b' => take _ card b' ih) m

/-- To start over is to take up the same hand again. -/
theorem reset_eq_setHand {hand : Hand} {b : Builder} (on_hand : b.hand = some hand) :
    b.reset = b.setHand (some hand) := by
  simp [setHand, ← on_hand]

/-! ## What a row of cards spells -/

/-- Adds a card to an expression with a root that may wait for its number. -/
def spell (s : Expression × Bool) (card : Card) : Expression × Bool :=
  match card.face with
  | .number value => (s.1.addNumber value.toFloat s.2, false)
  | .operator op => (s.1.addConnective op, s.2)
  | .special .multiply => (s.1.addConnective .multiply, s.2)
  | .special .squareRoot => (s.1, true)

/-- The expression that accepted cards spell, and whether a root waits at its end. -/
def spelled (log : List Card) : Expression × Bool := log.foldl spell ({}, false)

theorem spelled_append (log cards : List Card) :
    spelled (log ++ cards) = cards.foldl spell (spelled log) := List.foldl_append

@[simp] theorem spelled_append_singleton (log : List Card) (card : Card) :
    spelled (log ++ [card]) = spell (spelled log) card := spelled_append log [card]

theorem values_spelled (log : List Card) :
    (spelled log).1.values = (log.filterMap (·.face.number?)).map CardValue.toFloat := by
  induction log using List.reverseRecOn with
  | nil => rfl
  | append_singleton log card ih =>
    obtain ⟨n, _ | _ | _ | _⟩ := card <;>
      simpa [spell, Face.number?, Formula.addNumber, Formula.addConnective, Formula.values] using ih

theorem connectives_spelled (log : List Card) :
    (spelled log).1.connectives = Search.fill (log.filterMap (·.face.gap?)) := by
  induction log using List.reverseRecOn with
  | nil => rfl
  | append_singleton log card ih =>
    obtain ⟨n, _ | _ | _ | _⟩ := card <;>
      simp [spell, Face.gap?, Formula.addNumber, Formula.addConnective, ih, Search.fill]

/-! ## The invariant -/

/-- What a builder on a hand knows once it has accepted the cards of `log`. A waiting root is
accepted, but counts as neither used nor consumed before its number comes. -/
structure Built (hand : Hand) (log : List Card) (b : Builder) : Prop where
  on_hand : b.hand = some hand
  spells : spelled log = (b.expression, b.pendingRoot.isSome)
  held : ∀ card ∈ log, card ∈ hand.cards
  once : (log.map (·.serial)).Nodup
  used : ∀ n, n ∈ b.used.serials ↔
    n ∈ log.map (·.serial) ∧ ∀ root, b.pendingRoot = some root → root.serial ≠ n
  consumed : ∀ card ∈ hand.specials, b.consumed.has card = b.used.has card
  pending : ∀ root, b.pendingRoot = some root → root.face = .squareRoot ∧
    root.map .special ∈ log ∧ b.expression.expectsNumber = true ∧ b.hasUnusedNumbers = true
  turn : b.expression.expectsNumber = true ∨ b.expression.isComplete = true
  roots : b.expression.rootCount + b.pendingRoot.toList.length =
    (log.filterMap (·.face.special?)).count .squareRoot

variable {hand : Hand} {log : List Card} {b b' : Builder} {card : Card}

theorem built_setHand (hand : Hand) (b : Builder) : Built hand [] (b.setHand (some hand)) where
  on_hand := rfl
  spells := rfl
  held := by simp
  once := List.nodup_nil
  used := by simp [setHand, reset]
  consumed := by
    intro card hc
    have erased : (b.consumed.eraseAll hand.specials).has card = false := by
      rw [CardSet.has_eraseAll, Bool.and_eq_false_iff]
      exact .inr (List.all_eq_false.mpr ⟨card, hc, by simp [Copy.isSame]⟩)
    exact erased
  pending := by simp [setHand, reset]
  turn := .inl rfl
  roots := rfl

theorem Built.reset (h : Built hand log b) : Built hand [] b.reset :=
  reset_eq_setHand h.on_hand ▸ built_setHand hand b

theorem Built.expression_eq (h : Built hand log b) : (spelled log).1 = b.expression :=
  congrArg Prod.fst h.spells

theorem Built.waits_eq (h : Built hand log b) : (spelled log).2 = b.pendingRoot.isSome :=
  congrArg Prod.snd h.spells

/-- No root waits while a connective is expected. -/
theorem Built.pendingRoot_eq_none (h : Built hand log b)
    (turn : b.expression.expectsNumber = false) : b.pendingRoot = none := by
  rw [Option.eq_none_iff_forall_ne_some]
  intro root pending
  simp [(h.pending root pending).2.2.1] at turn

/-- A card that may be picked was not accepted before, unless it is the root that waits. -/
theorem Built.fresh (h : Built hand log b) (distinct : hand.Distinct) (held : card ∈ hand.cards)
    (unused : b.isUsed card = false)
    (other : b.pendingRoot = none ∨ card.face ≠ .special .squareRoot) :
    card.serial ∉ log.map (·.serial) := by
  intro mem
  have used : card.serial ∉ b.used.serials := by
    simpa [isUsed, CardSet.has] using unused
  rw [h.used] at used
  simp only [mem, true_and, not_forall, not_not] at used
  obtain ⟨root, pending, same⟩ := used
  obtain ⟨face, waits, -⟩ := h.pending root pending
  have eq := distinct.eq_of_serial (h.held _ waits) held same
  rcases other with other | other
  · simp [other] at pending
  · exact other (by rw [← eq, Copy.map, face])

theorem Built.turn_complete (h : Built hand log b) (turn : b.wantsNumber = false) :
    b.expression.isComplete = true ∧ b.pendingRoot = none := by
  have turn' := (Bool.or_eq_false_iff.mp turn).2
  exact ⟨h.turn.resolve_left (by simp [turn']), h.pendingRoot_eq_none turn'⟩

/-- An accepted card keeps the invariant. -/
theorem Built.accept (h : Built hand log b) (distinct : hand.Distinct) (held : card ∈ hand.cards)
    (fresh : card.serial ∉ log.map (·.serial)) (accepts : Accepts b card.serial card.face b') :
    Built hand (log ++ [card]) b' := by
  have held' : ∀ c ∈ log ++ [card], c ∈ hand.cards := by
    simpa [or_imp, forall_and, held] using h.held
  have once' : ((log ++ [card]).map (·.serial)).Nodup := by
    rw [List.map_append, List.map_singleton, ← List.concat_eq_append]
    exact h.once.concat fresh
  obtain ⟨n, face⟩ := card
  dsimp only at fresh accepts
  cases accepts with
  | @number value turn bare =>
    have others := distinct.special_ne held rfl
    refine ⟨h.on_hand, ?_, held', once', ?_, ?_, ?_, ?_, ?_⟩
    · simp [h.spells, spell, bare]
    · simp [h.used, bare, or_comm]
    · intro card hc
      simp [h.consumed card hc, others card hc]
    · simp [bare]
    · exact .inr (Formula.isComplete_addNumber turn ..)
    · simpa [bare, Face.special?] using h.roots
  | @rooted value root turn waits =>
    have others := distinct.special_ne held rfl
    have mem : root.serial ∈ log.map (·.serial) :=
      List.mem_map.mpr ⟨_, (h.pending root waits).2.1, rfl⟩
    refine ⟨h.on_hand, ?_, held', once', ?_, ?_, ?_, ?_, ?_⟩
    · simp [h.spells, spell, waits]
    · -- with its number the root becomes used as well
      intro k
      simp only [CardSet.mem_serials_insert, h.used, waits, List.map_append, List.mem_append,
        List.map_singleton, List.mem_singleton]
      grind
    · intro card hc
      simp [h.consumed card hc, beq_false_of_ne (others card hc)]
    · simp
    · exact .inr (Formula.isComplete_addNumber turn ..)
    · simpa [waits, Face.special?] using h.roots
  | @operator op turn left =>
    obtain ⟨complete, bare⟩ := h.turn_complete turn
    have others := distinct.special_ne held rfl
    refine ⟨h.on_hand, ?_, held', once', ?_, ?_, ?_, ?_, ?_⟩
    · simp [h.spells, spell]
    · simp [h.used, bare, or_comm]
    · intro card hc
      simp [h.consumed card hc, others card hc]
    · simp [bare]
    · exact .inl (Formula.expectsNumber_addConnective complete _)
    · simpa [bare, Face.special?] using h.roots
  | multiply turn left =>
    obtain ⟨complete, bare⟩ := h.turn_complete turn
    refine ⟨h.on_hand, ?_, held', once', ?_, ?_, ?_, ?_, ?_⟩
    · simp [h.spells, spell]
    · simp [h.used, bare, or_comm]
    · intro card hc
      simp [h.consumed card hc]
    · simp [bare]
    · exact .inl (Formula.expectsNumber_addConnective complete _)
    · simpa [bare, Face.special?] using h.roots
  | squareRoot bare turn left =>
    refine ⟨h.on_hand, ?_, held', once', ?_, ?_, ?_, ?_, ?_⟩
    · simp [h.spells, spell]
    · -- it waits, so it is not used yet
      intro k
      simp only [h.used, bare, List.map_append, List.mem_append, List.map_singleton,
        List.mem_singleton]
      grind
    · intro card hc
      simp [h.consumed card hc]
    · rintro _ ⟨⟩
      exact ⟨rfl, by simp [Copy.map], turn, left⟩
    · exact .inl turn
    · simpa [bare, Face.special?] using h.roots

/-- A taken pick keeps the invariant. -/
theorem Built.take (h : Built hand log b) (distinct : hand.Distinct) (takes : b.Takes card b') :
    Built hand (log ++ [card]) b' := by
  obtain ⟨on_hand, held, unused, accepts⟩ := takes
  obtain rfl := Option.some.inj (h.on_hand.symm.trans on_hand)
  refine h.accept distinct held (h.fresh distinct held unused ?_) accepts
  cases hface : card.face with
  | number | operator => exact .inr nofun
  | special mark =>
    rw [hface] at accepts
    cases accepts with
    | multiply => exact .inr nofun
    | squareRoot bare => exact .inl bare

theorem Built.pick (h : Built hand log b) (distinct : hand.Distinct) (card : Option Card) :
    ∃ log, Built hand log (b.pick card).1 :=
  move_keeps (P := fun b => ∃ log, Built hand log b) ⟨log, h⟩ ⟨[], h.reset⟩
    (fun _ _ takes => ⟨_, h.take distinct takes⟩) (.pick card)

/-- After every run of moves the builder knows what it accepted since it last started over. -/
theorem exists_built (distinct : hand.Distinct) (b : Builder) (moves : List Move) :
    ∃ log, Built hand log ((b.setHand (some hand)).run moves) := by
  refine run_keeps (P := fun b => ∃ log, Built hand log b) ⟨[], built_setHand hand b⟩ ?_ ?_ moves
  · rintro b ⟨log, h⟩
    exact ⟨[], h.reset⟩
  · rintro b card b' ⟨log, h⟩ takes
    exact ⟨_, h.take distinct takes⟩

end Builder

end NumberDuel
