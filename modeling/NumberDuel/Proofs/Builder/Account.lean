import NumberDuel.Proofs.Builder.Run

/-!
# The account of accepted picks

`accepted` lists the cards that a builder accepted since it last started over. On a hand that
holds no card twice they account for all that the builder keeps: they are the used cards and the
root that waits, if one does, and terms, connectives and roots of the expression are counted by
them.
-/

namespace NumberDuel.Builder

variable {hand : Hand} {log : List Card} {b : Builder}

/-! ## Accepted picks -/

/-- The accepted cards after one more move: a reset takes all of them back. -/
def logged (b : Builder) (log : List Card) : Move → List Card
  | .pick card => if (b.pick card).2.accepted then log ++ card.toList else log
  | .reset => []

/-- The cards accepted since the last reset, the cards of `log` before these moves. -/
def accepted (b : Builder) (log : List Card) : List Move → List Card
  | [] => log
  | m :: moves => (b.move m).accepted (b.logged log m) moves

theorem Built.move (h : Built hand log b) (distinct : hand.Distinct) (m : Move) :
    Built hand (b.logged log m) (b.move m) := by
  cases m with
  | reset => exact h.reset
  | pick card =>
    rw [logged, Builder.move]
    rcases b.pick_cases card with ⟨r, -, same⟩ | ⟨c, rfl, takes, accepted⟩
    · rw [same]
      exact h
    · rw [accepted]
      exact h.take distinct takes

theorem Built.run (h : Built hand log b) (distinct : hand.Distinct) (moves : List Move) :
    Built hand (b.accepted log moves) (b.run moves) := by
  induction moves generalizing b log with
  | nil => exact h
  | cons m moves ih => exact ih (h.move distinct m)

/-! ## Used cards -/

theorem isUsed_iff {α : Type} {card : Copy α} :
    b.isUsed card = true ↔ card.serial ∈ b.used.serials := by
  simp [isUsed, CardSet.has]

theorem Built.isUsed_pendingRoot (h : Built hand log b) {root : Copy Special}
    (waits : b.pendingRoot = some root) : b.isUsed root = false := by
  rw [Bool.eq_false_iff, Ne, isUsed_iff, h.used]
  exact fun used => used.2 root waits rfl

def usedCards (b : Builder) (hand : Hand) : List Card := hand.cards.filter fun card => b.isUsed card

def waiting (b : Builder) : List Card := b.pendingRoot.toList.map fun root => root.map .special

theorem mem_waiting {card : Card} :
    card ∈ b.waiting ↔ ∃ root, b.pendingRoot = some root ∧ root.map .special = card := by
  simp [waiting]

/-- The accepted cards are the root that waits and the used ones. -/
theorem Built.perm (h : Built hand log b) (distinct : hand.Distinct) :
    log.Perm (b.waiting ++ b.usedCards hand) := by
  have once : (b.waiting ++ b.usedCards hand).Nodup := by
    refine List.Nodup.append ?_ (distinct.of_map.filter _) ?_
    · rw [waiting]
      cases b.pendingRoot <;> simp
    · intro c waits used
      obtain ⟨root, pending, rfl⟩ := mem_waiting.mp waits
      have unused := h.isUsed_pendingRoot pending
      exact Bool.false_ne_true (unused.symm.trans (List.mem_filter.mp used).2)
  refine (List.perm_ext_iff_of_nodup h.once.of_map once).mpr fun c => ?_
  rw [List.mem_append, mem_waiting, usedCards, List.mem_filter, isUsed_iff, h.used]
  constructor
  · intro mem
    by_cases waits : ∃ root, b.pendingRoot = some root ∧ root.serial = c.serial
    · obtain ⟨root, waits, same⟩ := waits
      have accepted := (h.pending root waits).2.1
      exact .inl ⟨root, waits, distinct.eq_of_serial (h.held _ accepted) (h.held _ mem) same⟩
    · exact .inr ⟨h.held c mem, List.mem_map_of_mem mem,
        fun root pending same => waits ⟨root, pending, same⟩⟩
  · rintro (⟨root, waits, rfl⟩ | ⟨held, used, -⟩)
    · exact (h.pending root waits).2.1
    · obtain ⟨d, mem, same⟩ := List.mem_map.mp used
      exact distinct.eq_of_serial (h.held d mem) held same ▸ mem

/-! ## Counting by kind -/

/-- Accepted cards of some kind are counted by the used cards of this kind, pile by pile, and the
root that waits, if it is of this kind. -/
theorem Built.countP_log (h : Built hand log b) (distinct : hand.Distinct) (p : Face → Bool) :
    log.countP (p ·.face) =
      (if p (.special .squareRoot) then b.pendingRoot.toList.length else 0) +
        (hand.numbers.countP (fun c => p (.number c.face) && b.isUsed c) +
          hand.operators.countP (fun c => p (.operator c.face) && b.isUsed c) +
          hand.specials.countP fun c => p (.special c.face) && b.isUsed c) := by
  rw [(h.perm distinct).countP_eq, List.countP_append]
  congr 1
  · rw [waiting]
    cases pending : b.pendingRoot with
    | none => simp
    | some root => simp [Copy.map, (h.pending root pending).1, List.countP_cons]
  · rw [usedCards, List.countP_filter, Hand.cards, List.countP_append, List.countP_append,
      List.countP_map, List.countP_map, List.countP_map]
    rfl

/-- How the parts of a builder hang together once it has accepted the cards of `log` since it last
started over. -/
structure Accounted (hand : Hand) (log : List Card) (b : Builder) : Prop where
  terms : b.expression.values = (log.filterMap (·.face.number?)).map CardValue.toFloat
  used : ∀ n ∈ b.used.serials, ∃ card ∈ hand.cards, card.serial = n ∧ log.count card = 1
  turn : b.expression.terms.length = b.expression.connectives.length ∨
    b.expression.terms.length = b.expression.connectives.length + 1
  connectives : b.expression.connectives.length = hand.operators.countP (fun c => b.isUsed c) +
    hand.specials.countP fun c => c.face == .multiply && b.isUsed c
  roots : b.expression.rootCount =
    hand.specials.countP fun c => c.face == .squareRoot && b.isUsed c
  consumed : ∀ c ∈ hand.specials, b.consumed.has c = b.isUsed c
  pending : ∀ root, b.pendingRoot = some root → root ∈ hand.specials ∧ root.face = .squareRoot ∧
    b.isUsed root = false ∧ b.consumed.has root = false ∧
    b.expression.expectsNumber = true ∧ b.hasUnusedNumbers = true
  picks : log.length = hand.cards.countP (fun c => b.isUsed c) + b.pendingRoot.toList.length

theorem Built.accounted (h : Built hand log b) (distinct : hand.Distinct) :
    Accounted hand log b := by
  refine ⟨?_, fun n hn => ?_, ?_, ?_, ?_, h.consumed, fun root pending => ?_, ?_⟩
  · rw [← h.expression_eq]
    exact values_spelled log
  · obtain ⟨card, mem, rfl⟩ := List.mem_map.mp ((h.used n).mp hn).1
    exact ⟨card, h.held card mem, rfl, List.count_eq_one_of_mem h.once.of_map mem⟩
  · have turn := h.turn
    simp only [Formula.expectsNumber, Formula.isComplete, Bool.and_eq_true, beq_iff_eq] at turn
    omega
  · have gaps := h.countP_log distinct fun face => face.gap?.isSome
    rw [← List.length_filterMap_eq_countP] at gaps
    have special (mark : Special) : (Face.special mark).gap?.isSome = (mark == .multiply) := by
      cases mark <;> rfl
    simp only [special] at gaps
    rw [← h.expression_eq, connectives_spelled, Search.length_fill, gaps]
    simp [Face.gap?]
  · have marked := h.countP_log distinct fun face => face.special? == some .squareRoot
    have roots := h.roots
    rw [List.count_filterMap, marked] at roots
    simpa [Face.special?, Nat.add_comm] using roots
  · obtain ⟨face, mem, turn, left⟩ := h.pending root pending
    have held := Hand.map_special_mem_cards.mp (h.held _ mem)
    have unused := h.isUsed_pendingRoot pending
    exact ⟨held, face, unused, (h.consumed root held).trans unused, turn, left⟩
  · have length := (h.perm distinct).length_eq
    rw [List.length_append, waiting, List.length_map, usedCards, ← List.countP_eq_length_filter,
      Nat.add_comm] at length
    exact length

/-- On a hand that holds no card twice, after every run of picks and resets, everything the builder
keeps is accounted for by the cards it accepted since the last reset. -/
theorem accounted_of_run (hand : Hand) (distinct : hand.Distinct) (b : Builder)
    (moves : List Move) :
    Accounted hand ((b.setHand (some hand)).accepted [] moves)
      ((b.setHand (some hand)).run moves) :=
  ((built_setHand hand b).run distinct moves).accounted distinct

/-- Two cards of one value, a root picked twice, a card of another hand, and a reset on the way. -/
theorem accounted_of_run_two_nines :
    let hand : Hand :=
      { numbers := [⟨0, 9⟩, ⟨1, 9⟩], operators := [⟨2, .divide⟩],
        specials := [⟨3, .squareRoot⟩, ⟨4, .multiply⟩] }
    let moves : List Move :=
      [.pick (some ⟨0, .number 9⟩), .pick (some ⟨2, .operator .divide⟩), .reset,
        .pick (some ⟨3, .special .squareRoot⟩), .pick (some ⟨3, .special .squareRoot⟩), .pick none,
        .pick (some ⟨1, .number 9⟩), .pick (some ⟨7, .operator .add⟩),
        .pick (some ⟨4, .special .multiply⟩)]
    hand.Distinct ∧
      (ofHand hand).accepted [] moves =
        [⟨3, .special .squareRoot⟩, ⟨1, .number 9⟩, ⟨4, .special .multiply⟩] ∧
      Accounted hand ((ofHand hand).accepted [] moves) ((ofHand hand).run moves) := by
  intro hand moves
  have distinct : hand.Distinct := by
    unfold Hand.Distinct
    decide
  exact ⟨distinct, by decide, accounted_of_run hand distinct {} moves⟩

end NumberDuel.Builder
