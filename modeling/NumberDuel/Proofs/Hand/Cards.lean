import Mathlib.Data.List.Nodup
import Mathlib.Data.List.Perm.Subperm
import NumberDuel.Game.State

/-!
# The cards of a hand

A hand is one row of cards in three piles. What the faces show is read off the row, and on a hand
that holds no card twice the serial number alone tells which card it is. Dealing numbers the
cards in turn, so no dealt hand holds a card twice.
-/

namespace NumberDuel

/-! ## Cards behind their faces -/

theorem subperm_map {α β : Type} (f : α → β) {xs ys : List α} (h : xs.Subperm ys) :
    (xs.map f).Subperm (ys.map f) := by
  obtain ⟨zs, perm, sub⟩ := h
  exact ⟨zs.map f, perm.map f, sub.map f⟩

theorem exists_of_perm_map {α β : Type} {f : α → β} {xs : List α} {ys : List β}
    (h : ys.Perm (xs.map f)) : ∃ zs : List α, zs.map f = ys ∧ zs.Perm xs := by
  obtain ⟨zs, eq, perm⟩ := (congrFun₂ (List.eq_map_comp_perm f) ys xs).mpr h
  exact ⟨zs, eq.symm, perm⟩

theorem exists_of_subperm_map {α β : Type} {f : α → β} {xs : List α} {ys : List β}
    (h : ys.Subperm (xs.map f)) : ∃ zs : List α, zs.map f = ys ∧ zs.Subperm xs := by
  obtain ⟨_, perm, sub⟩ := h
  obtain ⟨ws, held, rfl⟩ := List.sublist_map_iff.mp sub
  obtain ⟨zs, eq, zs_perm⟩ := exists_of_perm_map perm.symm
  exact ⟨zs, eq, zs_perm.subperm.trans held.subperm⟩

namespace Face

def number? : Face → Option CardValue
  | number value => some value
  | _ => none

def special? : Face → Option Special
  | special mark => some mark
  | _ => none

def operator? : Face → Option Operator
  | operator op => some op
  | _ => none

/-- What a card puts into a gap: an operator of its own, or a forced `×`. -/
def gap? : Face → Option (Option Operator)
  | operator op => some (some op)
  | special .multiply => some none
  | _ => none

end Face

namespace Hand

variable {hand : Hand}

def Distinct (hand : Hand) : Prop := (hand.cards.map (·.serial)).Nodup

theorem Distinct.eq_of_serial (h : hand.Distinct) {c d : Card} (hc : c ∈ hand.cards)
    (hd : d ∈ hand.cards) (eq : c.serial = d.serial) : c = d :=
  List.inj_on_of_nodup_map h hc hd eq

@[simp] theorem map_number_mem_cards {card : Copy CardValue} :
    card.map .number ∈ hand.cards ↔ card ∈ hand.numbers := by
  obtain ⟨n, value⟩ := card
  simp only [cards, Copy.map, List.mem_append, List.mem_map, Copy.mk.injEq, Face.number.injEq,
    reduceCtorEq, and_false, exists_false, or_false]
  exact ⟨fun ⟨⟨_, _⟩, mem, rfl, rfl⟩ => mem, fun mem => ⟨_, mem, rfl, rfl⟩⟩

@[simp] theorem map_operator_mem_cards {card : Copy Operator} :
    card.map .operator ∈ hand.cards ↔ card ∈ hand.operators := by
  obtain ⟨n, op⟩ := card
  simp only [cards, Copy.map, List.mem_append, List.mem_map, Copy.mk.injEq, Face.operator.injEq,
    reduceCtorEq, and_false, exists_false, false_or, or_false]
  exact ⟨fun ⟨⟨_, _⟩, mem, rfl, rfl⟩ => mem, fun mem => ⟨_, mem, rfl, rfl⟩⟩

@[simp] theorem map_special_mem_cards {card : Copy Special} :
    card.map .special ∈ hand.cards ↔ card ∈ hand.specials := by
  obtain ⟨n, mark⟩ := card
  simp only [cards, Copy.map, List.mem_append, List.mem_map, Copy.mk.injEq, Face.special.injEq,
    reduceCtorEq, and_false, exists_false, false_or]
  exact ⟨fun ⟨⟨_, _⟩, mem, rfl, rfl⟩ => mem, fun mem => ⟨_, mem, rfl, rfl⟩⟩

/-- A special card is no other card. -/
theorem Distinct.special_ne (h : hand.Distinct) {face : Face} {n : Nat}
    (held : ⟨n, face⟩ ∈ hand.cards) (other : face.special? = none) :
    ∀ card ∈ hand.specials, card.serial ≠ n := by
  intro card hc same
  have eq := h.eq_of_serial (map_special_mem_cards.mpr hc) held same
  rw [Copy.map, Copy.mk.injEq] at eq
  simp [← eq.2, Face.special?] at other

theorem filterMap_number_cards : hand.cards.filterMap (·.face.number?) = hand.numberValues := by
  simp [cards, Copy.map, Face.number?, numberValues]

theorem filterMap_special_cards :
    hand.cards.filterMap (·.face.special?) = hand.specials.map (·.face) := by
  simp [cards, Copy.map, Face.special?]

/-! ## Dealt hands -/

/-- The serial numbers are those that `deal` gives out. -/
def Numbered (hand : Hand) : Prop := (hand.cards.map (·.serial)).Perm (List.range hand.size)

theorem Numbered.distinct (h : hand.Numbered) : hand.Distinct :=
  h.nodup_iff.mpr List.nodup_range

theorem numbered_empty : ({} : Hand).Numbered := .refl _

theorem cards_add_perm (hand : Hand) (card : Card) :
    (hand.add card).cards.Perm (hand.cards ++ [card]) := by
  refine List.perm_iff_count.mpr fun c => ?_
  obtain ⟨n, value | op | mark⟩ := card <;>
    simp only [add, cards, Copy.map, List.map_append, List.map_singleton, List.count_append] <;>
    omega

/-- A dealt card is no other card of the hand, and so no dealt hand holds a card twice. -/
theorem Numbered.deal (h : hand.Numbered) (face : Face) : (hand.deal face).Numbered := by
  have size : (hand.deal face).size = hand.size + 1 := by
    cases face <;> simp [Hand.deal, add, Hand.size] <;> omega
  rw [Numbered, size, List.range_succ]
  refine ((cards_add_perm hand _).map _).trans ?_
  rw [List.map_append]
  exact h.append_right _

theorem Numbered.dealAll (h : hand.Numbered) (faces : List Face) :
    (faces.foldl Hand.deal hand).Numbered := by
  induction faces generalizing hand with
  | nil => exact h
  | cons face faces ih => exact ih (h.deal face)

theorem numberValues_dealAll (faces : List Face) (hand : Hand) :
    (faces.foldl Hand.deal hand).numberValues =
      hand.numberValues ++ faces.filterMap Face.number? := by
  induction faces generalizing hand with
  | nil => simp
  | cons face faces ih =>
    rw [List.foldl_cons, ih]
    cases face <;> simp [Hand.deal, add, numberValues, Face.number?, List.filterMap_cons]

theorem operatorValues_dealAll (faces : List Face) (hand : Hand) :
    (faces.foldl Hand.deal hand).operatorValues =
      hand.operatorValues ++ faces.filterMap Face.operator? := by
  induction faces generalizing hand with
  | nil => simp
  | cons face faces ih =>
    rw [List.foldl_cons, ih]
    cases face <;> simp [Hand.deal, add, operatorValues, Face.operator?, List.filterMap_cons]

theorem countSpecial_dealAll (faces : List Face) (hand : Hand) (mark : Special) :
    (faces.foldl Hand.deal hand).countSpecial mark =
      hand.countSpecial mark + faces.countP (· == .special mark) := by
  induction faces generalizing hand with
  | nil => simp
  | cons face faces ih =>
    rw [List.foldl_cons, ih, List.countP_cons]
    cases face with
    | number | operator => simp [Hand.deal, add, countSpecial]
    | special other =>
      simp only [Hand.deal, add, countSpecial, List.countP_append, List.countP_singleton,
        beq_iff_eq, Face.special.injEq]
      omega

theorem disabled_dealAll (faces : List Face) (hand : Hand) :
    (faces.foldl Hand.deal hand).disabled = hand.disabled := by
  induction faces generalizing hand with
  | nil => rfl
  | cons face faces ih =>
    rw [List.foldl_cons, ih]
    cases face <;> rfl

end Hand

theorem Game.dealHand_eq (config : GameConfig) (deck : Deck) :
    dealHand config deck =
      ((config.basicOperators.map Face.operator ++
          (deck.drawSlots config.initialCardCount config.numberCardsPerHand).faces).foldl
            Hand.deal {},
        deck.drawSlots config.initialCardCount config.numberCardsPerHand) := by
  rw [List.foldl_append, List.foldl_map]
  rfl

theorem Game.distinct_dealHand (config : GameConfig) (deck : Deck) :
    (dealHand config deck).1.Distinct := by
  rw [dealHand_eq]
  exact (Hand.numbered_empty.dealAll _).distinct

end NumberDuel
