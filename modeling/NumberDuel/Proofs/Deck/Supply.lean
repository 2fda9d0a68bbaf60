import NumberDuel.Proofs.Deck.Drawing

/-!
# Decks that last

Whatever is drawn from a deck, it stays a deck of the same make: only its pile and its random
source change. A drawing stops early only where the make has no number card, because a pile that
runs out is replaced by a full deck.
-/

namespace NumberDuel.Deck

variable {deck deck' deck'' : Deck} {e : Error}

/-! ## The make of a deck -/

def SameMake (deck deck' : Deck) : Prop :=
  ∃ pile random, deck' = { deck with pile := pile, random := random }

theorem SameMake.refl (deck : Deck) : deck.SameMake deck := ⟨deck.pile, deck.random, rfl⟩

theorem SameMake.trans (h : deck.SameMake deck') (h' : deck'.SameMake deck'') :
    deck.SameMake deck'' := by
  obtain ⟨pile, random, rfl⟩ := h
  obtain ⟨pile', random', rfl⟩ := h'
  exact ⟨pile', random', rfl⟩

theorem SameMake.copiesPerValue (h : deck.SameMake deck') :
    deck'.copiesPerValue = deck.copiesPerValue := by
  obtain ⟨pile, random, rfl⟩ := h
  rfl

theorem SameMake.fullFaces {deck' : Deck} (h : deck.SameMake deck') :
    deck'.fullFaces = deck.fullFaces := by
  obtain ⟨pile, random, rfl⟩ := h
  rfl

theorem sameMake_pile (deck : Deck) (pile : List PileCard) :
    deck.SameMake { deck with pile := pile } := ⟨pile, deck.random, rfl⟩

theorem sameMake_build (deck : Deck) : deck.SameMake deck.build := ⟨_, _, rfl⟩

theorem sameMake_ready (deck : Deck) : deck.SameMake deck.ready := by
  unfold ready
  split
  · exact sameMake_build deck
  · exact .refl deck

theorem sameMake_draw? {face : Face} (drawn : deck.draw? = some (face, deck')) :
    deck.SameMake deck' := by
  obtain ⟨-, after, -, -, rfl⟩ := draw?_eq_some drawn
  exact (sameMake_ready deck).trans (sameMake_pile _ after)

theorem sameMake_drawCards (count : Nat) (deck : Deck) :
    deck.SameMake (drawCards count deck).deck := by
  induction count generalizing deck with
  | zero => exact .refl deck
  | succ count ih =>
    unfold drawCards
    split
    · exact sameMake_ready deck
    · next drawn => exact (sameMake_draw? drawn).trans (ih _)

theorem sameMake_drawFromPile (deck : Deck) : deck.SameMake deck.drawFromPile.2.1 := by
  unfold drawFromPile
  dsimp only
  split <;> exact sameMake_pile deck _

theorem sameMake_drawToNumber (deck : Deck) : deck.SameMake deck.drawToNumber.deck := by
  unfold drawToNumber
  dsimp only
  split
  · exact sameMake_drawFromPile deck
  have fresh := (sameMake_drawFromPile deck).trans (sameMake_build _)
  split
  · exact fresh
  · exact fresh.trans (sameMake_drawFromPile _)

theorem sameMake_drawNumbers (count : Nat) (deck : Deck) :
    deck.SameMake (drawNumbers count deck).deck := by
  induction count generalizing deck with
  | zero => exact .refl deck
  | succ count ih =>
    unfold drawNumbers
    dsimp only
    split
    · exact sameMake_drawToNumber deck
    · exact (sameMake_drawToNumber deck).trans (ih _)

theorem sameMake_drawSlots (deck : Deck) (slots numbers : Int) :
    deck.SameMake (deck.drawSlots slots numbers).deck := by
  unfold drawSlots
  dsimp only
  split
  · exact sameMake_drawCards _ deck
  · exact (sameMake_drawCards _ deck).trans (sameMake_drawNumbers _ _)

/-! ## What stops a drawing -/

/-- The errors a drawing may stop with, and the decks on which it may. -/
structure Stops (deck : Deck) (e : Error) : Prop where
  cause : e = .emptyDeck ∨ e = .endlessDeal
  numberless : deck.copiesPerValue ≤ 0

theorem Stops.of_sameMake (h : deck'.Stops e) (same : deck.SameMake deck') : deck.Stops e :=
  ⟨h.cause, same.copiesPerValue ▸ h.numberless⟩

theorem numberless_of_build (none : deck.build.pile.countP showsNumber = 0) :
    deck.copiesPerValue ≤ 0 := by
  rw [(isShuffle_build deck).countP_showsNumber] at none
  omega

theorem countP_of_drawFromPile (missed : deck.drawFromPile.2.2 = false) :
    deck.pile.countP showsNumber = 0 := by
  rcases deck.drawFromPile_cases with ⟨_, _, _, -, -, -, eq⟩ | ⟨none, -⟩
  · rw [eq] at missed
    cases missed
  · exact none

theorem stops_of_drawCards {count : Nat} (h : (drawCards count deck).stopped = some e) :
    deck.Stops e := by
  induction count generalizing deck with
  | zero => cases h
  | succ count ih =>
    unfold drawCards at h
    split at h
    · next drawn =>
      cases h
      have empty := draw?_eq_none_iff.mp drawn
      refine ⟨.inl rfl, numberless_of_build ?_⟩
      unfold ready at empty
      split at empty
      · rw [empty]
        rfl
      · next filled => simp [empty] at filled
    · next drawn => exact (ih h).of_sameMake (sameMake_draw? drawn)

theorem stops_of_drawToNumber (h : deck.drawToNumber.stopped = some e) : deck.Stops e := by
  unfold drawToNumber at h
  dsimp only at h
  split at h
  · cases h
  have same := sameMake_drawFromPile deck
  split at h
  · next empty =>
    cases h
    refine .of_sameMake ⟨.inl rfl, numberless_of_build ?_⟩ same
    rw [List.isEmpty_iff.mp empty]
    rfl
  · split at h
    · cases h
    next missed =>
    cases h
    exact .of_sameMake
      ⟨.inr rfl, numberless_of_build (countP_of_drawFromPile (by simpa using missed))⟩ same

theorem stops_of_drawNumbers {count : Nat} (h : (drawNumbers count deck).stopped = some e) :
    deck.Stops e := by
  induction count generalizing deck with
  | zero => cases h
  | succ count ih =>
    unfold drawNumbers at h
    dsimp only at h
    split at h
    · exact stops_of_drawToNumber h
    · exact (ih h).of_sameMake (sameMake_drawToNumber deck)

/-- A drawing of slots stops early only on a deck without numbers. -/
theorem stops_of_drawSlots {slots numbers : Int}
    (h : (deck.drawSlots slots numbers).stopped = some e) : deck.Stops e := by
  unfold drawSlots at h
  dsimp only at h
  split at h
  · exact stops_of_drawCards h
  · exact (stops_of_drawNumbers h).of_sameMake (sameMake_drawCards _ deck)

end NumberDuel.Deck
