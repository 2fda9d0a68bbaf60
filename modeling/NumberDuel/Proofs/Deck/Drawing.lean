import Mathlib.Data.List.Perm.Basic
import Mathlib.Data.List.TakeWhile
import NumberDuel.Deck

/-!
# Drawing from a pile that lasts

As long as the pile holds what is asked for, no fresh deck is brought: what is drawn is the top of
the pile, and the rest stays. A draw of some slots that goes on until enough numbers have come
stops with exactly that many numbers, provided there are no more slots than numbers.
-/

namespace NumberDuel.Deck

variable {deck rest : Deck} {pile before after : List PileCard} {face : Face}

/-- A pile that the shuffling of a full deck can bring. -/
def IsShuffle (deck : Deck) (pile : List PileCard) : Prop :=
  pile.Perm (deck.fullFaces.map fun face => { face := face })

theorem isShuffle_build (deck : Deck) : deck.IsShuffle deck.build.pile := by
  refine (List.reverse_perm _).trans ((Random.Twister.shuffle_perm ..).trans ?_)
  exact .of_eq (List.reverse_reverse _)

theorem build_pile_ne_nil (cards : deck.fullFaces ≠ []) : deck.build.pile ≠ [] := by
  intro empty
  have shuffled := isShuffle_build deck
  rw [IsShuffle, empty] at shuffled
  exact cards (List.map_eq_nil_iff.mp shuffled.nil_eq.symm)

theorem build_pile_eq_nil (bare : deck.fullFaces = []) : deck.build.pile = [] := by
  have shuffled := isShuffle_build deck
  rw [IsShuffle, bare, List.map_nil, List.perm_nil] at shuffled
  exact shuffled

/-! ## A full deck -/

theorem countP_flatMap_replicate {α β : Type} (xs : List α) (n : Nat) (f : α → β)
    (p : β → Bool) :
    (xs.flatMap fun x => List.replicate n (f x)).countP p = n * xs.countP (p <| f ·) := by
  induction xs with
  | nil => rfl
  | cons x xs ih =>
    rw [List.flatMap_cons, List.countP_append, ih, List.countP_replicate, List.countP_cons]
    split <;> simp_all [Nat.mul_add, Nat.add_comm]

theorem countP_fullFaces (deck : Deck) (p : Face → Bool) :
    deck.fullFaces.countP p =
      deck.copiesPerValue.toNat * CardValue.all.countP (p <| .number ·) +
        (if p (.special .multiply) then deck.multiplyCards.toNat else 0) +
        (if p (.special .squareRoot) then deck.rootCards.toNat else 0) := by
  simp only [fullFaces, List.countP_append, countP_flatMap_replicate, List.countP_replicate]

theorem countP_fullFaces_special (deck : Deck) (mark : Special) :
    deck.fullFaces.countP (· == .special mark) =
      match mark with
      | .multiply => deck.multiplyCards.toNat
      | .squareRoot => deck.rootCards.toNat := by
  have numbers : CardValue.all.countP (fun v => Face.number v == .special mark) = 0 := by
    simp
  rw [countP_fullFaces, numbers]
  cases mark <;> simp

theorem IsShuffle.countP (h : deck.IsShuffle pile) (p : Face → Bool) :
    pile.countP (p ·.face) = deck.fullFaces.countP p := by
  rw [h.countP_eq, List.countP_map]
  rfl

theorem IsShuffle.countP_showsNumber (h : deck.IsShuffle pile) :
    pile.countP showsNumber = 11 * deck.copiesPerValue.toNat := by
  have counted : pile.countP showsNumber = _ := h.countP fun face => face.kind == .number
  have numbers : CardValue.all.countP (fun v => (Face.number v).kind == .number) = 11 := by
    decide
  rw [counted, countP_fullFaces, numbers]
  simp [Face.kind, Nat.mul_comm]

/-- There is no operator card in a deck. -/
theorem IsShuffle.kind_ne_operator (h : deck.IsShuffle pile) :
    ∀ card ∈ pile, card.face.kind ≠ .operator := by
  intro card hc
  obtain ⟨face, hf, rfl⟩ := List.mem_map.mp (h.subset hc)
  simp only [fullFaces, List.mem_append, List.mem_flatMap, List.mem_replicate] at hf
  rcases hf with (⟨v, -, -, rfl⟩ | ⟨-, rfl⟩) | ⟨-, rfl⟩ <;> exact nofun

/-! ## Draws -/

theorem draw?_eq_some (drawn : deck.draw? = some (face, rest)) : ∃ card after,
    deck.ready.pile = card :: after ∧ face = card.face ∧
      rest = { deck.ready with pile := after } := by
  unfold draw? at drawn
  split at drawn
  · cases drawn
  · next card after top =>
    cases drawn
    exact ⟨card, after, top, rfl, rfl⟩

theorem draw?_eq_none_iff : deck.draw? = none ↔ deck.ready.pile = [] := by
  unfold draw?
  split <;> simp_all

theorem draw?_of_pile {card : PileCard} (h : deck.pile = card :: after) :
    deck.draw? = some (card.face, { deck with pile := after }) := by
  simp [draw?, ready, h]

theorem drawCards_of_pile (h : deck.pile = before ++ after) :
    drawCards before.length deck = ⟨before.map (·.face), { deck with pile := after }, none⟩ := by
  induction before generalizing deck with
  | nil =>
    subst h
    rfl
  | cons card before ih =>
    rw [List.cons_append] at h
    have rest := @ih { deck with pile := before ++ after } rfl
    rw [List.length_cons, drawCards, draw?_of_pile h]
    simp only [rest, List.map_cons]

/-- The pile down to its first number, or all of it. -/
theorem drawFromPile_cases (deck : Deck) :
    (∃ before card after, deck.pile = before ++ card :: after ∧
      before.countP showsNumber = 0 ∧ showsNumber card = true ∧
      deck.drawFromPile =
        (before.map (·.face) ++ [card.face], { deck with pile := after }, true)) ∨
    (deck.pile.countP showsNumber = 0 ∧
      deck.drawFromPile = (deck.pile.map (·.face), { deck with pile := [] }, false)) := by
  have split := @List.takeWhile_append_dropWhile _ (fun card => !showsNumber card) deck.pile
  have passed : (deck.pile.takeWhile fun card => !showsNumber card).countP showsNumber = 0 := by
    refine List.countP_eq_zero.mpr fun card hc => ?_
    simpa using List.mem_takeWhile_imp hc
  unfold drawFromPile
  cases below : deck.pile.dropWhile fun card => !showsNumber card with
  | nil =>
    rw [below, List.append_nil] at split
    rw [split] at passed
    exact .inr ⟨passed, by simp only [split]⟩
  | cons card after =>
    have number := List.head?_dropWhile_not (fun card => !showsNumber card) deck.pile
    rw [below] at number split
    exact .inl ⟨_, card, after, split.symm, passed, by simpa using number, rfl⟩

/-- Down to the next number, if the pile holds one. -/
theorem exists_drawToNumber (some_number : 0 < deck.pile.countP showsNumber) :
    ∃ before after, deck.pile = before ++ after ∧ before.countP showsNumber = 1 ∧
      drawToNumber deck = ⟨before.map (·.face), { deck with pile := after }, none⟩ := by
  rcases deck.drawFromPile_cases with
    ⟨before, card, after, pile, others, number, eq⟩ | ⟨others, eq⟩
  · refine ⟨before ++ [card], after, by simp [pile], ?_, ?_⟩
    · rw [List.countP_append, others, Nat.zero_add, List.countP_singleton, if_pos number]
    · simp only [drawToNumber, eq, if_true, List.map_append, List.map_singleton]
  · exact absurd others some_number.ne'

theorem exists_drawNumbers {count : Nat} (enough : count ≤ deck.pile.countP showsNumber) :
    ∃ before after, deck.pile = before ++ after ∧ before.countP showsNumber = count ∧
      drawNumbers count deck = ⟨before.map (·.face), { deck with pile := after }, none⟩ := by
  induction count generalizing deck with
  | zero => exact ⟨[], deck.pile, rfl, rfl, rfl⟩
  | succ count ih =>
    obtain ⟨first, after, pile_eq, one, drawn⟩ :=
      exists_drawToNumber (Nat.lt_of_lt_of_le (Nat.succ_pos count) enough)
    rw [pile_eq, List.countP_append, one, Nat.add_comm] at enough
    obtain ⟨more, rest, after_eq, many, drawn'⟩ :=
      @ih { deck with pile := after } (Nat.le_of_add_le_add_left enough)
    refine ⟨first ++ more, rest, ?_, ?_, ?_⟩
    · rw [pile_eq, List.append_assoc, ← after_eq]
    · rw [List.countP_append, one, many, Nat.add_comm]
    · rw [drawNumbers, drawn]
      simp only [drawn', List.map_append]

/-- Slots and then numbers, from a pile with enough numbers. -/
theorem exists_drawSlots {slots numbers : Int} (few : slots ≤ numbers)
    (enough : numbers.toNat ≤ deck.pile.countP showsNumber) :
    ∃ before after, deck.pile = before ++ after ∧
      before.countP showsNumber = numbers.toNat ∧
      deck.drawSlots slots numbers =
        ⟨before.map (·.face), { deck with pile := after }, none⟩ := by
  set top := deck.pile.take slots.toNat with top_eq
  set below := deck.pile.drop slots.toNat with below_eq
  have split : deck.pile = top ++ below := (List.take_append_drop ..).symm
  have long : slots.toNat ≤ deck.pile.length := by
    have := @List.countP_le_length _ showsNumber deck.pile
    omega
  have top_length : top.length = slots.toNat := List.length_take_of_le long
  have numbers_top : top.countP showsNumber ≤ slots.toNat :=
    top_length ▸ List.countP_le_length
  have first : drawCards slots.toNat deck =
      ⟨top.map (·.face), { deck with pile := below }, none⟩ :=
    top_length ▸ drawCards_of_pile split
  have counted : (top.map (·.face)).countP (·.kind == .number) = top.countP showsNumber := by
    rw [List.countP_map]
    rfl
  rw [split, List.countP_append] at enough
  obtain ⟨more, after, below_split, missing, drawn⟩ :=
    @exists_drawNumbers { deck with pile := below }
      (numbers - top.countP showsNumber).toNat (by dsimp only; omega)
  refine ⟨top ++ more, after, ?_, ?_, ?_⟩
  · rw [split, List.append_assoc, ← below_split]
  · rw [List.countP_append, missing]
    omega
  · simp only [drawSlots, first, counted, drawn, List.map_append]

end NumberDuel.Deck
