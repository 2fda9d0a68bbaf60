import Mathlib.Logic.Function.Iterate
import NumberDuel.Proofs.Deck.Ending

/-!
# Drawing from decks in a row

The fresh decks of a drawing may come in any orders of their cards. Laid end to end they are one row
of cards. A drawing takes cards off its top until no slot is open and no number is missing, so it
loses none, and it ends with the card that brings the last number. Every deck of the row has
numbers, so it does end, whatever the orders are.
-/

namespace NumberDuel.Deck

variable {orders : Nat → List PileCard} {slots missing brought brought' draws : Nat}
  {pile rest drawn : List PileCard} {deck start : Deck} {d : Drawn}

/-- How many numbers a card is worth to a drawing. -/
def worth (card : PileCard) : Nat := [card].countP showsNumber

/-- A drawing card by card with so many slots open and so many numbers missing, from a pile and
from the fresh decks behind it. Of these `brought` were there before, and `brought'` are after. -/
inductive TakesFrom (orders : Nat → List PileCard) : (slots missing : Nat) →
    (pile : List PileCard) → (brought : Nat) → (drawn rest : List PileCard) →
    (brought' : Nat) → Prop
  | served {pile : List PileCard} {brought : Nat} :
      TakesFrom orders 0 0 pile brought [] pile brought
  | draw {slots missing brought brought' : Nat} {card : PileCard} {pile drawn rest : List PileCard}
      (wanted : 0 < slots ∨ 0 < missing)
      (later : TakesFrom orders (slots - 1) (missing - worth card) pile brought drawn rest
        brought') :
      TakesFrom orders slots missing (card :: pile) brought (card :: drawn) rest brought'
  | rebuild {slots missing brought brought' : Nat} {drawn rest : List PileCard}
      (wanted : 0 < slots ∨ 0 < missing) (cards : orders brought ≠ [])
      (later : TakesFrom orders slots missing (orders brought) (brought + 1) drawn rest brought') :
      TakesFrom orders slots missing [] brought drawn rest brought'

/-! ## What is drawn -/

/-- The cards that were drawn before, those that are drawn now, and those that are left are all
decks in a row. -/
theorem TakesFrom.row (h : TakesFrom orders slots missing pile brought drawn rest brought')
    {before : List PileCard} (so_far : before ++ pile = (List.range brought).flatMap orders) :
    before ++ drawn ++ rest = (List.range brought').flatMap orders := by
  induction h generalizing before with
  | served =>
    rw [List.append_nil]
    exact so_far
  | @draw _ _ _ _ card _ _ _ _ _ ih =>
    have next := @ih (before ++ [card]) (by simpa using so_far)
    simpa using next
  | rebuild _ _ _ ih =>
    refine ih ?_
    rw [List.append_nil] at so_far
    rw [List.range_succ, List.flatMap_append, List.flatMap_singleton, so_far]

theorem TakesFrom.slots_le (h : TakesFrom orders slots missing pile brought drawn rest brought') :
    slots ≤ drawn.length := by
  induction h with
  | served => exact Nat.zero_le _
  | draw _ _ ih =>
    rw [List.length_cons]
    omega
  | rebuild _ _ _ ih => exact ih

theorem countP_cons_eq (card : PileCard) (cards : List PileCard) :
    (card :: cards).countP showsNumber = worth card + cards.countP showsNumber := by
  rw [worth, ← List.countP_append, List.singleton_append]

theorem worth_le_one (card : PileCard) : worth card ≤ 1 := List.countP_le_length

theorem TakesFrom.missing_le
    (h : TakesFrom orders slots missing pile brought drawn rest brought') :
    missing ≤ drawn.countP showsNumber := by
  induction h with
  | served => exact Nat.zero_le _
  | draw _ _ ih =>
    rw [countP_cons_eq]
    omega
  | rebuild _ _ _ ih => exact ih

/-- Behind the slots the drawing goes on only as long as numbers are missing. -/
theorem TakesFrom.countP_take_lt
    (h : TakesFrom orders slots missing pile brought drawn rest brought') {k : Nat}
    (behind : slots ≤ k) (before : k < drawn.length) :
    (drawn.take k).countP showsNumber < missing := by
  induction h generalizing k with
  | served => exact absurd before (Nat.not_lt_zero k)
  | draw wanted _ ih =>
    cases k with
    | zero =>
      rw [List.take_zero, List.countP_nil]
      omega
    | succ k =>
      have later := ih (k := k) (by omega) (by simpa using before)
      rw [List.take_succ_cons, countP_cons_eq]
      omega
  | rebuild _ _ _ ih => exact ih behind before

/-- There come as many numbers as were missing, unless more than these come for the slots. -/
theorem TakesFrom.countP_eq (h : TakesFrom orders slots missing pile brought drawn rest brought') :
    drawn.countP showsNumber = max missing ((drawn.take slots).countP showsNumber) := by
  induction h with
  | served => rfl
  | @draw slots _ _ _ card _ _ _ wanted _ ih =>
    have small := worth_le_one card
    rw [countP_cons_eq, ih]
    cases slots with
    | zero =>
      rw [List.take_zero, List.take_zero, List.countP_nil]
      omega
    | succ slots =>
      rw [List.take_succ_cons, countP_cons_eq, Nat.add_sub_cancel]
      omega
  | rebuild _ _ _ ih => exact ih

/-! ## The end of a drawing -/

/-- A drawing can be finished from a pile if it can be from an empty one, as far as the pile holds
no number, and if every shorter drawing can. -/
theorem exists_takesFrom_of_pile (wanted : 0 < slots ∨ 0 < missing)
    (shorter : ∀ slots' missing' pile brought, slots' + missing' < slots + missing →
      ∃ drawn rest brought', TakesFrom orders slots' missing' pile brought drawn rest brought')
    (bare : pile.countP showsNumber = 0 →
      ∃ drawn rest brought', TakesFrom orders slots missing [] brought drawn rest brought') :
    ∃ drawn rest brought', TakesFrom orders slots missing pile brought drawn rest brought' := by
  induction pile with
  | nil => exact bare rfl
  | cons card pile ih =>
    have small := worth_le_one card
    obtain ⟨drawn, rest, brought', later⟩ : ∃ drawn rest brought',
        TakesFrom orders (slots - 1) (missing - worth card) pile brought drawn rest brought' := by
      by_cases less : slots - 1 + (missing - worth card) < slots + missing
      · exact shorter _ _ pile brought less
      · -- no slot is open and the card is no number, so as much is wanted from the rest of the pile
        have same : slots - 1 = slots ∧ missing - worth card = missing ∧ worth card = 0 := by
          omega
        rw [same.1, same.2.1]
        refine ih fun none => bare ?_
        rw [countP_cons_eq, same.2.2, none]
    exact ⟨card :: drawn, rest, brought', .draw wanted later⟩

/-- Whatever the orders of the fresh decks are, a drawing ends if all of them have numbers. -/
theorem exists_takesFrom (numbers : ∀ i, 0 < (orders i).countP showsNumber)
    (slots missing : Nat) (pile : List PileCard) (brought : Nat) :
    ∃ drawn rest brought', TakesFrom orders slots missing pile brought drawn rest brought' := by
  induction size : slots + missing using Nat.strong_induction_on
    generalizing slots missing pile brought with
  | _ n ih =>
    subst size
    by_cases wanted : 0 < slots ∨ 0 < missing
    · have shorter (slots' missing' : Nat) (pile : List PileCard) (brought : Nat)
          (less : slots' + missing' < slots + missing) := ih _ less slots' missing' pile brought rfl
      refine exists_takesFrom_of_pile wanted shorter fun _ => ?_
      have some_number := numbers brought
      obtain ⟨drawn, rest, brought', later⟩ : ∃ drawn rest brought',
          TakesFrom orders slots missing (orders brought) (brought + 1) drawn rest brought' :=
        exists_takesFrom_of_pile wanted shorter fun none => absurd none some_number.ne'
      refine ⟨drawn, rest, brought', .rebuild wanted ?_ later⟩
      rintro none
      simp [none] at some_number
    · obtain ⟨rfl, rfl⟩ : slots = 0 ∧ missing = 0 := by omega
      exact ⟨[], pile, brought, .served⟩

/-! ## The orders that a random source brings -/

/-- The fresh decks that are brought one after the other, each in the order that the random source
then gives it. -/
def fresh (deck : Deck) (i : Nat) : List PileCard := (build^[i + 1] deck).pile

theorem sameMake_iterate_build (deck : Deck) (n : Nat) : deck.SameMake (build^[n] deck) := by
  induction n with
  | zero => exact .refl deck
  | succ n ih =>
    rw [Function.iterate_succ_apply']
    exact ih.trans (sameMake_build _)

theorem isShuffle_fresh (deck : Deck) (i : Nat) : deck.IsShuffle (deck.fresh i) := by
  have shuffled := isShuffle_build (build^[i] deck)
  rw [IsShuffle, (sameMake_iterate_build deck i).fullFaces,
    ← Function.iterate_succ_apply' build] at shuffled
  exact shuffled

/-- A drawing from a deck is one from the fresh decks that its random source brings. -/
theorem takesFrom_of_drawsIn (h : DrawsIn slots missing draws deck d) (done : d.stopped = none)
    (state : deck = { build^[brought] start with pile := deck.pile }) :
    ∃ drawn rest brought',
      TakesFrom start.fresh slots missing deck.pile brought drawn rest brought' ∧
        d.faces = drawn.map (·.face) ∧ d.deck = { build^[brought'] start with pile := rest } := by
  induction h generalizing brought with
  | @served deck => exact ⟨[], deck.pile, brought, .served, rfl, state⟩
  | stopped => cases done
  | @draw _ _ _ deck _ _ _ wanted drawn _ ih =>
    obtain ⟨card, after, top, rfl, rfl⟩ := draw?_eq_some drawn
    cases pile : deck.pile with
    | nil =>
      have ready : deck.ready = build^[brought + 1] start := by
        rw [Function.iterate_succ_apply', Deck.ready, pile, state]
        rfl
      rw [ready] at top ih
      obtain ⟨drawn, rest, brought', later, faces, left⟩ := @ih (brought + 1) done rfl
      have order : start.fresh brought = card :: after := top
      refine ⟨card :: drawn, rest, brought', .rebuild wanted (by simp [order]) ?_, ?_, left⟩
      · rw [order]
        exact .draw wanted later
      · exact congrArg _ faces
    | cons card' after' =>
      have ready : deck.ready = deck := by simp [Deck.ready, pile]
      rw [ready] at top ih
      obtain ⟨rfl, rfl⟩ := List.cons.inj (pile.symm.trans top)
      obtain ⟨drawn, rest, brought', later, faces, left⟩ :=
        @ih brought done (by rw [state])
      exact ⟨card' :: drawn, rest, brought', .draw wanted later, congrArg _ faces, left⟩

end NumberDuel.Deck
