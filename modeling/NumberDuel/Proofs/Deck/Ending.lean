import NumberDuel.Proofs.Deck.Conservation
import NumberDuel.Proofs.Deck.Supply

/-!
# Drawings that end

`drawSlots` says at once what a drawing comes to. Here the cards are drawn one by one, as long as
slots are open or numbers are missing, and nothing says that this ends: an empty pile is replaced
by a fresh deck, whatever that holds. It ends unless more numbers are missing than the pile has
and a fresh deck, which has cards, has no number. Then every draw brings a card and leaves things
as they were.
-/

namespace NumberDuel.Deck

variable {deck rest : Deck} {slots missing slots' missing' slots'' missing'' count draws : Nat}
  {d first second : Drawn} {face : Face} {e : Error}

def countNumbers (faces : List Face) : Nat := faces.countP (·.kind == .number)

def Drawn.after (faces : List Face) (d : Drawn) : Drawn := { d with faces := faces ++ d.faces }

theorem countNumbers_after (faces : List Face) (d : Drawn) :
    countNumbers (d.after faces).faces = countNumbers faces + countNumbers d.faces :=
  List.countP_append

/-- A drawing card by card: with so many slots open and so many numbers missing it ends after this
many draws. -/
inductive DrawsIn : (slots missing draws : Nat) → Deck → Drawn → Prop
  | served {deck : Deck} : DrawsIn 0 0 0 deck ⟨[], deck, none⟩
  | stopped {slots missing : Nat} {deck : Deck} (wanted : 0 < slots ∨ 0 < missing)
      (none : deck.draw? = none) :
      DrawsIn slots missing 0 deck ⟨[], deck.ready, some .emptyDeck⟩
  | draw {slots missing draws : Nat} {deck rest : Deck} {face : Face} {d : Drawn}
      (wanted : 0 < slots ∨ 0 < missing) (drawn : deck.draw? = some (face, rest))
      (later : DrawsIn (slots - 1) (missing - countNumbers [face]) draws rest d) :
      DrawsIn slots missing (draws + 1) deck (d.after [face])

/-- A drawing ends in one way at most. -/
theorem DrawsIn.unique {draws' : Nat} {d' : Drawn} (h : DrawsIn slots missing draws deck d)
    (h' : DrawsIn slots missing draws' deck d') : draws = draws' ∧ d = d' := by
  induction h generalizing draws' d' with
  | served =>
    cases h' with
    | served => exact ⟨rfl, rfl⟩
    | stopped wanted | draw wanted => omega
  | stopped wanted none =>
    cases h' with
    | served => omega
    | stopped => exact ⟨rfl, rfl⟩
    | draw _ drawn => cases none.symm.trans drawn
  | draw wanted drawn later ih =>
    cases h' with
    | served => omega
    | stopped _ none => cases none.symm.trans drawn
    | draw _ drawn' later' =>
      cases drawn.symm.trans drawn'
      obtain ⟨rfl, rfl⟩ := ih later'
      exact ⟨rfl, rfl⟩

/-- A drawing that ends with an error ran out of cards. -/
theorem DrawsIn.eq_emptyDeck (h : DrawsIn slots missing draws deck d) (failed : d.stopped = some e) :
    e = .emptyDeck := by
  induction h with
  | served => cases failed
  | stopped =>
    cases failed
    rfl
  | draw _ _ _ ih => exact ih failed

/-- A drawing that ends well has brought all the numbers that were missing. -/
theorem DrawsIn.missing_le (h : DrawsIn slots missing draws deck d) (done : d.stopped = none) :
    missing ≤ countNumbers d.faces := by
  induction h with
  | served => exact Nat.zero_le _
  | stopped => cases done
  | @draw _ missing _ _ _ face d _ _ _ ih =>
    have rest : missing - countNumbers [face] ≤ countNumbers d.faces := ih done
    rw [countNumbers_after]
    omega

/-! ## Where no drawing ends -/

/-- From a make without numbers only those of the pile are drawn. -/
theorem countP_of_draw? (numberless : deck.copiesPerValue ≤ 0)
    (drawn : deck.draw? = some (face, rest)) :
    countNumbers [face] + rest.pile.countP showsNumber = deck.pile.countP showsNumber := by
  obtain ⟨card, after, top, rfl, rfl⟩ := draw?_eq_some drawn
  have ready_eq : deck.ready.pile.countP showsNumber = deck.pile.countP showsNumber := by
    unfold ready
    split
    · next empty =>
      rw [(isShuffle_build deck).countP_showsNumber, List.isEmpty_iff.mp empty, List.countP_nil]
      omega
    · rfl
  rw [← ready_eq, top, List.countP_cons, Nat.add_comm]
  simp [countNumbers, showsNumber]

/-- More numbers are missing than the pile has, and none comes with a fresh deck, only other
cards. -/
structure Lacks (deck : Deck) (missing : Nat) : Prop where
  few : deck.pile.countP showsNumber < missing
  numberless : deck.copiesPerValue ≤ 0
  cards : deck.fullFaces ≠ []

/-- A draw brings a card unless a full deck has none. -/
theorem fullFaces_of_draw? (none : deck.draw? = none) : deck.fullFaces = [] := by
  by_contra cards
  have empty := draw?_eq_none_iff.mp none
  unfold ready at empty
  split at empty
  · exact build_pile_ne_nil cards empty
  · next filled => simp [empty] at filled

/-- Where numbers lack a draw brings a card, and numbers lack again. -/
theorem Lacks.draw (h : deck.Lacks missing) : ∃ face rest, deck.draw? = some (face, rest) ∧
    rest.Lacks (missing - countNumbers [face]) := by
  cases drawn : deck.draw? with
  | none => exact absurd (fullFaces_of_draw? drawn) h.cards
  | some card =>
    obtain ⟨face, rest⟩ := card
    have same := sameMake_draw? drawn
    have few := h.few
    have counted := countP_of_draw? h.numberless drawn
    refine ⟨face, rest, rfl, by omega, ?_, ?_⟩
    · rw [same.copiesPerValue]
      exact h.numberless
    · rw [same.fullFaces]
      exact h.cards

theorem Lacks.not_drawsIn (h : deck.Lacks missing) : ¬ DrawsIn slots missing draws deck d := by
  intro ends
  -- no first draw is the last one, and the shorter drawing behind it starts where numbers lack
  induction ends with
  | served => exact Nat.not_lt_zero _ h.few
  | stopped _ none =>
    obtain ⟨face, rest, drawn, -⟩ := h.draw
    cases none.symm.trans drawn
  | draw _ drawn _ ih =>
    obtain ⟨face, rest, drawn', lacks⟩ := h.draw
    cases drawn.symm.trans drawn'
    exact ih lacks

/-! ## Drawings in parts -/

/-- A first part of a drawing: where it runs out of cards the drawing ends, else the drawing goes on
with the slots and numbers that are left. -/
structure Opens (slots missing slots' missing' : Nat) (deck : Deck) (first : Drawn) : Prop where
  stops : first.stopped = some .emptyDeck → DrawsIn slots missing first.faces.length deck first
  goes_on : first.stopped = none → ∀ draws d, DrawsIn slots' missing' draws first.deck d →
    DrawsIn slots missing (first.faces.length + draws) deck (d.after first.faces)

theorem opens_nil (slots missing : Nat) (deck : Deck) :
    Opens slots missing slots missing deck ⟨[], deck, none⟩ := by
  refine ⟨nofun, fun _ draws d ends => ?_⟩
  rw [List.length_nil, Nat.zero_add]
  exact ends

theorem opens_singleton (wanted : 0 < slots ∨ 0 < missing)
    (drawn : deck.draw? = some (face, rest)) :
    Opens slots missing (slots - 1) (missing - countNumbers [face]) deck ⟨[face], rest, none⟩ := by
  refine ⟨nofun, fun _ draws d ends => ?_⟩
  rw [List.length_singleton, Nat.add_comm]
  exact .draw wanted drawn ends

theorem Opens.trans (h : Opens slots missing slots' missing' deck first)
    (done : first.stopped = none)
    (h' : Opens slots' missing' slots'' missing'' first.deck second) :
    Opens slots missing slots'' missing'' deck (second.after first.faces) := by
  have length : (second.after first.faces).faces.length =
      first.faces.length + second.faces.length := List.length_append
  constructor
  · intro stopped
    rw [length]
    exact h.goes_on done _ _ (h'.stops stopped)
  · intro done' draws d ends
    have later := h.goes_on done _ _ (h'.goes_on done' draws d ends)
    rw [length, Nat.add_assoc]
    simpa only [Drawn.after, List.append_assoc] using later

/-- Behind a part that stopped nothing is left to go on with. -/
theorem Opens.of_stopped (h : Opens slots missing slots' missing' deck first)
    (stopped : first.stopped = some e) : Opens slots missing slots'' missing'' deck first :=
  ⟨h.stops, fun done => by cases stopped.symm.trans done⟩

theorem drawCards_of_none (none : deck.draw? = none) :
    drawCards (count + 1) deck = ⟨[], deck.ready, some .emptyDeck⟩ := by
  rw [drawCards, none]

theorem drawCards_of_some (drawn : deck.draw? = some (face, rest)) :
    drawCards (count + 1) deck = (drawCards count rest).after [face] := by
  rw [drawCards, drawn]
  rfl

theorem opens_drawCards (count slots missing : Nat) (deck : Deck) :
    Opens (count + slots) missing slots (missing - countNumbers (drawCards count deck).faces) deck
      (drawCards count deck) := by
  induction count generalizing deck missing with
  | zero =>
    rw [Nat.zero_add]
    exact opens_nil slots missing deck
  | succ count ih =>
    have wanted : 0 < count + 1 + slots ∨ 0 < missing := .inl (by omega)
    cases drawn : deck.draw? with
    | none =>
      rw [drawCards_of_none drawn]
      exact ⟨fun _ => .stopped wanted drawn, nofun⟩
    | some card =>
      obtain ⟨face, rest⟩ := card
      have left : count + 1 + slots - 1 = count + slots := by omega
      have top := opens_singleton wanted drawn
      rw [left] at top
      have both := top.trans rfl (ih (missing - countNumbers [face]) rest)
      rw [Nat.sub_sub, ← countNumbers_after] at both
      rw [drawCards_of_some drawn]
      exact both

theorem opens_passed {before after : List PileCard} (pile : deck.pile = before ++ after)
    (others : before.countP showsNumber = 0) (wanted : 0 < missing) :
    Opens 0 missing 0 missing deck
      ⟨before.map (·.face), { deck with pile := after }, none⟩ := by
  induction before generalizing deck with
  | nil =>
    subst pile
    exact opens_nil 0 missing deck
  | cons card before ih =>
    obtain ⟨others, none⟩ : before.countP showsNumber = 0 ∧ showsNumber card = false := by
      simpa [List.countP_cons] using others
    have other : countNumbers [card.face] = 0 := by
      simpa [countNumbers, showsNumber] using none
    have top : Opens 0 missing 0 (missing - countNumbers [card.face]) deck _ :=
      opens_singleton (.inr wanted) (draw?_of_pile pile)
    rw [other] at top
    exact top.trans rfl (ih rfl others)

theorem opens_found {before after : List PileCard} {card : PileCard}
    (pile : deck.pile = before ++ card :: after)
    (others : before.countP showsNumber = 0) (number : showsNumber card = true)
    (wanted : 0 < missing) :
    Opens 0 missing 0 (missing - 1) deck
      ⟨before.map (·.face) ++ [card.face], { deck with pile := after }, none⟩ := by
  have one : countNumbers [card.face] = 1 := by
    simpa [countNumbers, showsNumber] using number
  have last : Opens 0 missing 0 (missing - countNumbers [card.face])
      { deck with pile := card :: after } _ :=
    opens_singleton (.inr wanted) (draw?_of_pile rfl)
  rw [one] at last
  exact (opens_passed pile others wanted).trans rfl last

/-- A draw from an empty pile is a draw from a fresh deck. -/
theorem DrawsIn.of_build (h : DrawsIn slots missing draws deck.build d)
    (wanted : 0 < slots ∨ 0 < missing) (empty : deck.pile = []) (filled : deck.build.pile ≠ []) :
    DrawsIn slots missing draws deck d := by
  have same : deck.build.draw? = deck.draw? := by
    simp [draw?, ready, empty, filled]
  cases h with
  | served => omega
  | stopped _ none =>
    have bare := draw?_eq_none_iff.mp none
    simp [ready, filled] at bare
  | draw wanted drawn later => exact .draw wanted (same ▸ drawn) later

theorem Opens.of_build {faces : List Face}
    (h : Opens slots missing slots' missing' deck.build ⟨faces, rest, none⟩)
    (wanted : 0 < slots ∨ 0 < missing) (empty : deck.pile = []) (filled : deck.build.pile ≠ []) :
    Opens slots missing slots' missing' deck ⟨faces, rest, none⟩ :=
  ⟨nofun, fun _ draws d ends => (h.goes_on rfl draws d ends).of_build wanted empty filled⟩

theorem opens_drawToNumber (deck : Deck) (wanted : 0 < missing) :
    Opens 0 missing 0 (missing - 1) deck deck.drawToNumber := by
  unfold drawToNumber
  rcases deck.drawFromPile_cases with
    ⟨before, card, after, pile, others, number, eq⟩ | ⟨others, eq⟩
  · simp only [eq, if_true]
    exact opens_found pile others number wanted
  -- without a number the whole pile is passed, and the drawing goes on from a fresh deck
  simp only [eq, Bool.false_eq_true, if_false]
  have passed : Opens 0 missing 0 missing deck ⟨_, { deck with pile := [] }, none⟩ :=
    opens_passed (List.append_nil _).symm others wanted
  set bare : Deck := { deck with pile := [] }
  split
  · next none =>
    have empty : bare.build.pile = [] := List.isEmpty_iff.mp none
    have ends : DrawsIn 0 missing 0 bare ⟨[], bare.build, some .emptyDeck⟩ :=
      .stopped (.inr wanted) (draw?_eq_none_iff.mpr empty)
    refine ⟨fun _ => ?_, nofun⟩
    simpa [Drawn.after] using passed.goes_on rfl _ _ ends
  next some =>
  have filled : bare.build.pile ≠ [] := by simpa using some
  rcases bare.build.drawFromPile_cases with
    ⟨before, card, after, pile, others', number, eq'⟩ | ⟨-, eq'⟩
  · simp only [eq', if_true]
    have found := (opens_found pile others' number wanted).of_build (.inr wanted) rfl filled
    exact passed.trans rfl found
  · simp only [eq', Bool.false_eq_true, if_false]
    exact ⟨nofun, nofun⟩

theorem opens_drawNumbers (deck : Deck) (enough : count ≤ missing) :
    Opens 0 missing 0 (missing - count) deck (drawNumbers count deck) := by
  induction count generalizing deck missing with
  | zero => exact opens_nil 0 missing deck
  | succ count ih =>
    have top : Opens 0 missing 0 (missing - 1) deck _ := opens_drawToNumber deck (by omega)
    unfold drawNumbers
    cases stopped : deck.drawToNumber.stopped with
    | some e =>
      simp only [stopped]
      exact top.of_stopped stopped
    | none =>
      simp only [stopped]
      have later : count ≤ missing - 1 := by omega
      have both := top.trans stopped (ih deck.drawToNumber.deck later)
      rw [Nat.sub_sub, Nat.add_comm] at both
      exact both

/-! ## Where a drawing ends -/

theorem opens_drawSlots (deck : Deck) (slots numbers : Int) :
    Opens slots.toNat numbers.toNat 0 0 deck (deck.drawSlots slots numbers) := by
  have first := opens_drawCards slots.toNat 0 numbers.toNat deck
  unfold drawSlots
  cases stopped : (drawCards slots.toNat deck).stopped with
  | some e =>
    simp only [stopped]
    exact first.of_stopped stopped
  | none =>
    simp only [stopped]
    have left : (numbers - countNumbers (drawCards slots.toNat deck).faces).toNat =
        numbers.toNat - countNumbers (drawCards slots.toNat deck).faces := by omega
    have rest := opens_drawNumbers (drawCards slots.toNat deck).deck left.le
    rw [left.symm, Nat.sub_self] at rest
    rw [← left] at first
    exact first.trans stopped rest

/-- Unless it finds no end, a drawing card by card ends as `drawSlots` says. -/
theorem drawsIn_drawSlots {slots numbers : Int}
    (ends : (deck.drawSlots slots numbers).stopped ≠ some .endlessDeal) :
    DrawsIn slots.toNat numbers.toNat (deck.drawSlots slots numbers).faces.length deck
      (deck.drawSlots slots numbers) := by
  have opens := opens_drawSlots deck slots numbers
  cases stopped : (deck.drawSlots slots numbers).stopped with
  | none =>
    simpa [Drawn.after, ← stopped] using opens.goes_on stopped _ _ .served
  | some e =>
    rcases (stops_of_drawSlots stopped).cause with rfl | rfl
    · exact opens.stops stopped
    · exact absurd stopped ends

/-- From a make without numbers, what comes and what stays are the numbers of the pile. -/
theorem countP_of_drawCards (numberless : deck.copiesPerValue ≤ 0)
    (done : (drawCards count deck).stopped = none) :
    countNumbers (drawCards count deck).faces +
      (drawCards count deck).deck.pile.countP showsNumber = deck.pile.countP showsNumber := by
  induction count generalizing deck with
  | zero => exact Nat.zero_add _
  | succ count ih =>
    cases drawn : deck.draw? with
    | none =>
      rw [drawCards_of_none drawn] at done
      cases done
    | some card =>
      obtain ⟨face, rest⟩ := card
      rw [drawCards_of_some drawn] at done ⊢
      have later := ih ((sameMake_draw? drawn).copiesPerValue ▸ numberless) done
      have top := countP_of_draw? numberless drawn
      rw [countNumbers_after]
      calc countNumbers [face] + countNumbers (drawCards count rest).faces +
            (drawCards count rest).deck.pile.countP showsNumber
        _ = countNumbers [face] + rest.pile.countP showsNumber := by rw [Nat.add_assoc, later]
        _ = deck.pile.countP showsNumber := top

theorem stopped_drawCards_ne (count : Nat) (deck : Deck) :
    (drawCards count deck).stopped ≠ some .endlessDeal := by
  induction count generalizing deck with
  | zero => exact nofun
  | succ count ih =>
    unfold drawCards
    split
    · exact nofun
    · exact ih _

theorem cards_of_drawToNumber (endless : deck.drawToNumber.stopped = some .endlessDeal) :
    deck.fullFaces ≠ [] := by
  intro none
  unfold drawToNumber at endless
  dsimp only at endless
  split at endless
  · cases endless
  have same := (sameMake_drawFromPile deck).fullFaces
  split at endless
  · cases endless
  next filled =>
  simp [build_pile_eq_nil (same.trans none)] at filled

theorem cards_of_drawNumbers (endless : (drawNumbers count deck).stopped = some .endlessDeal) :
    deck.fullFaces ≠ [] := by
  induction count generalizing deck with
  | zero => cases endless
  | succ count ih =>
    unfold drawNumbers at endless
    dsimp only at endless
    split at endless
    · exact cards_of_drawToNumber endless
    · rw [← (sameMake_drawToNumber deck).fullFaces]
      exact ih endless

theorem lacks_of_drawNumbers (endless : (drawNumbers count deck).stopped = some .endlessDeal) :
    deck.Lacks count := by
  refine ⟨?_, (stops_of_drawNumbers endless).numberless, cards_of_drawNumbers endless⟩
  by_contra enough
  obtain ⟨before, after, -, -, drawn⟩ := exists_drawNumbers (not_lt.mp enough)
  rw [drawn] at endless
  cases endless

theorem lacks_of_drawSlots {slots numbers : Int}
    (endless : (deck.drawSlots slots numbers).stopped = some .endlessDeal) :
    deck.Lacks numbers.toNat := by
  have numberless := (stops_of_drawSlots endless).numberless
  unfold drawSlots at endless
  dsimp only at endless
  split at endless
  · exact absurd endless (stopped_drawCards_ne _ deck)
  next done =>
  have lacks := lacks_of_drawNumbers endless
  have few := lacks.few
  have counted := countP_of_drawCards numberless done
  refine ⟨?_, numberless, ?_⟩
  · rw [countNumbers] at counted
    omega
  · rw [← (sameMake_drawCards slots.toNat deck).fullFaces]
    exact lacks.cards

/-- A drawing ends unless numbers lack, and then it ends as `drawSlots` says. -/
theorem drawsIn_iff {slots numbers : Int} : DrawsIn slots.toNat numbers.toNat draws deck d ↔
    ¬ deck.Lacks numbers.toNat ∧ draws = d.faces.length ∧ d = deck.drawSlots slots numbers := by
  constructor
  · intro ends
    have found : ¬ deck.Lacks numbers.toNat := fun lacks => lacks.not_drawsIn ends
    obtain ⟨rfl, rfl⟩ := ends.unique (drawsIn_drawSlots (found ∘ lacks_of_drawSlots))
    exact ⟨found, rfl, rfl⟩
  · rintro ⟨found, rfl, rfl⟩
    exact drawsIn_drawSlots (found ∘ lacks_of_drawSlots)

theorem stopped_drawSlots_iff {slots numbers : Int} :
    (deck.drawSlots slots numbers).stopped = some .endlessDeal ↔ deck.Lacks numbers.toNat := by
  refine ⟨lacks_of_drawSlots, fun lacks => ?_⟩
  by_contra ends
  exact lacks.not_drawsIn (drawsIn_drawSlots ends)

/-! ## Decks without cards -/

/-- A drawing runs out of cards only where a full deck has none. -/
theorem DrawsIn.fullFaces (h : DrawsIn slots missing draws deck d) (failed : d.stopped = some e) :
    deck.fullFaces = [] := by
  induction h with
  | served => cases failed
  | stopped _ none => exact fullFaces_of_draw? none
  | draw _ drawn _ ih =>
    rw [← (sameMake_draw? drawn).fullFaces]
    exact ih failed

theorem draw?_build_eq_none (bare : deck.fullFaces = []) : deck.build.draw? = none := by
  refine draw?_eq_none_iff.mpr ?_
  unfold ready
  split
  · exact @build_pile_eq_nil deck.build bare
  · exact build_pile_eq_nil bare

/-- Where no card can be drawn, a drawing brings none and fails if it wants any. -/
theorem DrawsIn.of_none (h : DrawsIn slots missing draws deck d) (none : deck.draw? = none) :
    d.faces = [] ∧ (d.stopped = .none ↔ slots = 0 ∧ missing = 0) := by
  cases h with
  | served => exact ⟨rfl, fun _ => ⟨rfl, rfl⟩, fun _ => rfl⟩
  | stopped wanted => exact ⟨rfl, nofun, by omega⟩
  | draw _ drawn => cases none.symm.trans drawn

theorem DrawsIn.stopped_of_nothing (h : DrawsIn 0 0 draws deck d) : d.stopped = .none := by
  cases h with
  | served => rfl
  | stopped wanted | draw wanted => omega

end NumberDuel.Deck
