import NumberDuel.Proofs.Builder.Run
import NumberDuel.Proofs.Deck.Row
import NumberDuel.Proofs.Game.Ending

/-!
# What a deal hands out

Both hands are dealt from one row of decks, whose orders are left open here: they are any that
shuffling can bring. Each hand gets the operators of the rules and its cards from the row, with as
many numbers as the rules want, or more where the slots alone bring more. As long as the first deck
lasts, its cards are those of the two hands and those that are left.
-/

namespace NumberDuel

def GameConfig.copies (config : GameConfig) : Face → Nat
  | .number _ => config.numberCopiesPerValue.toNat
  | .operator _ => 0
  | .special .multiply => config.multiplyCardsPerRound.toNat
  | .special .squareRoot => config.squareRootCardsPerRound.toNat

theorem Deck.OfRules.copies_eq {config : GameConfig} {deck : Deck} (rules : deck.OfRules config)
    (face : Face) : deck.copies face = config.copies face := by
  obtain ⟨copies, multiplies, roots⟩ := rules
  rcases face with _ | _ | _ | _ <;> simp [Deck.copies, GameConfig.copies, *]

namespace Hand

def slotFaces (hand : Hand) : List Face :=
  hand.numberValues.map .number ++ hand.specials.map fun card => .special card.face

/-- The faces of all cards, those of the operators first. -/
theorem faces_cards_perm (hand : Hand) : (hand.cards.map (·.face)).Perm
    (hand.operatorValues.map .operator ++ hand.slotFaces) := by
  have piles : hand.cards.map (·.face) = hand.numberValues.map .number ++
      hand.operatorValues.map .operator ++ hand.specials.map fun card => .special card.face := by
    simp [cards, Copy.map, numberValues, operatorValues, Function.comp_def]
  rw [piles, slotFaces, ← List.append_assoc]
  exact List.perm_append_comm.append_right _

theorem faces_dealAll (faces : List Face) (hand : Hand) :
    ((faces.foldl Hand.deal hand).cards.map (·.face)).Perm (hand.cards.map (·.face) ++ faces) := by
  induction faces generalizing hand with
  | nil => simp
  | cons face faces ih =>
    refine (ih (hand.deal face)).trans ?_
    have added := (cards_add_perm hand ⟨hand.size, face⟩).map (·.face)
    rw [List.map_append] at added
    exact (added.append_right faces).trans (.of_eq (List.append_assoc ..))

end Hand

namespace Game

variable {config : GameConfig} {g g' : Game} {orders : Nat → List PileCard}
  {drawn mine theirs rest pile : List PileCard} {brought brought' : Nat} {asked bet : Option Int}

/-! ## One hand -/

/-- A hand made of the operators of the rules and of the cards drawn for it, of which there are as
many as the rules want. -/
structure HandsOut (config : GameConfig) (drawn : List PileCard) (hand : Hand) : Prop where
  operators : hand.operatorValues = config.basicOperators
  slots : hand.slotFaces.Perm (drawn.map (·.face))
  numbers : (hand.numbers.length : Int) = max config.numberCardsPerHand
    ((drawn.take config.initialCardCount.toNat).countP Deck.showsNumber)
  long : config.initialCardCount ≤ drawn.length
  stops : ∀ k : Nat, config.initialCardCount ≤ k → k < drawn.length →
    ((drawn.take k).countP Deck.showsNumber : Int) < config.numberCardsPerHand
  unconsumed : ∀ card ∈ drawn, card.consumed = false
  fresh : ∀ b : Builder, ∀ card ∈ hand.specials,
    (b.setHand (some hand)).consumed.has card = false

/-- The slots and the numbers of one hand, drawn from a row of decks. -/
def HandFrom (config : GameConfig) (orders : Nat → List PileCard) (pile : List PileCard)
    (brought : Nat) (drawn rest : List PileCard) (brought' : Nat) : Prop :=
  Deck.TakesFrom orders config.initialCardCount.toNat config.numberCardsPerHand.toNat pile brought
    drawn rest brought'

theorem slotFaces_handOf (config : GameConfig)
    (others : ∀ card ∈ drawn, card.face.kind ≠ .operator) :
    (handOf config drawn).slotFaces.Perm (drawn.map (·.face)) := by
  have dealt := Hand.faces_dealAll (config.basicOperators.map .operator ++ drawn.map (·.face)) {}
  have held := (handOf config drawn).faces_cards_perm
  rw [operatorValues_handOf config others] at held
  exact (List.perm_append_left_iff _).mp (held.symm.trans dealt)

theorem HandFrom.handsOut (h : HandFrom config orders pile brought drawn rest brought')
    (plain : ∀ card ∈ drawn, card.face.kind ≠ .operator ∧ card.consumed = false) :
    HandsOut config drawn (handOf config drawn) where
  operators := operatorValues_handOf config fun card hc => (plain card hc).1
  slots := slotFaces_handOf config fun card hc => (plain card hc).1
  numbers := by
    have counted := h.countP_eq
    rw [length_numbers_handOf, counted]
    omega
  long := by
    have long := h.slots_le
    omega
  stops := by
    intro k behind before
    have open_still := h.countP_take_lt (k := k) (by omega) before
    omega
  unconsumed := fun card hc => (plain card hc).2
  fresh := by
    intro b card hc
    have built := Builder.built_setHand (handOf config drawn) b
    exact (built.consumed card hc).trans rfl

/-! ## Both hands -/

/-- A deal whose fresh decks come in these orders, the first one at its start: what is drawn for the
two hands, what is left of the last deck that was brought, how many there were, and the match
behind the deal. -/
inductive DealtFrom (g : Game) (orders : Nat → List PileCard) (asked bet : Option Int) :
    (mine theirs rest : List PileCard) → (brought : Nat) → Game → Prop
  | mk {mine theirs pile rest : List PileCard} {brought brought' : Nat} {aim : Int}
      {random chooser : Random.Twister} {kept : Array Note}
      (offered : aim ∈ g.targetsFor asked)
      (player : HandFrom g.config orders (orders 0) 1 mine pile brought)
      (ai : HandFrom g.config orders pile brought theirs rest brought') :
      DealtFrom g orders asked bet mine theirs rest brought'
        (({ g.tableSet chooser aim bet kept with
            playerHand := handOf g.config mine
            aiHand := handOf g.config theirs
            deck := { g.deck with pile := rest, random := random } } : Game).openRound aim)

/-- The two hands and what is left are the decks in a row. -/
theorem DealtFrom.row (h : DealtFrom g orders asked bet mine theirs rest brought g') :
    mine ++ theirs ++ rest = (List.range brought).flatMap orders := by
  obtain ⟨-, player, ai⟩ := h
  have first : [] ++ orders 0 = (List.range 1).flatMap orders := by simp
  exact ai.row (player.row first)

/-- No card of the row is an operator or consumed. -/
theorem DealtFrom.plain (h : DealtFrom g orders asked bet mine theirs rest brought g')
    (shuffled : ∀ i, g.deck.IsShuffle (orders i)) :
    ∀ card ∈ mine ++ theirs ++ rest, card.face.kind ≠ .operator ∧ card.consumed = false := by
  rw [h.row]
  intro card hc
  obtain ⟨i, -, hi⟩ := List.mem_flatMap.mp hc
  refine ⟨(shuffled i).kind_ne_operator card hi, ?_⟩
  obtain ⟨face, -, rfl⟩ := List.mem_map.mp ((shuffled i).subset hi)
  rfl

theorem DealtFrom.handsOut (h : DealtFrom g orders asked bet mine theirs rest brought g')
    (shuffled : ∀ i, g.deck.IsShuffle (orders i)) :
    HandsOut g.config mine g'.playerHand ∧ HandsOut g.config theirs g'.aiHand := by
  have plain := h.plain shuffled
  obtain ⟨-, player, ai⟩ := h
  constructor
  · exact player.handsOut fun card hc => plain card (by simp [hc])
  · exact ai.handsOut fun card hc => plain card (by simp [hc])

/-- As long as the first deck lasts, the cards of the hands and those that are left are all of
it. -/
theorem DealtFrom.count (h : DealtFrom g orders asked bet mine theirs rest 1 g')
    (rules : g.deck.OfRules g.config) (shuffled : ∀ i, g.deck.IsShuffle (orders i)) (face : Face) :
    (g'.playerHand.slotFaces ++ g'.aiHand.slotFaces ++ g'.deck.pile.map (·.face)).count face =
      g.config.copies face := by
  obtain ⟨player, ai⟩ := h.handsOut shuffled
  have left : g'.deck.pile = rest := by
    obtain ⟨-, -, -⟩ := h
    rfl
  have row : mine ++ theirs ++ rest = orders 0 := by
    rw [h.row]
    exact List.append_nil _
  have held : (g'.playerHand.slotFaces ++ g'.aiHand.slotFaces ++ g'.deck.pile.map (·.face)).Perm
      ((orders 0).map (·.face)) := by
    rw [left, ← row, List.map_append, List.map_append]
    exact (player.slots.append ai.slots).append_right _
  have full : ((orders 0).map (·.face)).Perm g.deck.fullFaces := by
    have faces := (shuffled 0).map (·.face)
    rw [List.map_map, Function.comp_def, List.map_id'] at faces
    exact faces
  rw [(held.trans full).count_eq, Deck.count_fullFaces, rules.copies_eq]

/-- Where decks have numbers a deal is done whatever their orders are. -/
theorem exists_dealtFrom (copies : 1 ≤ g.config.numberCopiesPerValue)
    (rules : g.deck.OfRules g.config) (aims : g.targetsFor asked ≠ [])
    (shuffled : ∀ i, g.deck.IsShuffle (orders i)) (bet : Option Int) :
    ∃ mine theirs rest brought g', DealtFrom g orders asked bet mine theirs rest brought g' := by
  have numbers (i : Nat) : 0 < (orders i).countP Deck.showsNumber := by
    rw [(shuffled i).countP_showsNumber, rules.copies]
    omega
  obtain ⟨aim, offered⟩ := List.exists_mem_of_ne_nil _ aims
  obtain ⟨mine, pile, brought, player⟩ := Deck.exists_takesFrom numbers
    g.config.initialCardCount.toNat g.config.numberCardsPerHand.toNat (orders 0) 1
  obtain ⟨theirs, rest, brought', ai⟩ := Deck.exists_takesFrom numbers
    g.config.initialCardCount.toNat g.config.numberCardsPerHand.toNat pile brought
  exact ⟨mine, theirs, rest, brought', _,
    @DealtFrom.mk _ _ _ bet _ _ _ _ _ _ _ g.deck.random g.chooser g.notes offered player ai⟩

/-! ## The deal of the random source -/

theorem HandIn.handFrom {draws : Nat} {deck : Deck} {d : Deck.Drawn}
    (h : HandIn config draws deck d) (start : Deck) (brought : Nat) (done : d.stopped = none)
    (state : deck = { Deck.build^[brought] start with pile := deck.pile }) :
    ∃ drawn rest brought',
      HandFrom config start.fresh deck.pile brought drawn rest brought' ∧
        (dealHand config deck).1 = handOf config drawn ∧
        d.deck = { Deck.build^[brought'] start with pile := rest } := by
  obtain ⟨drawn, rest, brought', taken, faces, left⟩ := Deck.takesFrom_of_drawsIn h done state
  obtain ⟨-, -, rfl⟩ := handIn_iff.mp h
  refine ⟨drawn, rest, brought', taken, ?_, left⟩
  rw [handOf, ← faces, dealHand_eq]

/-- What a deal comes to is what it comes to from the orders that its random source brings. -/
theorem DealsIn.dealtFrom {draws : Nat} (h : g.DealsIn draws (.ok ()))
    (dealt : g.deal asked bet = (g', .ok ())) :
    ∃ mine theirs rest brought,
      DealtFrom g g.deck.fresh asked bet mine theirs rest brought g' := by
  obtain ⟨-, chooser, kept, kept', aim, offered, rfl⟩ := deal_ok dealt
  cases h with
  | @dealt _ _ first second player done ai done' =>
    obtain ⟨mine, pile, brought, taken, mine_hand, left⟩ := player.handFrom g.deck 1 done rfl
    obtain ⟨theirs, rest, brought', taken', theirs_hand, left'⟩ :=
      ai.handFrom g.deck brought done' (by rw [left])
    obtain ⟨-, -, rfl⟩ := handIn_iff.mp player
    obtain ⟨-, -, rfl⟩ := handIn_iff.mp ai
    obtain ⟨_, random, make⟩ := Deck.sameMake_iterate_build g.deck brought'
    rw [make] at left'
    rw [left] at taken'
    have hands : (g.tableSet chooser aim bet kept).handsDealt kept' =
        { g.tableSet chooser aim bet kept' with
          playerHand := handOf g.config mine
          aiHand := handOf g.config theirs
          deck := { g.deck with pile := rest, random := random } } := by
      rw [← mine_hand, ← theirs_hand, ← left']
      rfl
    refine ⟨mine, theirs, rest, brought', ?_⟩
    rw [hands]
    exact .mk offered taken taken'

/-! ## Every state of a match -/

namespace Table

/-- In every state of a match that is not over, and whatever orders the shuffled decks have: a deal
is done with some of them, each hand gets the operators of the rules and its cards from their row,
and as long as the first deck lasts no card of it is lost. The random source brings one of these
orders, and then the deal succeeds. -/
theorem hands_of_deal (config : GameConfig) (copies : 1 ≤ config.numberCopiesPerValue)
    (targets : config.targetValues ≠ []) (seed : Int) (preset : String) (calls : List Call)
    (asked bet : Option Int)
    (going : ((start config seed preset).run calls).game.isOver = false) :
    let g := ((start config seed preset).run calls).game
    (∀ orders : Nat → List PileCard, (∀ i, g.deck.IsShuffle (orders i)) →
      (∃ mine theirs rest brought g', DealtFrom g orders asked bet mine theirs rest brought g') ∧
      ∀ mine theirs rest brought g', DealtFrom g orders asked bet mine theirs rest brought g' →
        HandsOut config mine g'.playerHand ∧ HandsOut config theirs g'.aiHand ∧
          mine ++ theirs ++ rest = (List.range brought).flatMap orders ∧
          (brought = 1 → ∀ face, (g'.playerHand.slotFaces ++ g'.aiHand.slotFaces ++
            g'.deck.pile.map (·.face)).count face = config.copies face)) ∧
    ∃ orders mine theirs rest brought g', (∀ i, g.deck.IsShuffle (orders i)) ∧
      g.deal asked bet = (g', .ok ()) ∧
      DealtFrom g orders asked bet mine theirs rest brought g' := by
  intro g
  obtain ⟨rules, deck⟩ : Keeps config g :=
    keeps_run ⟨config_start config seed preset, ofRules_start config seed preset⟩ calls
  replace going : g.isOver = false := going
  clear_value g
  subst rules
  have aims : g.targetsFor asked ≠ [] := by
    cases asked with
    | some target => exact List.cons_ne_nil target []
    | none => exact targets
  refine ⟨fun orders shuffled => ⟨exists_dealtFrom copies deck aims shuffled bet, ?_⟩, ?_⟩
  · intro mine theirs rest brought g' h
    obtain ⟨player, ai⟩ := h.handsOut shuffled
    refine ⟨player, ai, h.row, ?_⟩
    rintro rfl face
    exact h.count deck shuffled face
  · obtain ⟨draws, g', ends, dealt⟩ := exists_deal_ok copies deck going aims bet
    obtain ⟨mine, theirs, rest, brought, h⟩ := ends.dealtFrom dealt
    exact ⟨_, mine, theirs, rest, brought, g', Deck.isShuffle_fresh g.deck, dealt, h⟩

/-- Four slots and five numbers for each hand from decks with one card of each number. -/
theorem hands_of_deal_five :
    let config : GameConfig :=
      { initialCardCount := 4, numberCardsPerHand := 5, numberCopiesPerValue := 1 }
    let g := ((start config 7 "standard").run []).game
    1 ≤ config.numberCopiesPerValue ∧ config.targetValues ≠ [] ∧ g.isOver = false ∧
      ∃ g', g.deal none none = (g', .ok ()) ∧
        g'.playerHand.operatorValues = config.basicOperators ∧ g'.playerHand.numbers.length = 5 ∧
        g'.aiHand.operatorValues = config.basicOperators ∧ g'.aiHand.numbers.length = 5 := by
  intro config g
  have copies : 1 ≤ config.numberCopiesPerValue := by decide
  have targets : config.targetValues ≠ [] := by decide
  have going : g.isOver = false := isOver_start (by decide) (by decide) 7 "standard"
  obtain ⟨always, orders, mine, theirs, rest, brought, g', shuffled, dealt, h⟩ :=
    hands_of_deal config copies targets 7 "standard" [] none none going
  obtain ⟨-, each⟩ := always orders shuffled
  obtain ⟨player, ai, -⟩ := each mine theirs rest brought g' h
  -- four slots have no more numbers than five
  have five {drawn : List PileCard} {hand : Hand} (out : HandsOut config drawn hand) :
      hand.numbers.length = 5 := by
    have few : (drawn.take 4).countP Deck.showsNumber ≤ 4 :=
      List.countP_le_length.trans (List.length_take_le 4 drawn)
    have numbers : (hand.numbers.length : Int) =
        max (5 : Int) ((drawn.take 4).countP Deck.showsNumber : Nat) := out.numbers
    omega
  exact ⟨copies, targets, going, g', dealt, player.operators, five player, ai.operators, five ai⟩

end Table

end Game

end NumberDuel
