import NumberDuel.Proofs.Deck.Drawing
import NumberDuel.Proofs.Game.Transition
import NumberDuel.Proofs.Strategy.Fallback

/-!
# Dealing by fair rules

Where the rules ask for no more cards than one deck holds, and for no more roots and forced `×`
than a hand has room for, every order of the deck deals two hands on which both strategies
succeed. The order and the target are left open here: they are any that shuffling and choosing
can bring.
-/

namespace NumberDuel

/-- Rules under which no order of the cards leaves a hand without a way to play it. The last two
bounds are wide: they keep every distance to a target finite. -/
structure GameConfig.Fair (config : GameConfig) : Prop where
  slots : config.initialCardCount ≤ config.numberCardsPerHand
  numbers : 2 * config.numberCardsPerHand.toNat ≤ 11 * config.numberCopiesPerValue.toNat
  multiplies : config.multiplyCardsPerRound.toNat < config.numberCardsPerHand.toNat
  roots : config.squareRootCardsPerRound.toNat ≤ config.numberCardsPerHand.toNat
  operators : config.numberCardsPerHand.toNat ≤ config.basicOperators.length + 1
  usable : ∀ op ∈ config.basicOperators.take (config.numberCardsPerHand.toNat - 1),
    op ≠ .multiply ∧ op ≠ .divide
  targets : config.targetValues ≠ []
  few : config.numberCardsPerHand.toNat ≤ 38
  near : ∀ target ∈ config.targetValues,
    ∃ aim, doubleOfInt? target = some aim ∧ Double.Below 950 aim

/-- A deck is made as the rules say, however far its drawing has got. -/
structure Deck.OfRules (config : GameConfig) (deck : Deck) : Prop where
  copies : deck.copiesPerValue = config.numberCopiesPerValue
  multiplies : deck.multiplyCards = config.multiplyCardsPerRound
  roots : deck.rootCards = config.squareRootCardsPerRound

namespace Game

variable {config : GameConfig} {deck : Deck} {pile : List PileCard} {g : Game}

theorem ofRules_start (config : GameConfig) (seed : Int) (preset : String) :
    (start config seed preset).deck.OfRules config := by
  obtain ⟨chooser, random, eq⟩ := start_eq config seed preset
  rw [eq]
  exact ⟨rfl, rfl, rfl⟩

/-! ## The hand that drawn cards make -/

def handOf (config : GameConfig) (drawn : List PileCard) : Hand :=
  (config.basicOperators.map Face.operator ++ drawn.map (·.face)).foldl Hand.deal {}

theorem operatorValues_handOf (config : GameConfig) {drawn : List PileCard}
    (others : ∀ card ∈ drawn, card.face.kind ≠ .operator) :
    (handOf config drawn).operatorValues = config.basicOperators := by
  have none_drawn : (drawn.map (·.face)).filterMap Face.operator? = [] := by
    refine List.filterMap_eq_nil_iff.mpr fun face hf => ?_
    obtain ⟨card, hc, rfl⟩ := List.mem_map.mp hf
    have kind := others card hc
    cases hface : card.face <;> simp_all [Face.kind, Face.operator?]
  rw [handOf, Hand.operatorValues_dealAll, List.filterMap_append, none_drawn, List.append_nil,
    List.filterMap_map]
  exact List.filterMap_some

/-- Of a hand that is dealt only the drawn faces can be numbers. -/
theorem length_numbers_dealAll (config : GameConfig) (faces : List Face) :
    ((config.basicOperators.map Face.operator ++ faces).foldl Hand.deal {}).numbers.length =
      faces.countP (·.kind == .number) := by
  have none_held : (config.basicOperators.map Face.operator).filterMap Face.number? = [] := by
    simp [List.filterMap_map, Function.comp_def, Face.number?]
  have counted : faces.countP (Face.number? · |>.isSome) = faces.countP (·.kind == .number) := by
    refine List.countP_congr fun face _ => ?_
    cases face <;> simp [Face.kind, Face.number?]
  rw [← counted, ← List.length_filterMap_eq_countP, ← List.length_map, ← Hand.numberValues,
    Hand.numberValues_dealAll, List.filterMap_append, none_held]
  rfl

theorem length_numbers_handOf (config : GameConfig) (drawn : List PileCard) :
    (handOf config drawn).numbers.length = drawn.countP Deck.showsNumber := by
  rw [handOf, length_numbers_dealAll, List.countP_map]
  rfl

theorem countSpecial_handOf (config : GameConfig) (drawn : List PileCard) (mark : Special) :
    (handOf config drawn).countSpecial mark = drawn.countP (·.face == .special mark) := by
  have none_held : (config.basicOperators.map Face.operator).countP (· == .special mark) = 0 := by
    simp
  rw [handOf, Hand.countSpecial_dealAll, List.countP_append, none_held, List.countP_map]
  exact (Nat.zero_add _).trans (Nat.zero_add _)

theorem isEnabled_handOf (config : GameConfig) (drawn : List PileCard) (op : Operator) :
    (handOf config drawn).isEnabled op = true := by
  rw [Hand.isEnabled, handOf, Hand.disabled_dealAll]
  rfl

/-- Cards of a shuffled deck with enough numbers among them make a hand that can be played. -/
theorem workable_handOf (fair : config.Fair) (rules : deck.OfRules config)
    (order : deck.IsShuffle pile) {drawn : List PileCard} (sub : drawn.Sublist pile)
    (numbers : drawn.countP Deck.showsNumber = config.numberCardsPerHand.toNat) :
    (handOf config drawn).Workable := by
  have operators : (handOf config drawn).operatorValues = config.basicOperators :=
    operatorValues_handOf config fun card hc => order.kind_ne_operator card (sub.subset hc)
  have length := (length_numbers_handOf config drawn).trans numbers
  have special (mark : Special) :
      (handOf config drawn).countSpecial mark ≤ deck.fullFaces.countP (· == .special mark) := by
    rw [countSpecial_handOf, ← order.countP]
    exact sub.countP_le
  have roots := special .squareRoot
  have multiplies := special .multiply
  rw [Deck.countP_fullFaces_special, rules.roots] at roots
  rw [Deck.countP_fullFaces_special, rules.multiplies] at multiplies
  refine ⟨?_, ?_, ?_, ?_, ?_⟩
  · exact length ▸ fair.few
  · exact length ▸ roots.trans fair.roots
  · exact length ▸ multiplies.trans_lt fair.multiplies
  · have count : (handOf config drawn).operators.length = config.basicOperators.length := by
      rw [← operators, Hand.operatorValues, List.length_map]
    rw [length, count]
    exact fair.operators
  · rw [length, operators]
    intro op hop
    exact ⟨(fair.usable op hop).1, (fair.usable op hop).2, isEnabled_handOf config drawn op⟩

/-! ## Dealing from a shuffled deck -/

/-- One hand from a pile that is part of a shuffled deck. -/
theorem exists_dealHand (fair : config.Fair) (rules : deck.OfRules config)
    (order : deck.IsShuffle pile) (sub : deck.pile.Sublist pile)
    (enough : config.numberCardsPerHand.toNat ≤ deck.pile.countP Deck.showsNumber) :
    ∃ hand before after, dealHand config deck =
        (hand, ⟨before.map (·.face), { deck with pile := after }, none⟩) ∧
      deck.pile = before ++ after ∧
      before.countP Deck.showsNumber = config.numberCardsPerHand.toNat ∧ hand.Workable := by
  obtain ⟨before, after, split, numbers, drawn⟩ := Deck.exists_drawSlots fair.slots enough
  have sub' : before.Sublist pile := (List.sublist_append_left ..).trans (split ▸ sub)
  refine ⟨handOf config before, before, after, ?_, split, numbers,
    workable_handOf fair rules order sub' numbers⟩
  rw [dealHand_eq, drawn, handOf]

/-- A shuffled deck lasts for both hands. -/
theorem exists_dealHands (fair : g.config.Fair) (rules : g.deck.OfRules g.config)
    (order : g.deck.IsShuffle g.deck.pile) (target : Int) :
    ∃ mine theirs after history kept, g.dealHands target =
        ({ g with
            playerHand := mine
            aiHand := theirs
            deck := { g.deck with pile := after }
            dealt := true
            history := history
            notes := kept }, .ok ()) ∧
      mine.Workable ∧ theirs.Workable := by
  have total := order.countP_showsNumber
  have enough := fair.numbers
  rw [rules.copies] at total
  obtain ⟨mine, first, rest, mine_eq, split, numbers, mine_workable⟩ :=
    exists_dealHand fair rules order (.refl _) (by omega)
  rw [split, List.countP_append] at total
  have sub : rest.Sublist g.deck.pile := split ▸ List.sublist_append_right ..
  have rules' : Deck.OfRules g.config { g.deck with pile := rest } := ⟨rules.1, rules.2, rules.3⟩
  obtain ⟨theirs, second, after, theirs_eq, -, -, theirs_workable⟩ :=
    exists_dealHand fair rules' order sub (by dsimp only; omega)
  obtain ⟨history, kept, eq⟩ := dealHands_of_drawn target mine_eq theirs_eq
  exact ⟨mine, theirs, after, history, kept, eq, mine_workable, theirs_workable⟩

/-- What a deal may come to: the full deck in any order, and any of the targets. -/
inductive Deals (g : Game) (bet : Option Int) : Game × Except Error Unit → Prop
  | mk {pile : List PileCard} {target : Int} (order : g.deck.IsShuffle pile)
      (offered : target ∈ g.config.targetValues) (random chooser : Random.Twister) :
      Deals g bet
        ((({ g with
              playerHand := {}
              aiHand := {}
              deck := { g.deck with pile := pile, random := random }
              chooser := chooser
              target := some target } : Game).takeBet bet).dealHands target)

/-- The random source brings one of these outcomes. -/
theorem deals_deal (going : g.isOver = false) (targets : g.config.targetValues ≠ [])
    (bet : Option Int) : Deals g bet (g.deal none bet) := by
  rcases chosen : g.chooser.choose? g.config.targetValues with ⟨_ | target, chooser⟩
  · cases values : g.config.targetValues with
    | nil => exact absurd values targets
    | cons => simp [values, Random.Twister.choose?] at chosen
  · have offered : target ∈ g.config.targetValues :=
      Random.Twister.mem_of_choose? (congrArg Prod.fst chosen)
    have same : g.deal none bet = (({ g.clearTable with
        chooser := chooser
        target := some target } : Game).takeBet bet).dealHands target := by
      have choice : g.clearTable.chooseTarget none =
          .ok (target, { g.clearTable with chooser := chooser }) := by
        simp only [chooseTarget, clearTable, chosen]
      simp only [deal, going, choice, Bool.false_eq_true, if_false]
    rw [same]
    exact .mk (Deck.isShuffle_build g.deck) offered g.deck.build.random chooser

/-- A round that is dealt and can be played; the standing of the match is as it was. -/
structure Ready (g : Game) (bet : Option Int) (dealt : Game) : Prop where
  config : dealt.config = g.config
  playerCredits : dealt.playerCredits = g.playerCredits
  aiCredits : dealt.aiCredits = g.aiCredits
  roundNumber : dealt.roundNumber = g.roundNumber
  results : dealt.results = g.results
  deck : dealt.deck.OfRules g.config
  target : ∃ target ∈ g.config.targetValues, dealt.target = some target
  bet : dealt.bet = g.allowedBet (bet.getD g.config.minBet)
  opened : dealt.dealt = true
  player : dealt.playerHand.Workable
  ai : dealt.aiHand.Workable

/-- By fair rules every outcome of a deal is ready to be played. -/
theorem Deals.exists_ready {bet : Option Int} {outcome : Game × Except Error Unit}
    (deals : Deals g bet outcome) (fair : g.config.Fair) (rules : g.deck.OfRules g.config) :
    ∃ dealt, outcome = (dealt, .ok ()) ∧ Ready g bet dealt := by
  obtain @⟨pile, target, order, offered, random, chooser⟩ := deals
  have rules' : Deck.OfRules g.config { g.deck with pile := pile, random := random } :=
    ⟨rules.copies, rules.multiplies, rules.roots⟩
  obtain ⟨kept, bet_eq⟩ := takeBet_eq bet
    { g with
      playerHand := {}
      aiHand := {}
      deck := { g.deck with pile := pile, random := random }
      chooser := chooser
      target := some target }
  rw [bet_eq]
  obtain ⟨mine, theirs, after, history, kept', eq, mine_works, theirs_works⟩ :=
    exists_dealHands (g :=
      { g with
        playerHand := {}
        aiHand := {}
        deck := { g.deck with pile := pile, random := random }
        chooser := chooser
        target := some target
        bet := g.allowedBet (bet.getD g.config.minBet)
        notes := kept }) fair rules' order target
  refine ⟨_, eq, rfl, rfl, rfl, rfl, rfl, ?_, ⟨target, offered, rfl⟩, rfl, rfl, mine_works,
    theirs_works⟩
  exact ⟨rules.copies, rules.multiplies, rules.roots⟩

end Game

end NumberDuel
