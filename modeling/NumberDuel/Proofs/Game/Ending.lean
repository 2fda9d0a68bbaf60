import NumberDuel.Proofs.Deck.Ending
import NumberDuel.Proofs.Game.Alternation
import NumberDuel.Proofs.Game.Progress

/-!
# Deals that end

Each hand is dealt until it has its numbers, from decks that replace one another. Every deal ends,
well or for want of cards, unless the rules want numbers, have none in their decks, and fill these
decks with special cards. Then no deal ends.
-/

namespace NumberDuel

variable {config : GameConfig} {deck : Deck} {e : Error}

/-! ## Rules by which a deal goes on forever -/

/-- Hands want numbers, and the decks have special cards only. -/
structure GameConfig.Endless (config : GameConfig) : Prop where
  wanted : 0 < config.numberCardsPerHand
  numberless : config.numberCopiesPerValue ≤ 0
  specials : 0 < config.multiplyCardsPerRound ∨ 0 < config.squareRootCardsPerRound

namespace Deck

theorem fullFaces_eq_nil (numbers : deck.copiesPerValue ≤ 0) (multiplies : deck.multiplyCards ≤ 0)
    (roots : deck.rootCards ≤ 0) : deck.fullFaces = [] := by
  rw [fullFaces, Int.toNat_of_nonpos numbers, Int.toNat_of_nonpos multiplies,
    Int.toNat_of_nonpos roots]
  simp

/-- Numbers lack only by such rules, however far the drawing has got. -/
theorem Lacks.endless (h : deck.Lacks config.numberCardsPerHand.toNat)
    (rules : deck.OfRules config) : config.Endless := by
  have few := h.few
  refine ⟨by omega, rules.copies ▸ h.numberless, ?_⟩
  by_contra none
  rw [← rules.multiplies, ← rules.roots] at none
  exact h.cards (fullFaces_eq_nil h.numberless (by omega) (by omega))

/-- By such rules they lack in every fresh deck. -/
theorem lacks_build (endless : config.Endless) (rules : deck.OfRules config) :
    deck.build.Lacks config.numberCardsPerHand.toNat := by
  obtain ⟨wanted, numberless, specials⟩ := endless
  rw [← rules.copies] at numberless
  rw [← rules.multiplies, ← rules.roots] at specials
  refine ⟨?_, numberless, fullFaces_ne_nil (.inr specials)⟩
  rw [(isShuffle_build deck).countP_showsNumber]
  omega

theorem OfRules.of_sameMake {deck' : Deck} (rules : deck.OfRules config)
    (same : deck.SameMake deck') : deck'.OfRules config := by
  obtain ⟨pile, random, rfl⟩ := same
  exact ⟨rules.copies, rules.multiplies, rules.roots⟩

end Deck

namespace Game

variable {g : Game} {draws : Nat} {outcome : Except Error Unit} {asked bet : Option Int}

/-! ## A deal card by card -/

/-- The slots and the numbers of one hand, drawn card by card. -/
def HandIn (config : GameConfig) (draws : Nat) (deck : Deck) (d : Deck.Drawn) : Prop :=
  Deck.DrawsIn config.initialCardCount.toNat config.numberCardsPerHand.toNat draws deck d

/-- Both hands of a match, drawn card by card from a fresh deck: after this many draws the deal is
at its end, with this outcome. -/
inductive DealsIn (g : Game) : (draws : Nat) → Except Error Unit → Prop
  | player_stops {draws : Nat} {first : Deck.Drawn} {e : Error}
      (player : HandIn g.config draws g.deck.build first) (stops : first.stopped = some e) :
      DealsIn g draws (.error e)
  | ai_stops {draws draws' : Nat} {first second : Deck.Drawn} {e : Error}
      (player : HandIn g.config draws g.deck.build first) (done : first.stopped = none)
      (ai : HandIn g.config draws' first.deck second) (stops : second.stopped = some e) :
      DealsIn g (draws + draws') (.error e)
  | dealt {draws draws' : Nat} {first second : Deck.Drawn}
      (player : HandIn g.config draws g.deck.build first) (done : first.stopped = none)
      (ai : HandIn g.config draws' first.deck second) (done' : second.stopped = none) :
      DealsIn g (draws + draws') (.ok ())

theorem handIn_iff {d : Deck.Drawn} : HandIn config draws deck d ↔
    ¬ deck.Lacks config.numberCardsPerHand.toNat ∧ draws = d.faces.length ∧
      d = (dealHand config deck).2 := Deck.drawsIn_iff

/-- A hand that is dealt to the end has its numbers. -/
theorem HandIn.numbers {d : Deck.Drawn} (h : HandIn config draws deck d)
    (done : d.stopped = none) :
    config.numberCardsPerHand ≤ (dealHand config deck).1.numbers.length := by
  have enough := h.missing_le done
  obtain ⟨-, -, rfl⟩ := handIn_iff.mp h
  rw [dealHand_eq, length_numbers_dealAll]
  rw [dealHand_eq, Deck.countNumbers] at enough
  dsimp only at enough
  omega

/-- By rules that let it end, from whatever is left of their deck, a hand is drawn to its end. -/
theorem exists_handIn (finite : ¬ config.Endless) (rules : deck.OfRules config) :
    HandIn config (dealHand config deck).2.faces.length deck (dealHand config deck).2 :=
  handIn_iff.mpr ⟨fun lacks => finite (lacks.endless rules), rfl, rfl⟩

theorem exists_dealsIn (finite : ¬ g.config.Endless) (rules : g.deck.OfRules g.config) :
    ∃ draws outcome, g.DealsIn draws outcome := by
  have fresh := rules.of_sameMake (Deck.sameMake_build g.deck)
  have left : g.clearTable.firstHand.2.deck.OfRules g.config :=
    fresh.of_sameMake (Deck.sameMake_drawSlots ..)
  have player := exists_handIn finite fresh
  have ai := exists_handIn finite left
  cases first : g.clearTable.firstHand.2.stopped with
  | some e => exact ⟨_, _, .player_stops player first⟩
  | none =>
    cases second : g.clearTable.secondHand.2.stopped with
    | some e => exact ⟨_, _, .ai_stops player first ai second⟩
    | none => exact ⟨_, _, .dealt player first ai second⟩

/-- By rules that do not let it end, the first hand is never done. -/
theorem not_dealsIn (endless : g.config.Endless) (rules : g.deck.OfRules g.config) :
    ¬ g.DealsIn draws outcome := by
  have lacks := Deck.lacks_build endless rules
  rintro (⟨player, -⟩ | ⟨player, -, -, -⟩ | ⟨player, -, -, -⟩) <;> exact lacks.not_drawsIn player

/-- A deal for some target fails by what stops one of the two drawings. -/
theorem deal_outcome (going : g.isOver = false) (aims : g.targetsFor asked ≠ []) :
    (g.deal asked bet).2 =
      (g.clearTable.firstHand.2.stopped.or g.clearTable.secondHand.2.stopped).elim (.ok ())
        .error := by
  rcases g.deal_steps asked bet with
    ⟨ended, -⟩ | ⟨-, ⟨none, -⟩ | ⟨chooser, kept, aim, -, eq⟩⟩
  · cases going.symm.trans ended
  · exact absurd none aims
  -- neither the target nor the bet changes what is drawn
  have player : (g.tableSet chooser aim bet kept).firstHand = g.clearTable.firstHand := rfl
  have ai : (g.tableSet chooser aim bet kept).secondHand = g.clearTable.secondHand := rfl
  rw [eq, ← player, ← ai]
  obtain ⟨kept', ⟨e, first, hands⟩ | ⟨e, first, second, hands⟩ | ⟨first, second, hands⟩⟩ :=
    (g.tableSet chooser aim bet kept).dealHands_steps aim
  · rw [hands, first]
    rfl
  · rw [hands, first, second]
    rfl
  · rw [hands, first, second]
    rfl

/-- What a deal comes to card by card is what it is said to come to. -/
theorem DealsIn.deal (h : g.DealsIn draws outcome) (going : g.isOver = false)
    (aims : g.targetsFor asked ≠ []) : (g.deal asked bet).2 = outcome := by
  rw [deal_outcome going aims, secondHand, firstHand]
  cases h with
  | player_stops player stops =>
    obtain ⟨-, -, rfl⟩ := handIn_iff.mp player
    simp [clearTable, stops]
  | ai_stops player done ai stops | dealt player done ai stops =>
    obtain ⟨-, -, rfl⟩ := handIn_iff.mp player
    obtain ⟨-, -, rfl⟩ := handIn_iff.mp ai
    simp [clearTable, done, stops]

theorem DealsIn.eq_emptyDeck (h : g.DealsIn draws (.error e)) : e = .emptyDeck := by
  cases h with
  | player_stops player stops => exact player.eq_emptyDeck stops
  | ai_stops _ _ ai stops => exact ai.eq_emptyDeck stops

/-- Where decks have numbers a deal for some target succeeds. -/
theorem exists_deal_ok (copies : 1 ≤ g.config.numberCopiesPerValue)
    (rules : g.deck.OfRules g.config) (going : g.isOver = false) (aims : g.targetsFor asked ≠ [])
    (bet : Option Int) :
    ∃ draws g', g.DealsIn draws (.ok ()) ∧ g.deal asked bet = (g', .ok ()) := by
  have finite : ¬ g.config.Endless := fun endless => by
    have none := endless.numberless
    omega
  obtain ⟨draws, outcome, ends⟩ := exists_dealsIn finite rules
  have dealt : g.deal asked bet = ((g.deal asked bet).1, outcome) :=
    Prod.ext rfl (ends.deal going aims)
  cases outcome with
  | ok => exact ⟨draws, _, ends, dealt⟩
  | error e =>
    rcases deal_error going dealt with none | ⟨-, none⟩ | ⟨-, -⟩
    · exact absurd none aims
    · rw [rules.copies] at none
      omega
    · cases ends.eq_emptyDeck

/-- Where the deal ends well both hands have their numbers. -/
theorem DealsIn.numbers {g' : Game} (h : g.DealsIn draws (.ok ()))
    (dealt : g.deal asked bet = (g', .ok ())) :
    g.config.numberCardsPerHand ≤ g'.playerHand.numbers.length ∧
      g.config.numberCardsPerHand ≤ g'.aiHand.numbers.length := by
  obtain ⟨-, chooser, kept, kept', aim, -, rfl⟩ := deal_ok dealt
  cases h with
  | dealt player done ai done' =>
    have mine := player.numbers done
    obtain ⟨-, -, rfl⟩ := handIn_iff.mp player
    exact ⟨mine, ai.numbers done'⟩

/-! ## Every state of a match -/

/-- A match keeps its rules, and its deck stays made by them. -/
structure Keeps (config : GameConfig) (g : Game) : Prop where
  rules : g.config = config
  deck : g.deck.OfRules config

theorem Keeps.deal (h : Keeps config g) (asked bet : Option Int) :
    Keeps config (g.deal asked bet).1 := by
  refine ⟨?_, h.deck.of_sameMake (g.sameMake_deal asked bet)⟩
  rcases g.deal_cases asked bet with ⟨-, eq⟩ | ⟨-, _, _, _, _, _, _, _, _, _, _, eq, -⟩ <;>
    rw [eq] <;> exact h.rules

theorem Keeps.score (h : Keeps config g) (player ai : Expression) :
    Keeps config (g.score player ai).1 := by
  obtain ⟨kept, eq⟩ := g.score_eq player ai
  rw [eq]
  exact ⟨h.rules, h.deck⟩

theorem Keeps.settle (h : Keeps config g) (r : RoundResult) : Keeps config (g.settle r) := by
  obtain ⟨history, kept, eq⟩ := g.settle_eq r
  rw [eq]
  exact ⟨h.rules, h.deck⟩

namespace Table

variable {t : Table}

theorem keeps_call (h : Keeps config t.game) (c : Call) : Keeps config (t.call c).game := by
  cases c with
  | deal target bet => exact h.deal target bet
  | score player ai =>
    have kept := h.score player ai
    rcases scores : t.game.score player ai with ⟨g, e | r⟩ <;> rw [scores] at kept <;>
      simpa only [call, scores] using kept
  | settle i =>
    cases found : t.scored[i]? with
    | none => simpa only [call, found] using h
    | some r => simpa only [call, found] using h.settle r

theorem keeps_run (h : Keeps config t.game) (calls : List Call) :
    Keeps config (t.run calls).game := by
  induction calls generalizing t with
  | nil => exact h
  | cons c calls ih => exact ih (keeps_call h c)

/-- Whatever was called before in a match that is not over, and as long as there are targets to
play for: a deal ends after finitely many draws exactly if the rules do not want numbers from decks
of special cards only. It ends as `deal` says, with an error because the deck has no cards, or with
all their numbers in both hands. A deal that does not end is marked as endless. -/
theorem deal_ends_iff (config : GameConfig) (targets : config.targetValues ≠ []) (seed : Int)
    (preset : String) (calls : List Call) (asked bet : Option Int)
    (going : ((start config seed preset).run calls).game.isOver = false) :
    let g := ((start config seed preset).run calls).game
    ((∃ draws outcome, g.DealsIn draws outcome) ↔ ¬ config.Endless) ∧
      (∀ draws outcome, g.DealsIn draws outcome →
        ∃ g', g.deal asked bet = (g', outcome) ∧
          (outcome = .error .emptyDeck ∨
            outcome = .ok () ∧
              config.numberCardsPerHand ≤ g'.playerHand.numbers.length ∧
              config.numberCardsPerHand ≤ g'.aiHand.numbers.length)) ∧
      (config.Endless → (g.deal asked bet).2 = .error .endlessDeal) := by
  intro g
  obtain ⟨rules, deck⟩ : Keeps config g :=
    keeps_run ⟨config_start config seed preset, ofRules_start config seed preset⟩ calls
  replace going : g.isOver = false := going
  clear_value g
  subst rules
  have aims : g.targetsFor asked ≠ [] := by
    cases asked with
    | some target => exact List.cons_ne_nil target []
    | none => exact targets
  refine ⟨⟨?_, fun finite => exists_dealsIn finite deck⟩, fun draws outcome ends => ?_,
    fun endless => ?_⟩
  · rintro ⟨draws, outcome, ends⟩ endless
    exact not_dealsIn endless deck ends
  · have dealt : g.deal asked bet = ((g.deal asked bet).1, outcome) :=
      Prod.ext rfl (ends.deal going aims)
    refine ⟨_, dealt, ?_⟩
    cases outcome with
    | error e => exact .inl (congrArg _ ends.eq_emptyDeck)
    | ok => exact .inr ⟨rfl, ends.numbers dealt⟩
  · have marked : g.clearTable.firstHand.2.stopped = some .endlessDeal :=
      Deck.stopped_drawSlots_iff.mpr (Deck.lacks_build endless deck)
    rw [deal_outcome going aims, marked]
    rfl

/-- Twenty numbers for each hand from decks of eleven. -/
theorem deal_ends_iff_twenty :
    let config : GameConfig := { numberCardsPerHand := 20, numberCopiesPerValue := 1 }
    let g := ((start config 7 "standard").run []).game
    config.targetValues ≠ [] ∧ g.isOver = false ∧
      ∃ draws outcome g', g.DealsIn draws outcome ∧ g.deal none none = (g', outcome) ∧
        (outcome = .error .emptyDeck ∨
          outcome = .ok () ∧ 20 ≤ g'.playerHand.numbers.length ∧
            20 ≤ g'.aiHand.numbers.length) := by
  intro config g
  have targets : config.targetValues ≠ [] := by decide
  have going : g.isOver = false := isOver_start (by decide) (by decide) 7 "standard"
  obtain ⟨ends, comes_to, -⟩ := deal_ends_iff config targets 7 "standard" [] none none going
  have finite : ¬ config.Endless := fun endless => absurd endless.numberless (by decide)
  obtain ⟨draws, outcome, dealing⟩ := ends.mpr finite
  obtain ⟨g', dealt, result⟩ := comes_to draws outcome dealing
  refine ⟨targets, going, draws, outcome, g', dealing, dealt, ?_⟩
  rcases result with empty | ⟨done, mine, theirs⟩
  · exact .inl empty
  · exact .inr ⟨done, Int.ofNat_le.mp mine, Int.ofNat_le.mp theirs⟩

/-- A deck of one special card gives it again and again, and no deal from it ends. -/
theorem no_deal_ends_single :
    let config : GameConfig :=
      { numberCopiesPerValue := 0, multiplyCardsPerRound := 1, squareRootCardsPerRound := 0 }
    let g := (start config 1 "standard").game
    config.targetValues ≠ [] ∧ g.isOver = false ∧
      ¬ ∃ draws outcome, g.DealsIn draws outcome := by
  intro config g
  have endless : config.Endless := ⟨by decide, by decide, .inl (by decide)⟩
  refine ⟨by decide, isOver_start (by decide) (by decide) 1 "standard", ?_⟩
  rintro ⟨draws, outcome, dealing⟩
  exact not_dealsIn endless (ofRules_start config 1 "standard") dealing

end Table

end Game

end NumberDuel
