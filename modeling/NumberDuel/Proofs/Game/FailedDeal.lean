import NumberDuel.Proofs.Builder.Reminder
import NumberDuel.Proofs.Game.Ending
import NumberDuel.Proofs.Validation.Acceptance

/-!
# Deals that fail

A deal is refused before anything changes only where the match is over. Else both hands are emptied
first, and a deal that fails for want of targets or of cards leaves them so. The flag of an open
round stays, so this round can still be scored, but only as void.
-/

namespace NumberDuel

variable {config : GameConfig} {e : Error}

namespace Game

variable {g g' : Game} {asked bet : Option Int}

/-- On hands without numbers every open round is void. -/
theorem scored_of_no_numbers (player : g.playerHand.numbers = []) (ai : g.aiHand.numbers = [])
    {target : Int} (opened : g.dealt = true) (aimed : g.target = some target)
    (mine theirs : Expression) :
    ∃ r, g.scored mine theirs = .ok r ∧ r.winner = .invalid := by
  have mine_refused :=
    (judge_eq_explanation_iff target).mpr (Expression.valid_of_no_numbers player mine)
  have theirs_refused :=
    (judge_eq_explanation_iff target).mpr (Expression.valid_of_no_numbers ai theirs)
  have far : infiniteDistance.isInf = true := rfl
  refine ⟨_, scored_of_judged opened aimed mine_refused theirs_refused, ?_⟩
  simp [RoundResult.of, SideResult.of, Evaluation.failed, decideWinner, far]

/-! ## What a deal leaves behind -/

/-- What a deal that fails leaves of a match: all of it where the match was over, else a cleared
table. If the cards are missing, then the target and the bet are set already, and the player has
the operators of the rules. -/
inductive Leaves (g : Game) (asked bet : Option Int) : Error → Game → Prop
  | refused (ended : g.isOver = true) : Leaves g asked bet .matchOver g
  | noTargets (going : g.isOver = false) (none : g.targetsFor asked = []) :
    Leaves g asked bet .noTargets g.clearTable
  | emptyDeck {aim : Int} {chooser : Random.Twister} {kept : Array Note} {deck : Deck}
      (going : g.isOver = false) (offered : aim ∈ g.targetsFor asked)
      (bare : g.deck.fullFaces = [])
      (wanted : 0 < g.config.initialCardCount ∨ 0 < g.config.numberCardsPerHand) :
    Leaves g asked bet .emptyDeck
      { g.tableSet chooser aim bet kept with playerHand := handOf g.config [], deck := deck }

/-- A hand that cannot be dealt to its end, though this comes, finds no card in a full deck. -/
theorem fullFaces_of_dealHand {deck : Deck} (stopped : (dealHand config deck).2.stopped = some e)
    (returns : e ≠ .endlessDeal) : deck.fullFaces = [] := by
  have ends : (dealHand config deck).2.stopped ≠ some .endlessDeal := by
    rw [stopped]
    simpa using returns
  exact (Deck.drawsIn_drawSlots ends).fullFaces stopped

/-- From a deck without cards a hand gets its operators only, and this fails if it wants cards. -/
theorem dealHand_of_bare (config : GameConfig) {deck : Deck} (bare : deck.fullFaces = []) :
    (dealHand config deck.build).1 = handOf config [] ∧
      ((dealHand config deck.build).2.stopped = none ↔
        config.initialCardCount ≤ 0 ∧ config.numberCardsPerHand ≤ 0) := by
  have lasts : ¬ deck.build.Lacks config.numberCardsPerHand.toNat := fun lacks =>
    lacks.cards ((Deck.sameMake_build deck).fullFaces.trans bare)
  have drawing : HandIn config _ deck.build (dealHand config deck.build).2 :=
    handIn_iff.mpr ⟨lasts, rfl, rfl⟩
  obtain ⟨nothing, done⟩ := drawing.of_none (Deck.draw?_build_eq_none bare)
  constructor
  · rw [dealHand_eq] at nothing ⊢
    dsimp only at nothing ⊢
    rw [nothing]
    rfl
  · rw [done]
    omega

/-- Where no cards are wanted a hand is dealt to its end. -/
theorem stopped_of_unwanted {deck : Deck} (slots : config.initialCardCount ≤ 0)
    (numbers : config.numberCardsPerHand ≤ 0) : (dealHand config deck).2.stopped = none := by
  have lasts : ¬ deck.Lacks config.numberCardsPerHand.toNat := fun lacks => by
    have few := lacks.few
    omega
  have drawing : HandIn config _ deck (dealHand config deck).2 :=
    handIn_iff.mpr ⟨lasts, rfl, rfl⟩
  rw [HandIn, Int.toNat_of_nonpos slots, Int.toNat_of_nonpos numbers] at drawing
  exact drawing.stopped_of_nothing

theorem leaves_deal (failed : g.deal asked bet = (g', .error e)) (returns : e ≠ .endlessDeal) :
    Leaves g asked bet e g' := by
  rcases g.deal_steps asked bet with
    ⟨ended, eq⟩ | ⟨going, ⟨none, eq⟩ | ⟨chooser, kept, aim, offered, eq⟩⟩
  · cases eq.symm.trans failed
    exact .refused ended
  · cases eq.symm.trans failed
    exact .noTargets going none
  have make := (Deck.sameMake_build g.deck).fullFaces
  obtain ⟨kept', ⟨e', first, hands⟩ | ⟨e', first, second, hands⟩ | ⟨-, -, hands⟩⟩ :=
    (g.tableSet chooser aim bet kept).dealHands_steps aim
  · cases (eq.trans hands).symm.trans failed
    have bare := make.symm.trans (fullFaces_of_dealHand first returns)
    obtain ⟨hand, done⟩ := dealHand_of_bare g.config bare
    have player : (g.tableSet chooser aim bet kept).firstHand.1 = handOf g.config [] := hand
    have wanted : 0 < g.config.initialCardCount ∨ 0 < g.config.numberCardsPerHand := by
      by_contra unwanted
      cases (done.mpr (by omega)).symm.trans first
    obtain rfl := (Deck.stops_of_drawSlots first).cause.resolve_right returns
    rw [player]
    exact @Leaves.emptyDeck g asked bet aim chooser kept' _ going offered bare wanted
  · -- the player needed no card from such a deck, so the other side needs none either
    cases (eq.trans hands).symm.trans failed
    have same := (Deck.sameMake_drawSlots g.deck.build g.config.initialCardCount
      g.config.numberCardsPerHand).fullFaces
    have bare := (same.trans make).symm.trans (fullFaces_of_dealHand second returns)
    obtain ⟨-, done⟩ := dealHand_of_bare g.config bare
    obtain ⟨slots, numbers⟩ := done.mp first
    cases second.symm.trans (stopped_of_unwanted slots numbers)
  · cases (eq.trans hands).symm.trans failed

/-- The standing of a match: what its history, its score and its open round say. -/
structure SameStanding (g g' : Game) : Prop where
  dealt : g'.dealt = g.dealt
  playerCredits : g'.playerCredits = g.playerCredits
  aiCredits : g'.aiCredits = g.aiCredits
  roundNumber : g'.roundNumber = g.roundNumber
  history : g'.history = g.history

/-- Also the cards, the target and the bet are as they were. -/
structure Unchanged (g g' : Game) : Prop extends SameStanding g g' where
  playerHand : g'.playerHand = g.playerHand
  aiHand : g'.aiHand = g.aiHand
  target : g'.target = g.target
  bet : g'.bet = g.bet

theorem Leaves.sameStanding (h : Leaves g asked bet e g') : SameStanding g g' := by
  cases h <;> exact ⟨rfl, rfl, rfl, rfl, rfl⟩

/-- Unless the match was over, no number is left in the hands. -/
theorem Leaves.no_numbers (h : Leaves g asked bet e g') (going : g.isOver = false) :
    g'.playerHand.numbers = [] ∧ g'.aiHand = {} := by
  cases h with
  | refused ended => cases going.symm.trans ended
  | noTargets => exact ⟨rfl, rfl⟩
  | emptyDeck => exact ⟨List.length_eq_zero_iff.mp (length_numbers_handOf g.config []), rfl⟩

theorem Leaves.exists_target (h : Leaves g asked bet e g') {target : Int}
    (aimed : g.target = some target) : ∃ target, g'.target = some target := by
  cases h with
  | refused | noTargets => exact ⟨target, aimed⟩
  | emptyDeck => exact ⟨_, rfl⟩

/-- Where the rules have no targets, a round for a target of one's own can be dealt, and the next
deal takes its hands. -/
theorem exists_failed_deal (copies : 1 ≤ g.config.numberCopiesPerValue)
    (wanted : 0 < g.config.numberCardsPerHand) (targets : g.config.targetValues = [])
    (rules : g.deck.OfRules g.config) (going : g.isOver = false) (target : Int) :
    ∃ opened, g.deal (some target) none = (opened, .ok ()) ∧ opened.isOver = false ∧
      opened.dealt = true ∧ opened.target = some target ∧ opened.playerHand.numbers ≠ [] ∧
      opened.deal none none = (opened.clearTable, .error .noTargets) := by
  have aims : g.targetsFor (some target) ≠ [] := List.cons_ne_nil target []
  obtain ⟨draws, opened, ends, dealt⟩ := exists_deal_ok copies rules going aims none
  obtain ⟨numbers, -⟩ := ends.numbers dealt
  obtain ⟨-, chooser, kept, kept', aim, offered, rfl⟩ := deal_ok dealt
  obtain rfl : aim = target := List.mem_singleton.mp offered
  set opened := ((g.tableSet chooser aim none kept).handsDealt kept').openRound aim
  have going' : opened.isOver = false := by
    have same := g.isOver_deal (some aim) none
    rw [dealt] at same
    exact same.trans going
  refine ⟨opened, dealt, going', rfl, rfl, ?_, ?_⟩
  · intro none
    rw [none] at numbers
    exact absurd numbers (not_le.mpr wanted)
  · have no_target : opened.targetsFor none = [] := targets
    rcases opened.deal_steps none none with ⟨ended, -⟩ | ⟨-, ⟨-, eq⟩ | ⟨_, _, _, offered, -⟩⟩
    · exact absurd going' (by simp [ended])
    · exact eq
    · rw [no_target] at offered
      cases offered

/-- A deal that comes to an error never changes the standing of the match, and changes nothing at
all where the match was over. Else it takes the cards of both hands, so a round that was open stays
open and is void, whatever is submitted. -/
theorem deal_failed (failed : g.deal asked bet = (g', .error e)) (returns : e ≠ .endlessDeal) :
    Leaves g asked bet e g' ∧ SameStanding g g' ∧ (g.isOver = true → g' = g) ∧
      (g.isOver = false → g'.playerHand.numbers = [] ∧ g'.aiHand = {} ∧
        ∀ target mine theirs, g.dealt = true → g.target = some target →
          ∃ r, g'.scored mine theirs = .ok r ∧ r.winner = .invalid) := by
  have leaves := leaves_deal failed returns
  have standing := leaves.sameStanding
  refine ⟨leaves, standing, fun ended => ?_, fun going => ?_⟩
  · cases leaves with
    | refused => rfl
    | noTargets going | emptyDeck going => cases going.symm.trans ended
  · obtain ⟨player, ai⟩ := leaves.no_numbers going
    refine ⟨player, ai, fun target mine theirs opened aimed => ?_⟩
    obtain ⟨_, aimed'⟩ := leaves.exists_target aimed
    refine scored_of_no_numbers player ?_ (standing.dealt.trans opened) aimed' mine theirs
    rw [ai]

/-- A round for 20 that is dealt by rules without targets is void behind the next deal. -/
theorem deal_failed_twenty :
    ∃ opened g' : Game,
      (start { targetValues := [] } 1 "standard").deal (some 20) none = (opened, .ok ()) ∧
      opened.deal none none = (g', .error .noTargets) ∧ opened.playerHand.numbers ≠ [] ∧
      g'.playerHand.numbers = [] ∧ g'.dealt = true ∧ g'.history = opened.history ∧
      ∀ mine theirs, ∃ r, g'.scored mine theirs = .ok r ∧ r.winner = .invalid := by
  have going : (start { targetValues := [] } 1 "standard").isOver = false :=
    isOver_start (by decide) (by decide) 1 "standard"
  obtain ⟨opened, dealt, going', flag, aimed, numbers, failed⟩ :=
    @exists_failed_deal (start { targetValues := [] } 1 "standard") (by decide) (by decide) rfl
      (ofRules_start _ 1 "standard") going 20
  obtain ⟨-, standing, -, cleared⟩ := deal_failed failed nofun
  obtain ⟨none_left, -, void⟩ := cleared going'
  exact ⟨opened, _, dealt, failed, numbers, none_left, standing.dealt.trans flag,
    standing.history, fun mine theirs => void 20 mine theirs flag aimed⟩

namespace Table

theorem game_run_deal (t : Table) (asked bet : Option Int) :
    (t.run [.deal asked bet]).game = (t.game.deal asked bet).1 := rfl

/-- A deal without targets to choose from takes the hands of a round that is open. -/
theorem not_unchanged :
    ¬ ∀ (config : GameConfig) (seed : Int) (preset : String) (calls : List Call)
      (asked bet : Option Int) (g' : Game) (e : Error),
      ((start config seed preset).run calls).game.deal asked bet = (g', .error e) →
        Unchanged ((start config seed preset).run calls).game g' := by
  intro unchanged
  let config : GameConfig := { targetValues := [] }
  have going : (start config 1 "standard").game.isOver = false :=
    isOver_start (by decide) (by decide) 1 "standard"
  obtain ⟨opened, dealt, -, -, -, numbers, failed⟩ :=
    @exists_failed_deal (start config 1 "standard").game (by decide) (by decide) rfl
      (ofRules_start config 1 "standard") going 20
  have same := unchanged config 1 "standard" [.deal (some 20) none] none none
  rw [game_run_deal, dealt] at same
  have kept := (same _ _ failed).playerHand
  exact numbers (congrArg Hand.numbers kept.symm)

end Table

end Game

end NumberDuel
