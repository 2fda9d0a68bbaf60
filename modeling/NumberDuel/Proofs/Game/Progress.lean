import NumberDuel.Proofs.Deck.Supply
import NumberDuel.Proofs.Game.Answer
import NumberDuel.Proofs.Game.Conservation

/-!
# What stops a match

A match that goes on is stopped by three things only: rules without targets, a deck without
numbers, and a target without a double. So by rules that avoid them every match is played to its
end, and nobody is ever told that a match is over or that no round is open.
-/

namespace NumberDuel

variable {hand : Hand} {target : Int} {submission : Expression} {strategy : Strategy} {e : Error}

/-! ## The causes -/

/-- What may stop a match that goes on, by the copies of each number in its deck and by the targets
to play for. -/
inductive Hindered (copies : Int) (targets : List Int) : Error → Prop
  | noTargets (none : targets = []) : Hindered copies targets .noTargets
  | numberless {e : Error} (cause : e = .emptyDeck ∨ e = .endlessDeal) (none : copies ≤ 0) :
    Hindered copies targets e
  | farTarget {aim : Int} (offered : aim ∈ targets) (far : doubleOfInt? aim = none) :
    Hindered copies targets .integerTooLarge

/-- Rules by which nothing stops a match. -/
structure GameConfig.Unhindered (config : GameConfig) : Prop where
  copies : 1 ≤ config.numberCopiesPerValue
  targets : config.targetValues ≠ []
  converts : ∀ target ∈ config.targetValues, ∃ aim, doubleOfInt? target = some aim

theorem GameConfig.Unhindered.not_hindered {config : GameConfig} (h : config.Unhindered) :
    ¬ Hindered config.numberCopiesPerValue config.targetValues e := by
  rintro (none | ⟨-, none⟩ | ⟨offered, far⟩)
  · exact h.targets none
  · have copies := h.copies
    omega
  · obtain ⟨aim, converts⟩ := h.converts _ offered
    cases far.symm.trans converts

/-- Rules by which every hand can be played stop no match. -/
theorem GameConfig.Fair.unhindered {config : GameConfig} (h : config.Fair) :
    config.Unhindered := by
  refine ⟨?_, h.targets, fun target offered => ?_⟩
  · have multiplies := h.multiplies
    have numbers := h.numbers
    omega
  · obtain ⟨aim, converts, -⟩ := h.near target offered
    exact ⟨aim, converts⟩

/-- Whether a match refuses a call as out of turn. -/
def Error.isRefusal : Error → Bool
  | .matchOver | .noOpenRound => true
  | _ => false

theorem Hindered.isRefusal {copies : Int} {targets : List Int} (h : Hindered copies targets e) :
    e.isRefusal = false := by
  cases h with
  | noTargets | farTarget => rfl
  | numberless cause => rcases cause with rfl | rfl <;> rfl

/-! ## Strategies and the judge -/

theorem Strategy.play_error (failed : strategy.play hand target = .error e) :
    e = .integerTooLarge ∧ doubleOfInt? target = none := by
  cases strategy with
  | basic => cases failed
  | smart =>
    obtain ⟨rfl, far, -⟩ := search_error_iff.mp (playSmart_error_iff.mp failed)
    exact ⟨rfl, doubleOfInt?_eq_none_iff.mpr far⟩

theorem judge_error (failed : judge submission hand target = .error e) :
    e = .integerTooLarge ∧ doubleOfInt? target = none := by
  obtain ⟨rfl, far, -⟩ := judge_error_iff.mp failed
  exact ⟨rfl, doubleOfInt?_eq_none_iff.mpr far⟩

namespace Game

variable {config : GameConfig} {players : Players} {asked bet : Option Int} {g g' : Game}
  {player ai : Expression}

/-! ## An open round -/

theorem scored_error (opened : g.dealt = true) (aimed : g.target = some target)
    (failed : g.scored player ai = .error e) :
    e = .integerTooLarge ∧ doubleOfInt? target = none := by
  simp only [scored, opened, aimed] at failed
  rcases bind_error failed with judged | ⟨_, -, failed⟩
  · exact judge_error judged
  rcases bind_error failed with judged | ⟨_, -, failed⟩
  · exact judge_error judged
  · cases failed

theorem contest_error (opened : g.dealt = true) (aimed : g.target = some target)
    (failed : g.contest players = .error e) :
    e = .integerTooLarge ∧ doubleOfInt? target = none := by
  rw [contest, submission_of_target aimed, submission_of_target aimed] at failed
  rcases bind_error failed with played | ⟨_, -, failed⟩
  · exact Strategy.play_error played
  rcases bind_error failed with played | ⟨_, -, failed⟩
  · exact Strategy.play_error played
  · exact scored_error opened aimed failed

/-! ## The deal -/

theorem sameMake_dealHands (g : Game) (aim : Int) :
    g.deck.SameMake (g.dealHands aim).1.deck := by
  have first : g.deck.SameMake g.firstHand.2.deck := Deck.sameMake_drawSlots ..
  have second := first.trans (Deck.sameMake_drawSlots g.firstHand.2.deck
    g.config.initialCardCount g.config.numberCardsPerHand)
  obtain ⟨kept, ⟨e, -, eq⟩ | ⟨e, -, -, eq⟩ | ⟨-, -, eq⟩⟩ := g.dealHands_steps aim <;> rw [eq]
  · exact first
  · exact second
  · exact second

theorem sameMake_deal (g : Game) (asked bet : Option Int) :
    g.deck.SameMake (g.deal asked bet).1.deck := by
  rcases g.deal_steps asked bet with
    ⟨-, eq⟩ | ⟨-, ⟨-, eq⟩ | ⟨chooser, kept, aim, -, eq⟩⟩ <;> rw [eq]
  · exact .refl _
  · exact Deck.sameMake_build _
  · exact (Deck.sameMake_build _).trans (sameMake_dealHands _ aim)

theorem dealHands_error {aim : Int} (failed : g.dealHands aim = (g', .error e)) :
    g.deck.Stops e := by
  have same : g.deck.SameMake g.firstHand.2.deck := Deck.sameMake_drawSlots ..
  obtain ⟨kept, ⟨e', stopped, eq⟩ | ⟨e', -, stopped, eq⟩ | ⟨-, -, eq⟩⟩ := g.dealHands_steps aim <;>
    cases eq.symm.trans failed
  · exact Deck.stops_of_drawSlots stopped
  · exact (Deck.stops_of_drawSlots stopped).of_sameMake same

theorem deal_error (going : g.isOver = false) (failed : g.deal asked bet = (g', .error e)) :
    Hindered g.deck.copiesPerValue (g.targetsFor asked) e := by
  rcases g.deal_steps asked bet with
    ⟨ended, -⟩ | ⟨-, ⟨none, eq⟩ | ⟨chooser, kept, aim, -, eq⟩⟩
  · cases going.symm.trans ended
  · cases eq.symm.trans failed
    exact .noTargets none
  · have stops := (dealHands_error (eq.symm.trans failed)).of_sameMake (Deck.sameMake_build g.deck)
    exact .numberless stops.cause stops.numberless

/-- A deal that succeeds lays both hands on a cleared table and opens the round. -/
theorem deal_ok (dealt : g.deal asked bet = (g', .ok ())) : g.isOver = false ∧
    ∃ chooser kept kept', ∃ aim ∈ g.targetsFor asked,
      g' = ((g.tableSet chooser aim bet kept).handsDealt kept').openRound aim := by
  rcases g.deal_steps asked bet with
    ⟨-, eq⟩ | ⟨going, ⟨-, eq⟩ | ⟨chooser, kept, aim, offered, eq⟩⟩
  · cases eq.symm.trans dealt
  · cases eq.symm.trans dealt
  refine ⟨going, chooser, kept, ?_⟩
  obtain ⟨kept', ⟨_, -, stop⟩ | ⟨_, -, -, stop⟩ | ⟨-, -, hands⟩⟩ :=
    (g.tableSet chooser aim bet kept).dealHands_steps aim
  · cases (eq.trans stop).symm.trans dealt
  · cases (eq.trans stop).symm.trans dealt
  · cases (eq.trans hands).symm.trans dealt
    exact ⟨kept', aim, offered, rfl⟩

/-! ## Rounds and matches -/

theorem playRound_error (going : g.isOver = false)
    (failed : g.playRound players asked bet = (g', .error e)) :
    Hindered g.deck.copiesPerValue (g.targetsFor asked) e := by
  rw [playRound_eq] at failed
  rcases dealt_eq : g.deal asked bet with ⟨dealt, e' | ⟨⟩⟩
  · rw [dealt_eq] at failed
    cases failed
    exact deal_error going dealt_eq
  · rw [dealt_eq] at failed
    obtain ⟨-, chooser, kept, kept', aim, offered, rfl⟩ := deal_ok dealt_eq
    obtain ⟨_, ⟨e', contested, eq⟩ | ⟨r, -, eq⟩⟩ := playDealt_steps players
      (((g.tableSet chooser aim bet kept).handsDealt kept').openRound aim)
    · cases eq.symm.trans failed
      obtain ⟨rfl, far⟩ := contest_error rfl rfl contested
      exact .farTarget offered far
    · cases eq.symm.trans failed

/-- A round that is played to its end leaves the same deck for the next one. -/
theorem copiesPerValue_playRound {r : RoundResult}
    (played : g.playRound players asked bet = (g', .ok r)) :
    g'.deck.copiesPerValue = g.deck.copiesPerValue := by
  obtain ⟨-, -, kept, rfl⟩ := playDealt_ok played
  obtain ⟨history, kept', eq⟩ := settle_eq { (g.deal asked bet).1 with notes := kept } r
  rw [eq]
  exact (sameMake_deal g asked bet).copiesPerValue

theorem playRounds_error {rounds : Nat}
    (failed : playRounds players bet rounds g = (g', .error e)) :
    Hindered g.deck.copiesPerValue g.config.targetValues e := by
  induction rounds generalizing g with
  | zero => cases failed
  | succ rounds ih =>
    unfold playRounds at failed
    split at failed
    · cases failed
    next going =>
    split at failed
    · next stopped =>
      cases failed
      exact playRound_error (by simpa using going) stopped
    · next settled =>
      -- a round leaves the rules and the make of the deck, and the causes depend on nothing else
      rw [← copiesPerValue_playRound settled, ← (playRound_ok settled).1]
      exact ih failed

/-- A simulated match is only stopped by its rules. -/
theorem simulate_error {seed : Int} {preset : String}
    (failed : simulate config players seed preset bet = (g, .error e)) :
    Hindered config.numberCopiesPerValue config.targetValues e :=
  playRounds_error failed

theorem exists_simulate (h : config.Unhindered) (players : Players) (seed : Int) (preset : String)
    (bet : Option Int) : ∃ g, simulate config players seed preset bet = (g, .ok ()) := by
  rcases eq : simulate config players seed preset bet with ⟨g, e | ⟨⟩⟩
  · exact absurd (simulate_error eq) h.not_hindered
  · exact ⟨g, rfl⟩

end Game

end NumberDuel
