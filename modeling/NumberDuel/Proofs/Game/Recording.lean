import NumberDuel.Proofs.Game.Transition

/-!
# What a match records

The history of a match grows at two places. A deal that succeeds records the round it opens, as it
was dealt; a settlement records its result, and the end of the match if it ends it. A deal that
fails records nothing and leaves open what was open.
-/

namespace NumberDuel.Game

variable {g : Game}

/-- What a deal leaves behind, by how it came out: with the history of before and what was open
then, and under the number of the round. -/
inductive Recorded (wasOpen : Bool) (history : History) (round : Int) :
    Game × Except Error Unit → Prop
  | opened {g : Game} {aim : Int} (dealt : g.dealt = true) (aimed : g.target = some aim)
      (recorded : g.history =
        history.addRoundStart round aim g.bet g.playerHand.text g.aiHand.text) :
      Recorded wasOpen history round (g, .ok ())
  | failed {g : Game} {e : Error} (dealt : g.dealt = wasOpen) (recorded : g.history = history) :
      Recorded wasOpen history round (g, .error e)

theorem recorded_dealHands {aim : Int} (aimed : g.target = some aim) :
    Recorded g.dealt g.history (g.roundNumber + 1) (g.dealHands aim) := by
  obtain ⟨kept, ⟨e, -, eq⟩ | ⟨e, -, -, eq⟩ | ⟨-, -, eq⟩⟩ := g.dealHands_steps aim <;> rw [eq]
  · exact .failed rfl rfl
  · exact .failed rfl rfl
  · exact .opened rfl aimed rfl

theorem recorded_deal (g : Game) (target bet : Option Int) :
    Recorded g.dealt g.history (g.roundNumber + 1) (g.deal target bet) := by
  rcases g.deal_steps target bet with
    ⟨-, eq⟩ | ⟨-, ⟨-, eq⟩ | ⟨chooser, kept, aim, -, eq⟩⟩ <;> rw [eq]
  · exact .failed rfl rfl
  · exact .failed rfl rfl
  · exact recorded_dealHands (g := g.tableSet chooser aim bet kept) rfl

/-- A settlement records the result, and behind it the end of the match if this ends it. -/
theorem history_settle (g : Game) (r : RoundResult) :
    (g.settle r).history =
      if (g.settle r).isOver then
        (g.history.addRoundResult (g.roundNumber + 1) r.record).addMatchEnd (g.roundNumber + 1)
          ((g.settle r).winner.map Winner.name) (g.settle r).playerCredits (g.settle r).aiCredits
      else g.history.addRoundResult (g.roundNumber + 1) r.record := by
  unfold settle closeMatch
  dsimp only
  split
  · next ended => exact (if_pos ended).symm
  · rfl

end NumberDuel.Game
