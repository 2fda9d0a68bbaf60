import NumberDuel.Game.Round

/-!
# Notes

A note says what happened at the table or on the way to a report, with what it happened to. The
log is read off the notes; the game itself never asks for them.
-/

namespace NumberDuel

inductive Note where
  /-- A bet was brought within the limits. -/
  | betAdjusted (bet allowed limit credits : Int)
  /-- A special card was dealt. -/
  | specialDealt (mark : Special)
  /-- A round was opened. -/
  | roundDealt (round target : Int) (player ai : Hand)
  /-- A strategy chose an expression. -/
  | played (strategy : Strategy) (hand : Hand) (target : Option Int)
  /-- A submission was validated and evaluated. -/
  | judged (e : Expression) (hand : Hand)
  /-- A round was closed. -/
  | settled (round : Int) (result : RoundResult)
  /-- An expression was held against the rules. -/
  | validated (e : Expression) (hand : Hand)
  /-- The best expression of a hand was searched for. -/
  | searched (hand : Hand) (target : Int)
  /-- A hand was solved. -/
  | solved (hand : Hand) (target : Int)

end NumberDuel
