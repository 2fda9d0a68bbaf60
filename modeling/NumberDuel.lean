import NumberDuel.Journal
import NumberDuel.Main
import NumberDuel.Page.Basic
import NumberDuel.Proofs.Builder.Account
import NumberDuel.Proofs.Builder.Completion
import NumberDuel.Proofs.Builder.Continuation
import NumberDuel.Proofs.Builder.Refusal
import NumberDuel.Proofs.Builder.Verdict
import NumberDuel.Proofs.Deck.Conservation
import NumberDuel.Proofs.Double.Closeness
import NumberDuel.Proofs.Double.Exact
import NumberDuel.Proofs.Evaluation.LeftToRight
import NumberDuel.Proofs.Evaluation.Stacks
import NumberDuel.Proofs.Expression.Display
import NumberDuel.Proofs.Expression.Undo
import NumberDuel.Proofs.Game.Alternation
import NumberDuel.Proofs.Game.Answer
import NumberDuel.Proofs.Game.Conservation
import NumberDuel.Proofs.Game.FailedDeal
import NumberDuel.Proofs.Game.Handout
import NumberDuel.Proofs.Page.Aggregation
import NumberDuel.Proofs.Page.Betting
import NumberDuel.Proofs.Page.Interaction
import NumberDuel.Proofs.Report.Comparison
import NumberDuel.Proofs.Report.Solution
import NumberDuel.Proofs.Search.Covering
import NumberDuel.Proofs.Search.Size
import NumberDuel.Proofs.Search.Undefined
import NumberDuel.Proofs.Strategy.Improvement
import NumberDuel.Proofs.Strategy.Legality
import NumberDuel.Proofs.Validation.Rejection
import NumberDuel.Record
import NumberDuel.Report.Tour
