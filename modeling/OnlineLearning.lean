import OnlineLearning.Hash.Feature
import OnlineLearning.Optimizer.Basic
import OnlineLearning.Reduction.Scorer
import OnlineLearning.Reduction.Bandit
import OnlineLearning.Reduction.Grounded
import OnlineLearning.Decimal.Layout
import OnlineLearning.Model.Optimizer
import OnlineLearning.Journal
import OnlineLearning.Toml.Document
import OnlineLearning.Toml.Writer
import OnlineLearning.Config.Document
import OnlineLearning.Stack.Build
import OnlineLearning.Checkpoint
import OnlineLearning.Stack.Pool
import OnlineLearning.Proofs.Accounts
import OnlineLearning.Proofs.Checkpoints
import OnlineLearning.Proofs.ChosenLine
import OnlineLearning.Proofs.Combinations
import OnlineLearning.Proofs.DisjointLessons
import OnlineLearning.Proofs.Divisors
import OnlineLearning.Proofs.GradientDescent
import OnlineLearning.Proofs.GroundedProtocol
import OnlineLearning.Proofs.HeldOut
import OnlineLearning.Proofs.HoldoutMarks
import OnlineLearning.Proofs.HoldoutWindows
import OnlineLearning.Proofs.Insertions
import OnlineLearning.Proofs.Isolation
import OnlineLearning.Proofs.Layouts
import OnlineLearning.Proofs.ParameterRecords
import OnlineLearning.Proofs.Parameters
import OnlineLearning.Proofs.Patience
import OnlineLearning.Proofs.PredictionBounds
import OnlineLearning.Proofs.ProgressJournal
import OnlineLearning.Proofs.Rankings
import OnlineLearning.Proofs.Refusals
import OnlineLearning.Proofs.Regressions
import OnlineLearning.Proofs.Rejections
import OnlineLearning.Proofs.Repetitions
import OnlineLearning.Proofs.Resume
import OnlineLearning.Proofs.ScaleFree
import OnlineLearning.Proofs.Shadow
import OnlineLearning.Proofs.Shrinkage
import OnlineLearning.Proofs.SquaredLoss
import OnlineLearning.Proofs.Stacking
import OnlineLearning.Proofs.StoredBets
import OnlineLearning.Proofs.TypedFields
import OnlineLearning.Proofs.UnlabeledLessons
import OnlineLearning.Proofs.Validation
import OnlineLearning.Proofs.Wealth
import OnlineLearning.Proofs.Widening
import OnlineLearning.Proofs.Sensitivity
import OnlineLearning.Proofs.Traversal
import OnlineLearning.Proofs.Edits
