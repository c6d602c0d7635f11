import OnlineLearning.Loss

/-!
# Running statistics of a chain

`Stats` holds the label range, the example counters and the loss sums of one chain of learners.
Losses of holdout examples are kept apart from those of learned ones; `Stats.closeHoldoutWindow`
judges a pass by the holdout losses since the pass before.
-/

namespace OnlineLearning

structure Stats (R W : Type) where
  minLabel : R
  maxLabel : R
  exampleNumber : UInt64
  totalFeatures : UInt64
  sumLoss : W
  sumLossSinceLastDump : W
  weightedLabeledExamples : W
  weightedLabels : W
  weightedHoldoutExamples : W
  holdoutSumLoss : W
  weightedHoldoutExamplesSinceLastPass : W
  holdoutSumLossSinceLastPass : W
  holdoutBestLoss : R
  holdoutBestPass : UInt64
  deriving BEq

namespace Stats

variable {R W : Type} [Scalar R] [Number W] [Widening R W]

/-- The statistics before the first example. -/
def initial (f : LossFunction) : Stats R W where
  minLabel := f.initialBounds.1
  maxLabel := f.initialBounds.2
  exampleNumber := 0
  totalFeatures := 0
  sumLoss := 0
  sumLossSinceLastDump := 0
  weightedLabeledExamples := 0
  weightedLabels := 0
  weightedHoldoutExamples := 0
  holdoutSumLoss := 0
  weightedHoldoutExamplesSinceLastPass := 0
  holdoutSumLossSinceLastPass := 0
  holdoutBestLoss := Scalar.largest
  holdoutBestPass := 0

omit [Scalar R] [Number W] [Widening R W] in
/-- Counts one example. -/
def recordExample (s : Stats R W) (features : Nat) : Stats R W :=
  { s with
    exampleNumber := s.exampleNumber + 1
    totalFeatures := s.totalFeatures + UInt64.ofNat features }

/-- Accounts for the weighted loss of one labeled prediction. -/
def recordLoss (s : Stats R W) (holdout : Bool) (loss weight label : R) : Stats R W :=
  let loss := Widening.widen loss
  let weight := Widening.widen weight
  if holdout then
    { s with
      weightedHoldoutExamples := s.weightedHoldoutExamples + weight
      holdoutSumLoss := s.holdoutSumLoss + loss
      weightedHoldoutExamplesSinceLastPass := s.weightedHoldoutExamplesSinceLastPass + weight
      holdoutSumLossSinceLastPass := s.holdoutSumLossSinceLastPass + loss }
  else
    { s with
      weightedLabeledExamples := s.weightedLabeledExamples + weight
      weightedLabels := s.weightedLabels + Widening.widen label * weight
      sumLoss := s.sumLoss + loss
      sumLossSinceLastDump := s.sumLossSinceLastDump + loss }

omit [Scalar R] [Widening R W] in
def averageLoss (s : Stats R W) : W :=
  if 0 < s.weightedLabeledExamples then s.sumLoss / s.weightedLabeledExamples else 0

/-- The holdout loss of the pass that is ending; half the largest number if no holdout example
had weight. -/
def passLoss (s : Stats R W) : R :=
  if 0 < s.weightedHoldoutExamplesSinceLastPass then
    Widening.narrow (s.holdoutSumLossSinceLastPass / s.weightedHoldoutExamplesSinceLastPass)
  else Scalar.largest * (1 / 2)

/-- Closes the holdout window of a pass. The counter of passes without a gain starts anew when
the pass is the best so far, and goes on otherwise, unless no holdout loss was ever seen.

The result says whether the pass was the best. -/
def closeHoldoutWindow (s : Stats R W) (pass : UInt64) (stalls : UInt32) :
    Bool × UInt32 × Stats R W :=
  let loss := s.passLoss
  let closed :=
    { s with weightedHoldoutExamplesSinceLastPass := 0, holdoutSumLossSinceLastPass := 0 }
  if loss < s.holdoutBestLoss then
    (true, 0, { closed with holdoutBestLoss := loss, holdoutBestPass := pass })
  else if loss != Scalar.largest || Scalar.isFinite s.holdoutBestLoss then
    (false, stalls + 1, closed)
  else (false, stalls, closed)

end Stats

end OnlineLearning
