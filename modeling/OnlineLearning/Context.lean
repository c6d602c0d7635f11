import OnlineLearning.Example.Interaction
import OnlineLearning.Stats

/-!
# Contexts

Every chain of learners has a `Context`: its loss, its statistics, its interactions and the
settings of the run. A learner that two chains share sees the context of the chain that calls it.
-/

namespace OnlineLearning

structure Context (R W : Type) where
  loss : LossFunction
  stats : Stats R W
  interactions : List Term
  quiet : Bool
  saveResume : Bool
  holdoutOff : Bool
  checkHoldoutEvery : UInt64
  currentPass : UInt64
  done : Bool
  deriving BEq

namespace Context

variable {R W : Type} [Scalar R] [Number W] [Widening R W]

def initial (loss : LossFunction) : Context R W where
  loss
  stats := Stats.initial loss
  interactions := []
  quiet := false
  saveResume := true
  holdoutOff := true
  checkHoldoutEvery := 1
  currentPass := 0
  done := false

omit [Number W] [Widening R W] in
/-- Widens the prediction bounds to a label, where the loss lets labels do so. -/
def coverLabel (c : Context R W) (label : R) : Context R W :=
  if c.loss.tracksLabelRange then
    { c with stats :=
      { c.stats with
        minLabel := if label < c.stats.minLabel then label else c.stats.minLabel
        maxLabel := if c.stats.maxLabel < label then label else c.stats.maxLabel } }
  else c

omit [Number W] [Widening R W] in
/-- A raw prediction moved into the bounds, zero for a NaN. -/
def bound (c : Context R W) (raw : R) : R :=
  if Scalar.isNaN raw then 0
  else Scalar.minNum (Scalar.maxNum raw c.stats.minLabel) c.stats.maxLabel

omit [Number W] [Widening R W] in
/-- The loss of a prediction under the bounds of the context. -/
def lossOf (c : Context R W) (prediction label : R) : R :=
  c.loss.loss c.stats.minLabel c.stats.maxLabel prediction label

omit [Number W] [Widening R W] in
/-- The derivative of the loss under the bounds of the context. -/
def derivativeOf (c : Context R W) (prediction label : R) : R :=
  c.loss.derivative c.stats.minLabel c.stats.maxLabel prediction label

end Context

end OnlineLearning
