import OnlineLearning.Learner
import OnlineLearning.Optimizer.Preview

/-!
# The optimizer

The optimizer is the learner at the bottom of every chain. It predicts the dot product of the
features with the parameters of its table and learns by applying the step of its mode to the group
of every feature.

* `Optimizer.predict` reads parameters only;
* `Optimizer.learn` first predicts as its mode asks for, refreshing parameters (exponential
  updates) or the norm totals (coin betting), and then steps along the derivative of the loss;
* `Optimizer.endPass` judges the pass by its holdout loss and ends the run when the loss stalls.
-/

namespace OnlineLearning

structure Optimizer (R W : Type) where
  mode : Mode
  params : Params R
  weights : WeightTable R mode.width
  /-- Passes since the holdout loss last improved. -/
  stalls : UInt32
  /-- The number of such passes at which a run ends. -/
  patience : UInt32
  /-- The number of channels that the model names; it is kept as read. -/
  size : UInt64
  totalWeight : W
  normalizedSumNorm : W
  averageSquaredNorm : R

namespace Optimizer

variable {R W : Type} [Scalar R] [Number W] [Widening R W]

omit [Widening R W] in
def new (mode : Mode) (params : Params R) (bits : Nat) (layout : Layout) (patience : UInt32) :
    Optimizer R W where
  mode
  params
  weights := .empty bits layout
  stalls := 0
  patience
  size := UInt64.ofNat mode.width
  totalWeight := 0
  normalizedSumNorm := 0
  averageSquaredNorm := 1

omit [Scalar R] [Number W] [Widening R W] in
def name (o : Optimizer R W) : String := "ftrl-" ++ o.mode.name

/-- Writes a raw prediction into an example. -/
def publish (context : Context R W) (raw : R) (ec : Example R) : Example R :=
  { ec with
    generated := (ec.products context.interactions).length
    partialPrediction := raw
    prediction := .scalar (context.bound raw) }

/-- The guard that keeps the average norm positive. -/
def normEpsilon : W := 1 / 1000000

/-- Recomputes the average norm from the totals. -/
def refreshAverage (o : Optimizer R W) : Optimizer R W :=
  { o with averageSquaredNorm :=
    if 0 < o.totalWeight then
      Widening.narrow ((o.normalizedSumNorm + normEpsilon) / o.totalWeight)
    else 1 }

/-- The totals after an example of weight `weight` and squared norm `norm`. -/
def countNorm (o : Optimizer R W) (weight norm : R) : Optimizer R W :=
  refreshAverage { o with
    totalWeight := o.totalWeight + Widening.widen weight
    normalizedSumNorm := o.normalizedSumNorm + Widening.widen weight * Widening.widen norm }

/-- The prediction that learning starts from, with the state that it leaves. A mode that works
with norms counts the example first and divides by the average norm. -/
def learningPrediction (o : Optimizer R W) (weight : R) (visits : List (Feature R)) :
    Optimizer R W × R :=
  let look := o.mode.preview o.params o.weights visits
  let seen := { o with weights := look.weights }
  match look.norm? with
  | none => (seen, look.sum)
  | some norm =>
    let counted := seen.countNorm weight norm
    (counted, look.sum / counted.averageSquaredNorm)

/-- Applies the step of the mode to every visited group, one after another. -/
def step (o : Optimizer R W) (update : R) (visits : List (Feature R)) : Optimizer R W :=
  let stepOn (t : WeightTable R o.mode.width) (f : Feature R) :=
    t.modify f.index (o.mode.updateGroup o.params o.averageSquaredNorm f.value update)
  { o with weights := visits.foldl stepOn o.weights }

/-! ## Calls -/

def predict : NodeM R W (Optimizer R W) (Example R) Unit :=
  modify fun frame =>
    let raw := frame.node.weights.dot (frame.input.visits frame.context.interactions)
    { frame with input := publish frame.context raw frame.input }

/-- Steps along the derivative of the loss at the prediction that the example holds. -/
def update : NodeM R W (Optimizer R W) (Example R) Unit := do
  let frame ← get
  match frame.input.target? with
  | none => throw (.labelMismatch frame.node.name "simple")
  | some label =>
    let update := frame.context.derivativeOf frame.input.scalar label * frame.input.weight
    let visits := frame.input.visits frame.context.interactions
    set { frame with node := frame.node.step update visits }

def learn : NodeM R W (Optimizer R W) (Example R) Unit := do
  modify fun frame =>
    let visits := frame.input.visits frame.context.interactions
    let (node, raw) := frame.node.learningPrediction frame.input.weight visits
    { frame with node, input := publish frame.context raw frame.input }
  update

/-- The sum of the sensitivity terms of all features. -/
def sensitivity (o : Optimizer R W) (context : Context R W) (ec : Example R) : R :=
  (ec.visits context.interactions).foldl
    (fun sum f =>
      sum + sensitivityTerm o.params (o.mode.gradientChannel (o.weights.group f.index)) f.value)
    0

/-- Closes a pass with holdout examples; on a check pass the run is done if exactly `patience`
passes have stalled. -/
def endPass (o : Optimizer R W) (context : Context R W) : Optimizer R W × Context R W :=
  if context.holdoutOff then (o, context)
  else
    let (_, stalls, stats) := context.stats.closeHoldoutWindow context.currentPass o.stalls
    let every := context.checkHoldoutEvery
    let check := every ≤ 1 || context.currentPass % every == 0
    ({ o with stalls },
      { context with stats, done := context.done || (o.patience == stalls && check) })

/-- The optimizer as a learner of single examples. -/
def learner : LineLearner R W (Optimizer R W) where
  predict := predict
  learn := learn
  endPass := endPass
  update := update
  sensitivity := sensitivity

end Optimizer

end OnlineLearning
