import OnlineLearning.Learner

/-!
# Scorers

A scorer stands on a learner of single examples. It lets labels widen the prediction bounds,
accounts for the loss and publishes the prediction through a link. Holdout examples and examples
without weight are predicted instead of learned.
-/

namespace OnlineLearning.Scorer

variable {R W σ : Type} [Scalar R] [Number W] [Widening R W]

def name (link : LinkFunction) : String := "scorer-" ++ link.name

/-- The loss of a labeled example of positive weight is written into it and, when it was to be
learned, into the statistics. -/
def account (learning : Bool) (label : R) : NodeM R W σ (Example R) Unit := do
  let frame ← get
  let ec := frame.input
  if 0 < ec.weight then
    let loss := frame.context.lossOf ec.scalar label * ec.weight
    NodeM.modifyInput ({ · with loss })
    if learning then
      NodeM.modifyContext fun c =>
        { c with stats := c.stats.recordLoss ec.holdout loss ec.weight label }

/-- Predicts with the learner below, or lets it learn when `learning` is set and the example has a
label and positive weight and is not held out. -/
def runBelow (link : LinkFunction) (base : LineLearner R W σ) (learning : Bool) :
    NodeM R W σ (Example R) Unit := do
  let ec := (← get).input
  match ec.label with
  | .bandit _ => throw (.labelMismatch (name link) "simple")
  | .simple none => base.predict
  | .simple (some label) =>
    NodeM.modifyContext (·.coverLabel label)
    (if learning && 0 < ec.weight && !ec.holdout then base.learn else base.predict)
    account learning label

omit [Number W] [Widening R W] in
/-- Publishes the prediction through the link. -/
def publish (link : LinkFunction) : NodeM R W σ (Example R) Unit :=
  NodeM.modifyInput fun ec => { ec with prediction := .scalar (link.apply ec.scalar) }

def run (link : LinkFunction) (base : LineLearner R W σ) (learning : Bool) :
    NodeM R W σ (Example R) Unit := do
  runBelow link base learning
  publish link

/-- A scorer on `base`; it has no state of its own. -/
def learner (link : LinkFunction) (base : LineLearner R W σ) : LineLearner R W σ where
  predict := run link base false
  learn := run link base true
  endPass := base.endPass
  update := base.update
  sensitivity := base.sensitivity

end OnlineLearning.Scorer
