import OnlineLearning.Optimizer.Basic
import OnlineLearning.Stack.Basic

/-!
# The learner of a stack

All nodes of a stack share the optimizer at its bottom. The state of a tower is that optimizer
below the states of its bandit node and its grounded nodes, whose decoders reach down to it.
-/

namespace OnlineLearning

variable {R W : Type}

/-- A line learner on a part of a larger state. -/
def LineLearner.onNode {σ τ : Type} (get : σ → τ) (set : τ → σ → σ) (l : LineLearner R W τ) :
    LineLearner R W σ where
  toLearner := l.toLearner.onNode get set
  update := NodeM.onNode get set l.update
  sensitivity node := l.sensitivity (get node)

namespace Tower

/-- The states of the nodes of a tower. -/
def State (W : Type) : Tower R → Type
  | bandit _ => Example R × Optimizer R W
  | grounded _ _ _ primary => GroundedState R W × primary.State W

/-- The optimizer at the bottom. -/
def optimizer : (t : Tower R) → t.State W → Optimizer R W
  | bandit _, s => s.2
  | grounded _ _ _ primary, s => primary.optimizer s.2

/-- Replaces the optimizer at the bottom. -/
def setOptimizer (o : Optimizer R W) : (t : Tower R) → t.State W → t.State W
  | bandit _, s => (s.1, o)
  | grounded _ _ _ primary, s => (s.1, setOptimizer o primary s.2)

/-- The state of a new tower. -/
def initial [Scalar R] (decoderContext : Context R W) (o : Optimizer R W) :
    (t : Tower R) → t.State W
  | bandit _ => (Example.blank, o)
  | grounded _ _ _ primary =>
    (⟨decoderContext, default, Example.blank⟩, initial decoderContext o primary)

/-- The states of the grounded nodes, from the top to the bottom. -/
def groundedStates : (t : Tower R) → t.State W → List (GroundedState R W)
  | bandit _, _ => []
  | grounded _ _ _ primary, s => s.1 :: primary.groundedStates s.2

end Tower

variable [Scalar R] [Number W] [Widening R W]

/-- The scorers of a line on its optimizer. -/
def Line.learner (l : Line) : LineLearner R W (Optimizer R W) :=
  l.links.foldr Scorer.learner Optimizer.learner

def Tower.learner : (t : Tower R) → Learner R W (t.State W) (Batch R)
  | .bandit l => Bandit.learner l.learner
  | .grounded settings offset decoder primary =>
    let decoder := decoder.learner.onNode primary.optimizer (fun o => primary.setOptimizer o)
    Grounded.learner settings offset primary.learner decoder

/-- The states of the nodes of a stack. -/
def Stack.State (W : Type) : Stack R → Type
  | .line _ => Optimizer R W
  | .tower t => t.State W

end OnlineLearning
