import OnlineLearning.Hash.Feature
import OnlineLearning.Stack.Learner

/-!
# Chains

A chain is a stack with the states of its nodes and the context that it learns in.

* `Chain.runLine` and `Chain.runBatch` call the upmost node. A chain that works on batches has no
  entry for single examples, and the other way round.
* `Chain.optimizer` and `Chain.setOptimizer` serve chains that share an optimizer.
-/

namespace OnlineLearning

structure Chain (R W : Type) where
  stack : Stack R
  state : stack.State W
  context : Context R W
  hasher : FeatureHasher

namespace Chain

variable {R W ι α : Type}

def optimizer : Chain R W → Optimizer R W
  | ⟨.line _, state, _, _⟩ => state
  | ⟨.tower t, state, _, _⟩ => t.optimizer state

def setOptimizer (o : Optimizer R W) : Chain R W → Chain R W
  | ⟨.line l, _, context, hasher⟩ => ⟨.line l, o, context, hasher⟩
  | ⟨.tower t, state, context, hasher⟩ => ⟨.tower t, t.setOptimizer o state, context, hasher⟩

/-- The state of the upmost grounded node. -/
def grounded? : Chain R W → Option (GroundedState R W)
  | ⟨.line _, _, _, _⟩ => none
  | ⟨.tower t, state, _, _⟩ => (t.groundedStates state).head?

/-- A call on a chain and an input. -/
abbrev CallM (R W ι : Type) := ExceptT LearnerError (StateM (Chain R W × ι))

variable [Scalar R] [Number W] [Widening R W]

/-- Runs a call of the upmost node of a line. -/
def runLine (call : LineLearner R W (Optimizer R W) → NodeM R W (Optimizer R W) (Example R) α) :
    CallM R W (Example R) α :=
  ExceptT.mk fun
    | (⟨.line l, state, context, hasher⟩, ec) =>
      let (result, frame) := (call l.learner).runOn ⟨state, context, ec⟩
      (result, ⟨.line l, frame.node, frame.context, hasher⟩, frame.input)
    | (c, ec) => (.error (.wrongArity "multi-line"), c, ec)

/-- Runs a call of the upmost node of a tower. -/
def runBatch (call : {σ : Type} → Learner R W σ (Batch R) → NodeM R W σ (Batch R) α) :
    CallM R W (Batch R) α :=
  ExceptT.mk fun
    | (⟨.tower t, state, context, hasher⟩, batch) =>
      let (result, frame) := (call t.learner).runOn ⟨state, context, batch⟩
      (result, ⟨.tower t, frame.node, frame.context, hasher⟩, frame.input)
    | (c, batch) => (.error (.wrongArity "single-line"), c, batch)

/-- The sensitivity of the prediction for an example. -/
def sensitivity : CallM R W (Example R) R :=
  runLine fun l => do
    let frame ← get
    pure (l.sensitivity frame.node frame.context frame.input)

/-- Closes a pass. -/
def endPass : Chain R W → Chain R W
  | ⟨.line l, state, context, hasher⟩ =>
    let context := { context with currentPass := context.currentPass + 1 }
    let (state, context) := (l.learner : LineLearner R W _).endPass state context
    ⟨.line l, state, context, hasher⟩
  | ⟨.tower t, state, context, hasher⟩ =>
    let context := { context with currentPass := context.currentPass + 1 }
    let (state, context) := t.learner.endPass state context
    ⟨.tower t, state, context, hasher⟩

end Chain

end OnlineLearning
