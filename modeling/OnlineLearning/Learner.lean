import OnlineLearning.Context

/-!
# Learners

A learner is a step function: a call works on a `Frame`, which holds the state of the learner,
the context of its chain and the input, and leaves a frame behind also when it fails.

* `NodeM` is the monad of such calls;
* `NodeM.onInput`, `NodeM.onNode` and `NodeM.onScratch` run a call on another input, on a part of the
  state, or on an example that the state holds for reuse;
* `Learner` bundles the calls that every learner answers, `LineLearner` those of learners of
  single examples.
-/

namespace OnlineLearning

/-- What a call reads and writes: the state of the learner, the context and the input. -/
structure Frame (R W σ ι : Type) where
  node : σ
  context : Context R W
  input : ι

/-- A call that may fail. What it changed before failing stays changed. -/
abbrev NodeM (R W σ ι : Type) := ExceptT LearnerError (StateM (Frame R W σ ι))

namespace NodeM

variable {R W σ τ ι κ α : Type}

/-- The outcome of a call and the frame that it leaves. -/
def runOn (call : NodeM R W σ ι α) (frame : Frame R W σ ι) :
    Except LearnerError α × Frame R W σ ι :=
  (ExceptT.run call).run frame

def ofRun (f : Frame R W σ ι → Except LearnerError α × Frame R W σ ι) : NodeM R W σ ι α :=
  ExceptT.mk f

/-- Runs a call on another input. Returns the result and what became of that input. -/
def onInput (input : κ) (call : NodeM R W σ κ α) : NodeM R W σ ι (α × κ) :=
  ofRun fun frame =>
    let (result, inner) := call.runOn ⟨frame.node, frame.context, input⟩
    (result.map (·, inner.input), { frame with node := inner.node, context := inner.context })

/-- Runs a call on the part of the state that `get` and `set` name. -/
def onNode (get : σ → τ) (set : τ → σ → σ) (call : NodeM R W τ ι α) : NodeM R W σ ι α :=
  ofRun fun frame =>
    let (result, inner) := call.runOn ⟨get frame.node, frame.context, frame.input⟩
    (result, ⟨set inner.node frame.node, inner.context, inner.input⟩)

/-- Runs a call on the scratch example of a node, which is filled by `fill` first. Returns what
became of the example, which stays the scratch example. -/
def onScratch (fill : Example R → Example R) (call : NodeM R W σ (Example R) Unit) :
    NodeM R W (Example R × σ) ι (Example R) :=
  ofRun fun frame =>
    let (scratch, node) := frame.node
    let (result, inner) := call.runOn ⟨node, frame.context, fill scratch⟩
    (result.map fun _ => inner.input,
      { frame with node := (inner.input, inner.node), context := inner.context })

def modifyContext (f : Context R W → Context R W) : NodeM R W σ ι Unit :=
  modify fun frame => { frame with context := f frame.context }

def modifyInput (f : ι → ι) : NodeM R W σ ι Unit :=
  modify fun frame => { frame with input := f frame.input }

end NodeM

/-- The calls of every learner. `endPass` closes a pass over the data and cannot fail. -/
structure Learner (R W σ ι : Type) where
  predict : NodeM R W σ ι Unit
  /-- Predicts and learns from the label. -/
  learn : NodeM R W σ ι Unit
  endPass : σ → Context R W → σ × Context R W := fun node context => (node, context)

/-- A learner of single examples. `update` learns without predicting first, where that differs;
`sensitivity` says how much the prediction would move per unit of gradient. -/
structure LineLearner (R W σ : Type) extends Learner R W σ (Example R) where
  update : NodeM R W σ (Example R) Unit := learn
  sensitivity : σ → Context R W → Example R → R

/-- A learner on a part of a larger state. -/
def Learner.onNode {R W σ τ ι : Type} (get : σ → τ) (set : τ → σ → σ) (l : Learner R W τ ι) :
    Learner R W σ ι where
  predict := NodeM.onNode get set l.predict
  learn := NodeM.onNode get set l.learn
  endPass node context :=
    let (part, context) := l.endPass (get node) context
    (set part node, context)

end OnlineLearning
