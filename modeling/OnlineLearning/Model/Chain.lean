import OnlineLearning.Model.Optimizer
import OnlineLearning.Stack.Chain

/-!
# The model of a chain

The model of a chain holds the counters of its grounded nodes, from the top to the bottom, and then
the model of the optimizer under the context of the chain. Scorers and bandit nodes add nothing.
-/

namespace OnlineLearning

abbrev NarrowContext := Context Float32 Float

namespace Tower

def fields : (t : Tower Float32) → t.State Float → NarrowContext → List Field
  | bandit _, s, context => s.2.fields context
  | grounded _ _ _ primary, s, context => Grounded.fields s.1 ++ primary.fields s.2 context

def load (format : ModelFormat) : (t : Tower Float32) → LoadM (t.State Float × NarrowContext) Unit
  | bandit _ => do
    let ((scratch, o), context) := (← get).2
    LoadM.onPart (o, context) (fun (o, context) => ((scratch, o), context)) (Optimizer.load format)
  | grounded _ _ _ primary => do
    let ((state, rest), context) := (← get).2
    LoadM.onPart state (fun state => ((state, rest), context)) (Grounded.load format)
    let ((state, rest), context) := (← get).2
    LoadM.onPart (rest, context) (fun (rest, context) => ((state, rest), context))
      (primary.load format)

end Tower

namespace Chain

def fields : Chain Float32 Float → List Field
  | ⟨.line _, (o : Optimizer Float32 Float), context, _⟩ => o.fields context
  | ⟨.tower t, state, context, _⟩ => t.fields state context

/-- Reads a model into a chain. A load that fails leaves the chain as far as it came. -/
def load (format : ModelFormat) (buffer : ModelBuffer) :
    Chain Float32 Float → Except ModelError Unit × ModelBuffer × Chain Float32 Float
  | ⟨.line l, (o : Optimizer Float32 Float), context, hasher⟩ =>
    let (result, buffer, o, context) :=
      (ExceptT.run (Optimizer.load format)).run (buffer, o, context)
    (result, buffer, ⟨.line l, o, context, hasher⟩)
  | ⟨.tower t, state, context, hasher⟩ =>
    let (result, buffer, state, context) :=
      (ExceptT.run (t.load format)).run (buffer, state, context)
    (result, buffer, ⟨.tower t, state, context, hasher⟩)

/-- The buffer that a model is written to. -/
def save (format : ModelFormat) (c : Chain Float32 Float) : ModelBuffer :=
  ModelBuffer.empty.write format c.fields

end Chain

end OnlineLearning
