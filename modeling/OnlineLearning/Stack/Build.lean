import OnlineLearning.Config.Basic
import OnlineLearning.Stack.Chain

/-!
# Building stacks

A stack is built from the bottom to the top, stage by stage. The stages are those that the
configuration asks for, or a list of stages to keep, in front of which an optimizer is put if it
has none. Instead of a new optimizer a stack may end in the line of another chain.

The decoder of a grounded node is a logistic scorer over the coin betting optimizer below; its
problem follows those of the primary policy.
-/

namespace OnlineLearning

/-- The beginning of the name of the optimizer that a decoder shares. -/
def decoderTarget : String := "ftrl-Coin"

structure Blueprint (R : Type) where
  config : Config R
  keep : Option (List Stage)
  /-- The line to end in instead of a new optimizer. -/
  reuse : Option Line

namespace Config

variable {R W : Type} [Scalar R] [Number W] [Widening R W]

/-- The context of a new chain. -/
def initialContext (c : Config R) : Except ConfigError (Context R W) := do
  pure { (Context.initial c.scorer.loss : Context R W) with
    interactions := ← Term.parseAll c.features.interactions
    quiet := c.run.quiet
    saveResume := c.run.saveResume
    holdoutOff := c.run.holdoutOff
    checkHoldoutEvery := c.run.checkHoldoutEvery }

omit [Widening R W] in
def newOptimizer (c : Config R) : Except ConfigError (Optimizer R W) := do
  let layout := if c.weights.sparse then Layout.sparse else .dense
  pure (.new (← c.optimizer.mode) (← c.optimizer.params) c.weights.bits.toNat layout
    c.run.earlyTerminate)

omit [Scalar R] in
/-- The settings of a grounded node, but for the negative feedback. -/
def groundedSettings (c : Config R) : GroundedSettings R where
  feedbackNamespace := namespaceIndex c.grounded.feedbackNamespace
  unlabeledPrior := c.grounded.unlabeledPrior
  positiveImportance := c.grounded.positiveImportance
  negativeImportance := c.grounded.negativeImportance
  negativeFeedback := []

omit [Scalar R] in
/-- The stages of a configuration, from the bottom to the top. -/
def stages (c : Config R) : List Stage :=
  [.optimizer, .scorer] ++ (if c.hasBandit then [.bandit] else []) ++
    (if c.grounded.enabled then [.grounded] else [])

omit [Scalar R] in
/-- The line that a decoder shares: that of a coin betting optimizer. -/
def decoderBase (primary : Tower R) : Except ConfigError Line :=
  match (Stack.tower primary).find? decoderTarget with
  | none => throw (.reuseTargetMissing decoderTarget (Stack.tower primary).enabled)
  | some (.line l) => pure l
  | some (.tower _) =>
    throw (.incompatibleDecoder "the reused optimizer must be a single-line node")

/-- A grounded node on a tower. -/
def ground (c : Config R) (primary : Tower R) : Except ConfigError (Tower R) := do
  let base ← decoderBase primary
  let { loss, link } := c.decoder.scorer
  if loss ≠ .logistic then
    throw (.incompatibleDecoder s!"decoder loss_function must be logistic, found {loss.name}")
  if link ≠ .logistic then
    throw (.incompatibleDecoder s!"decoder link must be logistic, found {link.name}")
  c.decoder.validate
  pure (.grounded c.groundedSettings (Stack.tower primary).paramsPerWeight (base.push link) primary)

end Config

namespace Blueprint

variable {R W : Type} [Scalar R] [Number W] [Widening R W]

omit [Scalar R] in
def stages (p : Blueprint R) : List Stage :=
  match p.keep with
  | none => p.config.stages
  | some keep => if keep.contains .optimizer then keep else .optimizer :: keep

/-- Puts a stage on what is there. -/
def push (p : Blueprint R) : Option (Stack R) → Stage → Except ConfigError (Stack R)
  | none, .optimizer =>
    match p.reuse with
    | some l => pure (.line l)
    | none => do pure (.line ⟨← p.config.optimizer.mode, []⟩)
  | some (.line l), .scorer => pure (.line (l.push p.config.scorer.link))
  | some (.line l), .bandit => pure (.tower (.bandit l))
  | some (.tower t), .grounded => .tower <$> p.config.ground t
  | below, stage =>
    let name := (below.map Stack.name).getD "nothing"
    throw (.invalidValue "stack" s!"{stage.name} cannot be stacked on {name}")

def stack (p : Blueprint R) : Except ConfigError (Stack R) := do
  match ← p.stages.foldlM (fun below stage => some <$> p.push below stage) none with
  | some s => pure s
  | none => throw (.invalidValue "stack" "no stages enabled")

omit [Scalar R] in
/-- Sets the negative feedback of the upmost grounded node. -/
def setNegativeFeedback (indices : List UInt64) : Stack R → Stack R
  | .tower (.grounded settings offset decoder primary) =>
    .tower (.grounded { settings with negativeFeedback := indices } offset decoder primary)
  | s => s

omit [Scalar R] in
/-- Feedback tokens as feature indices. -/
def negativeFeedback (c : Config R) (h : FeatureHasher) : List UInt64 :=
  c.grounded.negativeFeedback.map (h.hash c.grounded.feedbackNamespace)

/-- The state of a new stack. -/
def initialState (decoderContext : Context R W) (o : Optimizer R W) : (s : Stack R) → s.State W
  | .line _ => o
  | .tower t => t.initial decoderContext o

/-- Builds a chain. `shared` is the optimizer below the line to end in, if there is one. -/
def build (p : Blueprint R) (shared : Option (Optimizer R W)) :
    Except ConfigError (Chain R W) := do
  p.config.validate
  let context ← p.config.initialContext
  let stack ← p.stack
  let hasher := FeatureHasher.ofBits p.config.weights.bits.toNat stack.paramsPerWeight
  let stack := setNegativeFeedback (negativeFeedback p.config hasher) stack
  let optimizer ← match shared with
    | some o => pure o
    | none => p.config.newOptimizer
  let decoderContext ← match stack with
    | .tower (.grounded ..) => p.config.decoder.initialContext
    | _ => pure context
  pure { stack, context, hasher, state := initialState decoderContext optimizer stack }

end Blueprint

end OnlineLearning
