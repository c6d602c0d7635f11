import OnlineLearning.Journal
import OnlineLearning.Model.Chain
import OnlineLearning.Stack.Build

/-!
# Workspaces

A workspace is a chain that owns its optimizer, together with the configuration that it was built
from and, if the configuration names a file, a journal. After every successful call it counts the
example, or the batch as one example, and shows it to the journal.

Holdout examples are predicted and scored, never learned. Where the configuration switches holdout
off, the mark of an example is taken away.
-/

namespace OnlineLearning

structure Workspace (R W : Type) where
  config : Config R
  chain : Chain R W
  journal : Option (Journal R W)

/-- A call on a workspace and an input. -/
abbrev WorkspaceM (R W ι : Type) := ExceptT LearnerError (StateM (Workspace R W × ι))

namespace Workspace

variable {R W ι α : Type} [Scalar R] [Number W] [Widening R W]

omit [Scalar R] [Widening R W] in
/-- The journal of a new workspace, if its configuration names a file. -/
def newJournal (config : Config R) : Option (Journal R W) :=
  if config.run.progressLog.isEmpty then none else some (.empty .reachable)

def new (config : Config R) : Except ConfigError (Workspace R W) := do
  let chain ← (Blueprint.build ⟨config, none, none⟩ none : Except ConfigError (Chain R W))
  pure { config, chain, journal := newJournal config }

omit [Scalar R] [Number W] [Widening R W] in
/-- Whether the run has ended. -/
def isDone (w : Workspace R W) : Bool := w.chain.context.done

omit [Scalar R] [Number W] [Widening R W] in
/-- Runs a call of the chain. -/
def onChain (call : Chain.CallM R W ι α) : WorkspaceM R W ι α :=
  ExceptT.mk fun (w, input) =>
    let (result, chain, input) := (ExceptT.run call).run (w.chain, input)
    (result, { w with chain }, input)

/-- Counts an example and shows it to the journal. -/
def account (label : Option R) (prediction : R) (features : Nat) : WorkspaceM R W ι Unit :=
  ExceptT.mk fun (w, input) =>
    let context := w.chain.context
    let stats := context.stats.recordExample features
    let put (stats : Stats R W) : Chain R W := { w.chain with context := { context with stats } }
    match w.journal with
    | none => (.ok (), { w with chain := put stats }, input)
    | some journal =>
      let (result, journal, stats) := journal.observe stats label prediction features
      (result, { w with chain := put stats, journal := some journal }, input)

def accountExample : WorkspaceM R W (Example R) Unit := do
  let ec := (← get).2
  account ec.target? ec.scalar ec.numFeatures

/-- Counts a batch; its prediction is the least score. -/
def accountBatch : WorkspaceM R W (Batch R) Unit := do
  let batch := (← get).2
  let scores := (batch.head?.bind Example.ranking?).getD []
  let top := (scores.head?.map ActionScore.score).getD 0
  account none top (batch.flatMap fun ec => ec.namespaces.toList).length

def predict : WorkspaceM R W (Example R) Unit := do
  onChain (Chain.runLine fun l => l.predict)
  accountExample

omit [Scalar R] [Number W] [Widening R W] in
/-- Takes the holdout mark away where holdout is off and the chain works on examples. -/
def releaseHoldout : WorkspaceM R W (Example R) Unit :=
  modify fun (w, ec) =>
    if w.chain.context.holdoutOff && !w.chain.stack.isMultiline then
      (w, { ec with holdout := false })
    else (w, ec)

def learn : WorkspaceM R W (Example R) Unit := do
  releaseHoldout
  onChain (Chain.runLine fun l => l.learn)
  accountExample

def sensitivity : WorkspaceM R W (Example R) R := onChain Chain.sensitivity

def predictBatch : WorkspaceM R W (Batch R) Unit := do
  onChain (Chain.runBatch fun l => l.predict)
  accountBatch

/-- A batch with a holdout line is predicted only. -/
def learnBatch : WorkspaceM R W (Batch R) Unit := do
  let (w, batch) ← get
  if !w.chain.context.holdoutOff && batch.any (·.holdout) then
    onChain (Chain.runBatch fun l => l.predict)
  else onChain (Chain.runBatch fun l => l.learn)
  accountBatch

def endPass (w : Workspace R W) : Workspace R W := { w with chain := w.chain.endPass }

omit [Scalar R] [Number W] [Widening R W] in
/-- Adds a feature to an example. -/
def addFeature (w : Workspace R W) (ec : Example R) (name token : String) (value : R) : Example R :=
  let feature : Feature R := ⟨w.chain.hasher.hash name token, value⟩
  { ec with namespaces := ec.namespaces.push (namespaceIndex name) feature }

/-! ## Models -/

/-- The bytes of the model. -/
def model (w : Workspace Float32 Float) : List UInt8 := (w.chain.save .binary).bytes

/-- The readable model. -/
def dump (w : Workspace Float32 Float) : String := (w.chain.save .readable).text

def load (w : Workspace Float32 Float) (format : ModelFormat) (bytes : List UInt8) :
    Except ModelError Unit × Workspace Float32 Float :=
  let (result, _, chain) := w.chain.load format (.ofBytes bytes)
  (result, { w with chain })

end Workspace

end OnlineLearning
