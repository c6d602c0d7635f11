import OnlineLearning.Learner

/-!
# Interaction-grounded learning

A grounded node stands on a primary policy over batches and never sees true costs. It trains a
decoder to recognise the chosen action by the feedback that followed, and sets the cost of the
chosen action by what the decoder thinks of it:

* nothing (cost 0) unless the decoder is confident,
* a gain (cost -1) if it is and the feedback is not known to be negative,
* a loss that outweighs the gain by the prior of unlabeled feedback if it is.

Decoder and primary policy may share state, which here is one `σ`; the decoder has a context of
its own. The examples of the decoder are made in one example that the node holds: `decoderExample`
says what they are, `fill_eq_decoderExample` that nothing else is left of former ones.
-/

namespace OnlineLearning

structure GroundedSettings (R : Type) where
  /-- The namespace in which the decoder finds the feedback. -/
  feedbackNamespace : UInt8
  unlabeledPrior : R
  /-- The weight of the chosen line as a decoder example. -/
  positiveImportance : R
  /-- The weight of every other line as a decoder example. -/
  negativeImportance : R
  /-- The feedback features that mark a decision as bad. -/
  negativeFeedback : List UInt64

structure GroundedCounters where
  /-- Examples that the decoder learned. -/
  decoderExamples : UInt64
  /-- Batches in which the decoder was confident. -/
  extremeBatches : UInt64
  /-- Batches that the primary policy learned. -/
  batchesLearned : UInt64
  deriving DecidableEq, Repr

instance : Inhabited GroundedCounters := ⟨⟨0, 0, 0⟩⟩

structure GroundedState (R W : Type) where
  decoderContext : Context R W
  counters : GroundedCounters
  /-- The example in which those of the decoder are made. -/
  scratch : Example R

namespace Grounded

variable {R W σ : Type} [Scalar R]

def name : String := "interaction_ground"

def defaultSettings : GroundedSettings R where
  feedbackNamespace := 0x46
  unlabeledPrior := 1 / 2
  positiveImportance := 1
  negativeImportance := 1 / 2
  negativeFeedback := []

/-- The cost of a chosen action of which the decoder is confident. -/
def extremeCost (s : GroundedSettings R) (isNegative : Bool) : R :=
  -1 + (if isNegative then 1 else 0) * (1 + 1 / s.unlabeledPrior)

omit [Scalar R] in
/-- The first feature of the last feedback line. -/
def feedback? (batch : Batch R) : Option (Feature R) :=
  (batch.reverse.find? (·.role == .feedback)).bind (·.namespaces.toList.head?)

/-- The decoder example of a line: its features and the feedback, labeled by whether the line was
chosen. -/
def decoderExample (s : GroundedSettings R) (offset : UInt64) (feedback : Option (Feature R))
    (chosen : Bool) (line : Example R) : Example R :=
  { (Example.blank : Example R) with
    namespaces := match feedback with
      | none => line.namespaces
      | some f => line.namespaces.push s.feedbackNamespace f
    label := .simple (some (if chosen then 1 else -1))
    weight := if chosen then s.positiveImportance else s.negativeImportance
    offset := line.offset + offset }

/-- Makes the decoder example of a line in the scratch example. -/
def fill (s : GroundedSettings R) (offset : UInt64) (feedback : Option (Feature R))
    (chosen : Bool) (line scratch : Example R) : Example R :=
  let copied := scratch.clear.copyNamespaces line
  let copied := match feedback with
    | none => copied
    | some f => copied.push s.feedbackNamespace f
  { copied with
    label := .simple (some (if chosen then 1 else -1))
    weight := if chosen then s.positiveImportance else s.negativeImportance
    offset := line.offset + offset }

@[simp] theorem fill_eq_decoderExample (s : GroundedSettings R) (offset : UInt64)
    (feedback : Option (Feature R)) (chosen : Bool) (line scratch : Example R) :
    fill s offset feedback chosen line scratch = decoderExample s offset feedback chosen line := by
  cases feedback <;>
    simp [fill, decoderExample, Example.copyNamespaces, Example.push, Example.blank]

/-- The position of the first line with an observed cost that is not feedback. -/
def chosen? (batch : Batch R) : Option Nat :=
  batch.findIdx? fun ec => ec.role != .feedback && ec.hasObservedCost

omit [Scalar R] in
/-- A call of the decoder on the scratch example, which is filled first, in the context of the
decoder. Returns what became of the example. -/
def onDecoder (fill : Example R → Example R) (call : NodeM R W σ (Example R) Unit) :
    NodeM R W (GroundedState R W × σ) (Batch R) (Example R) :=
  NodeM.ofRun fun frame =>
    let (state, node) := frame.node
    let (result, inner) := call.runOn ⟨node, state.decoderContext, fill state.scratch⟩
    let state := { state with decoderContext := inner.context, scratch := inner.input }
    (result.map fun _ => inner.input, { frame with node := (state, inner.node) })

omit [Scalar R] in
def modifyState (f : GroundedState R W → GroundedState R W) :
    NodeM R W (GroundedState R W × σ) (Batch R) Unit :=
  modify fun frame =>
    let (state, node) := frame.node
    { frame with node := (f state, node) }

omit [Scalar R] in
def modifyCounters (f : GroundedCounters → GroundedCounters) :
    NodeM R W (GroundedState R W × σ) (Batch R) Unit :=
  modifyState fun state => { state with counters := f state.counters }

omit [Scalar R] in
/-- A call of the primary policy. -/
def onPrimary (call : NodeM R W σ (Batch R) Unit) :
    NodeM R W (GroundedState R W × σ) (Batch R) Unit :=
  NodeM.onNode Prod.snd (fun node s => (s.1, node)) call

/-- Teaches the decoder every line that is not feedback, in order. -/
def teach (s : GroundedSettings R) (offset : UInt64) (decoder : LineLearner R W σ)
    (feedback : Option (Feature R)) (chosen : Nat) :
    (position : Nat) → Batch R → NodeM R W (GroundedState R W × σ) (Batch R) Unit
  | _, [] => pure ()
  | position, line :: rest => do
    if line.role != .feedback then
      let _ ← onDecoder (fill s offset feedback (position == chosen) line) decoder.learn
      modifyCounters fun c => { c with decoderExamples := c.decoderExamples + 1 }
    teach s offset decoder feedback chosen (position + 1) rest

/-- The cost that replaces the observed one, given the decoder's score of the chosen line. -/
def groundedCost (s : GroundedSettings R) (psi : R) (isNegative : Bool) : R :=
  if 1 < psi * 2 then extremeCost s isNegative else 0

def isNegative (s : GroundedSettings R) (feedback : Option (Feature R)) : Bool :=
  match feedback with
  | none => false
  | some f => s.negativeFeedback.contains f.index

/-- Sets the cost of the chosen line, given the decoder's score of it, and lets the primary policy
learn. -/
def settle (s : GroundedSettings R) (primary : Learner R W σ (Batch R))
    (feedback : Option (Feature R)) (chosen : Nat) (psi : R) :
    NodeM R W (GroundedState R W × σ) (Batch R) Unit := do
  modifyState fun state => { state with scratch := state.scratch.clear }
  if 1 < psi * 2 then
    modifyCounters fun c => { c with extremeBatches := c.extremeBatches + 1 }
  let cost := groundedCost s psi (isNegative s feedback)
  NodeM.modifyInput (·.modify chosen (·.setObservedCost cost))
  onPrimary primary.learn
  modifyCounters fun c => { c with batchesLearned := c.batchesLearned + 1 }

/-- Teaches the decoder and then the primary policy, if a line was chosen. -/
def learnFrom (s : GroundedSettings R) (offset : UInt64) (primary : Learner R W σ (Batch R))
    (decoder : LineLearner R W σ) (batch : Batch R) :
    NodeM R W (GroundedState R W × σ) (Batch R) Unit := do
  match chosen? batch with
  | none => onPrimary primary.predict
  | some chosen =>
    let feedback := feedback? batch
    let line := batch.getD chosen Example.blank
    let scored ← onDecoder (fill s offset feedback true line) decoder.predict
    teach s offset decoder feedback chosen 0 batch
    settle s primary feedback chosen scored.scalar

def learn (s : GroundedSettings R) (offset : UInt64) (primary : Learner R W σ (Batch R))
    (decoder : LineLearner R W σ) : NodeM R W (GroundedState R W × σ) (Batch R) Unit := do
  let batch := (← get).input
  if batch.isEmpty then throw (.emptyBatch name)
  learnFrom s offset primary decoder batch

/-- The grounded node over a primary policy and a decoder. Its `offset` moves decoder examples to
a problem of their own. -/
def learner (s : GroundedSettings R) (offset : UInt64) (primary : Learner R W σ (Batch R))
    (decoder : LineLearner R W σ) : Learner R W (GroundedState R W × σ) (Batch R) where
  predict := onPrimary primary.predict
  learn := learn s offset primary decoder
  endPass node context :=
    let (inner, context) := primary.endPass node.2 context
    ((node.1, inner), context)

end Grounded

end OnlineLearning
