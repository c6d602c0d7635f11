import OnlineLearning.Learner

/-!
# Contextual bandits by regression

A bandit node scores every action line of a batch by regression on the features of the line and
of the shared line, and ranks the actions by their scores. It learns from the first action with an
observed cost: that cost, weighted by the inverse of the probability of the choice.

The state of the node is an example in which it makes the examples of its base. `merged` and
`regression` say what those examples are; `fill_eq_merged` and `fillRegression_eq_regression` that
nothing else is left of former ones.
-/

namespace OnlineLearning.Bandit

variable {R W σ : Type} [Scalar R]

def name : String := "cb_adf"

omit [Scalar R] in
/-- Lines that are neither shared nor feedback are actions. -/
def isAction (ec : Example R) : Bool :=
  match ec.role with
  | .shared | .feedback => false
  | .unset | .action => true

omit [Scalar R] in
def shared? (batch : Batch R) : Option (Example R) := batch.find? (·.role == .shared)

/-- The unlabeled example of an action: its features and those of the shared line. -/
def merged (shared : Option (Example R)) (action : Example R) : Example R :=
  { (Example.blank : Example R) with
    namespaces := match shared with
      | none => action.namespaces
      | some s => action.namespaces ∪ s.namespaces
    offset := action.offset
    holdout := action.holdout }

/-- The regression example of an action with an observed cost. -/
def regression (shared : Option (Example R)) (action : Example R) (observed : LoggedCost R) :
    Example R :=
  { merged shared action with
    label := .simple (some observed.cost)
    weight := action.weight / observed.probability }

/-- Makes the unlabeled example of an action in the scratch example. -/
def fill (shared : Option (Example R)) (action scratch : Example R) : Example R :=
  let copied := scratch.clear.copyNamespaces action
  let copied := match shared with
    | none => copied
    | some s => copied.copyNamespaces s
  { copied with offset := action.offset, holdout := action.holdout }

/-- Makes the regression example of an action in the scratch example. -/
def fillRegression (shared : Option (Example R)) (action : Example R) (observed : LoggedCost R)
    (scratch : Example R) : Example R :=
  { fill shared action scratch with
    label := .simple (some observed.cost)
    weight := action.weight / observed.probability }

@[simp] theorem fill_eq_merged (shared : Option (Example R)) (action scratch : Example R) :
    fill shared action scratch = merged shared action := by
  cases shared <;> simp [fill, merged, Example.copyNamespaces, Example.blank]

@[simp] theorem fillRegression_eq_regression (shared : Option (Example R)) (action : Example R)
    (observed : LoggedCost R) (scratch : Example R) :
    fillRegression shared action observed scratch = regression shared action observed := by
  simp [fillRegression, regression]

/-- Scores the action lines from a position on, writing each score into its line; `action` is the
number of the next action. -/
def scoreLines (base : LineLearner R W σ) (shared : Option (Example R)) :
    (action position : Nat) → Batch R →
      NodeM R W (Example R × σ) (Batch R) (List (ActionScore R))
  | _, _, [] => pure []
  | action, position, ec :: rest =>
    if isAction ec then do
      let scored ← NodeM.onScratch (fill shared ec) base.predict
      let score := scored.scalar
      NodeM.modifyInput (·.modify position ({ · with partialPrediction := score }))
      let scores ← scoreLines base shared (action + 1) (position + 1) rest
      pure (⟨UInt32.ofNat action, score⟩ :: scores)
    else scoreLines base shared action (position + 1) rest

/-- Scores in ascending order; actions of equal score keep their order. -/
def rank (scores : List (ActionScore R)) : List (ActionScore R) :=
  scores.mergeSort fun a b => Scalar.totalLe a.score b.score

omit [Scalar R] in
/-- Writes a ranking into the first line. -/
def publish (scores : List (ActionScore R)) : Batch R → Batch R
  | [] => []
  | ec :: rest => { ec with prediction := .ranking scores } :: rest

def predict (base : LineLearner R W σ) : NodeM R W (Example R × σ) (Batch R) Unit := do
  let batch := (← get).input
  if batch.isEmpty then throw (.emptyBatch name)
  let scores ← scoreLines base (shared? batch) 0 0 batch
  NodeM.modifyInput (publish (rank scores))

/-- The first action with an observed cost, with its position. -/
def chosen? (batch : Batch R) : Option (Nat × Example R × LoggedCost R) :=
  batch.zipIdx.findSome? fun (ec, i) =>
    if isAction ec then ec.observed?.map fun c => (i, ec, c) else none

def learn (base : LineLearner R W σ) : NodeM R W (Example R × σ) (Batch R) Unit := do
  predict base
  let batch := (← get).input
  match chosen? batch with
  | none => pure ()
  | some (i, action, observed) =>
    let learned ← NodeM.onScratch (fillRegression (shared? batch) action observed) base.learn
    NodeM.modifyInput (·.modify i ({ · with loss := learned.loss }))

/-- The bandit node on `base`. -/
def learner (base : LineLearner R W σ) : Learner R W (Example R × σ) (Batch R) where
  predict := predict base
  learn := learn base
  endPass node context :=
    let (inner, context) := base.endPass node.2 context
    ((node.1, inner), context)

end OnlineLearning.Bandit
