import OnlineLearning.Proofs.Calls
import OnlineLearning.Workspace

/-!
# Calls of a workspace

A workspace hands an input to its chain and counts it if that went well. What a call leaves is made
up of what the learner of the chain leaves and of what counting makes of context and journal:

* `Workspace.tally` is the counting, apart from the workspace;
* `Workspace.runOn_callBatch` says what a call with a batch leaves, and `Workspace.runOn_callLine`
  what one with an example leaves;
* `Workspace.runOn_callBatch_line` and `Workspace.runOn_callLine_tower`: a call with an input of the
  other kind is refused.
-/

namespace OnlineLearning

variable {R W ι α β : Type}

/-- The outcome of a call, what it leaves of the workspace, and what became of the input. -/
def WorkspaceM.runOn (call : WorkspaceM R W ι α) (w : Workspace R W) (input : ι) :
    Except LearnerError α × Workspace R W × ι :=
  (ExceptT.run call).run (w, input)

namespace WorkspaceM

theorem runOn_bind (call : WorkspaceM R W ι α) (next : α → WorkspaceM R W ι β)
    (w : Workspace R W) (input : ι) :
    (call >>= next).runOn w input =
      match call.runOn w input with
      | (.ok a, left, input) => (next a).runOn left input
      | (.error e, left, input) => (.error e, left, input) := by
  simp only [runOn, ExceptT.run_bind, StateT.run_bind]
  rcases (ExceptT.run call).run (w, input) with ⟨_ | _, _, _⟩ <;> rfl

@[simp] theorem runOn_get (w : Workspace R W) (input : ι) :
    (get : WorkspaceM R W ι (Workspace R W × ι)).runOn w input = (.ok (w, input), w, input) := rfl

@[simp] theorem runOn_modify (f : Workspace R W × ι → Workspace R W × ι) (w : Workspace R W)
    (input : ι) : (modify f : WorkspaceM R W ι PUnit).runOn w input = (.ok ⟨⟩, f (w, input)) := rfl

end WorkspaceM

/-- One of the two calls that an input can be handed to. -/
def Learner.call {σ : Type} (l : Learner R W σ ι) (learning : Bool) : NodeM R W σ ι Unit :=
  if learning then l.learn else l.predict

namespace Workspace

variable [Scalar R] [Number W] [Widening R W]

/-! ## Counting -/

/-- What counting an example makes of a context and a journal. -/
def tally (context : Context R W) (journal : Option (Journal R W)) (label : Option R)
    (prediction : R) (features : Nat) :
    Except LearnerError Unit × Context R W × Option (Journal R W) :=
  let stats := context.stats.recordExample features
  match journal with
  | none => (.ok (), { context with stats }, none)
  | some journal =>
    let (result, journal, stats) := journal.observe stats label prediction features
    (result, { context with stats }, some journal)

/-- What counting a batch makes of a context and a journal. -/
def batchTally (context : Context R W) (journal : Option (Journal R W)) (batch : Batch R) :
    Except LearnerError Unit × Context R W × Option (Journal R W) :=
  let scores := (batch.head?.bind Example.ranking?).getD []
  let top := (scores.head?.map ActionScore.score).getD 0
  tally context journal none top (batch.flatMap fun ec => ec.namespaces.toList).length

/-- What is counted of a call: nothing if it failed. -/
def counted (count : Context R W → Option (Journal R W) → ι →
      Except LearnerError Unit × Context R W × Option (Journal R W))
    (outcome : Except LearnerError Unit) (context : Context R W)
    (journal : Option (Journal R W)) (input : ι) :
    Except LearnerError Unit × Context R W × Option (Journal R W) :=
  match outcome with
  | .ok () => count context journal input
  | .error e => (.error e, context, journal)

omit [Scalar R] [Widening R W] in
theorem runOn_account (label : Option R) (prediction : R) (features : Nat) (w : Workspace R W)
    (input : ι) :
    (account label prediction features : WorkspaceM R W ι Unit).runOn w input =
      let t := tally w.chain.context w.journal label prediction features
      (t.1, ⟨w.config, { w.chain with context := t.2.1 }, t.2.2⟩, input) := by
  obtain ⟨config, chain, _ | journal⟩ := w <;> rfl

/-! ## Batches -/

/-- One of the two calls that take a batch. -/
def callBatch (learning : Bool) : WorkspaceM R W (Batch R) Unit :=
  if learning then learnBatch else predictBatch

/-- Whether a call with a batch gets to learn: no line may be held out where holdout is on. -/
def learns (context : Context R W) (batch : Batch R) (learning : Bool) : Bool :=
  learning && !(!context.holdoutOff && batch.any (·.holdout))

theorem callBatch_eq (learning : Bool) (w : Workspace R W) (batch : Batch R) :
    (callBatch learning).runOn w batch =
      (onChain (Chain.runBatch fun l => l.call (learns w.chain.context batch learning)) >>=
        fun _ => accountBatch : WorkspaceM R W _ Unit).runOn w batch := by
  cases learning with
  | false => rfl
  | true =>
    unfold callBatch learnBatch learns
    rw [if_pos rfl, WorkspaceM.runOn_bind, WorkspaceM.runOn_get]
    dsimp only
    by_cases hheld : (!w.chain.context.holdoutOff && batch.any (·.holdout)) = true
    · rw [if_pos hheld, hheld]
      rfl
    · rw [if_neg hheld, Bool.eq_false_iff.mpr hheld]
      rfl

/-- What a call with a batch leaves of a workspace on a tower: what the learner leaves of the nodes,
and what counting the batch makes of context and journal. -/
theorem runOn_callBatch (learning : Bool) (config : Config R) (t : Tower R) (state : t.State W)
    (context : Context R W) (hasher : FeatureHasher) (journal : Option (Journal R W))
    (batch : Batch R) :
    (callBatch learning).runOn ⟨config, ⟨.tower t, state, context, hasher⟩, journal⟩ batch =
      let run := (t.learner.call (learns context batch learning)).runOn ⟨state, context, batch⟩
      let c := counted batchTally run.1 run.2.context journal run.2.input
      (c.1, ⟨config, ⟨.tower t, run.2.node, c.2.1, hasher⟩, c.2.2⟩, run.2.input) := by
  have hchain : (onChain (Chain.runBatch fun l => l.call (learns context batch learning)) :
        WorkspaceM R W _ Unit).runOn ⟨config, ⟨.tower t, state, context, hasher⟩, journal⟩ batch =
      let run := (t.learner.call (learns context batch learning)).runOn ⟨state, context, batch⟩
      (run.1, ⟨config, ⟨.tower t, run.2.node, run.2.context, hasher⟩, journal⟩, run.2.input) :=
    rfl
  rw [callBatch_eq, WorkspaceM.runOn_bind, hchain]
  dsimp only
  generalize (t.learner.call (learns context batch learning)).runOn ⟨state, context, batch⟩ = run
  obtain ⟨outcome | outcome, node, left, input⟩ := run
  · rfl
  · dsimp only
    unfold accountBatch
    rw [WorkspaceM.runOn_bind, WorkspaceM.runOn_get]
    dsimp only
    rw [runOn_account]
    rfl

/-- A line takes no batches. -/
theorem runOn_callBatch_line (learning : Bool) (config : Config R) (l : Line) (o : Optimizer R W)
    (context : Context R W) (hasher : FeatureHasher) (journal : Option (Journal R W))
    (batch : Batch R) :
    (callBatch learning).runOn ⟨config, ⟨.line l, o, context, hasher⟩, journal⟩ batch =
      (.error (.wrongArity "single-line"), ⟨config, ⟨.line l, o, context, hasher⟩, journal⟩,
        batch) := by
  rw [callBatch_eq, WorkspaceM.runOn_bind]
  rfl

/-! ## Examples -/

/-- What counting an example makes of a context and a journal. -/
def exampleTally (context : Context R W) (journal : Option (Journal R W)) (ec : Example R) :
    Except LearnerError Unit × Context R W × Option (Journal R W) :=
  tally context journal ec.target? ec.scalar ec.numFeatures

/-- One of the two calls that take an example. -/
def callLine (learning : Bool) : WorkspaceM R W (Example R) Unit :=
  if learning then learn else predict

/-- What a line gets to see of an example: where holdout is off, its mark is taken away before it is
learned. -/
def released (context : Context R W) (learning : Bool) (ec : Example R) : Example R :=
  if learning && context.holdoutOff then { ec with holdout := false } else ec

omit [Scalar R] [Number W] [Widening R W] in
@[simp] theorem label_released (context : Context R W) (learning : Bool) (ec : Example R) :
    (released context learning ec).label = ec.label := by
  unfold released
  split <;> rfl

theorem callLine_eq (learning : Bool) (config : Config R) (l : Line) (o : Optimizer R W)
    (context : Context R W) (hasher : FeatureHasher) (journal : Option (Journal R W))
    (ec : Example R) :
    (callLine learning).runOn ⟨config, ⟨.line l, o, context, hasher⟩, journal⟩ ec =
      (onChain (Chain.runLine fun l => l.call learning) >>= fun _ => accountExample :
        WorkspaceM R W _ Unit).runOn ⟨config, ⟨.line l, o, context, hasher⟩, journal⟩
          (released context learning ec) := by
  cases learning with
  | false => rfl
  | true =>
    unfold callLine learn releaseHoldout released
    rw [if_pos rfl, WorkspaceM.runOn_bind, WorkspaceM.runOn_modify]
    dsimp only [Stack.isMultiline]
    cases context.holdoutOff <;> rfl

/-- What a call with an example leaves of a workspace on a line: what the learner leaves of the
optimizer, and what counting the example makes of context and journal. -/
theorem runOn_callLine (learning : Bool) (config : Config R) (l : Line) (o : Optimizer R W)
    (context : Context R W) (hasher : FeatureHasher) (journal : Option (Journal R W))
    (ec : Example R) :
    (callLine learning).runOn ⟨config, ⟨.line l, o, context, hasher⟩, journal⟩ ec =
      let run := (l.learner.call learning).runOn ⟨o, context, released context learning ec⟩
      let c := counted exampleTally run.1 run.2.context journal run.2.input
      (c.1, ⟨config, ⟨.line l, run.2.node, c.2.1, hasher⟩, c.2.2⟩, run.2.input) := by
  have hchain (input : Example R) : (onChain (Chain.runLine fun l => l.call learning) :
        WorkspaceM R W _ Unit).runOn ⟨config, ⟨.line l, o, context, hasher⟩, journal⟩ input =
      let run := (l.learner.call learning).runOn ⟨o, context, input⟩
      (run.1, ⟨config, ⟨.line l, run.2.node, run.2.context, hasher⟩, journal⟩, run.2.input) :=
    rfl
  rw [callLine_eq, WorkspaceM.runOn_bind, hchain]
  dsimp only
  generalize (l.learner.call learning).runOn ⟨o, context, released context learning ec⟩ = run
  obtain ⟨outcome | outcome, node, left, input⟩ := run
  · rfl
  · dsimp only
    unfold accountExample
    rw [WorkspaceM.runOn_bind, WorkspaceM.runOn_get]
    dsimp only
    rw [runOn_account]
    rfl

/-- A tower takes no examples. -/
theorem runOn_callLine_tower (learning : Bool) (config : Config R) (t : Tower R)
    (state : t.State W) (context : Context R W) (hasher : FeatureHasher)
    (journal : Option (Journal R W)) (ec : Example R) :
    (callLine learning).runOn ⟨config, ⟨.tower t, state, context, hasher⟩, journal⟩ ec =
      (.error (.wrongArity "multi-line"), ⟨config, ⟨.tower t, state, context, hasher⟩, journal⟩,
        ec) := by
  cases learning with
  | false => rfl
  | true =>
    unfold callLine learn releaseHoldout
    rw [if_pos rfl, WorkspaceM.runOn_bind, WorkspaceM.runOn_modify]
    dsimp only [Stack.isMultiline]
    cases context.holdoutOff <;> rfl

end Workspace

end OnlineLearning
