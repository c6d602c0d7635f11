import OnlineLearning.Reduction.Bandit
import OnlineLearning.Reduction.Grounded
import OnlineLearning.Reduction.Scorer

/-!
# Runs of calls

What `NodeM.runOn` makes of the ways in which calls are put together. A call is a run from a frame
to an outcome and a frame; the equations below take a call apart without looking into the monad.

* `NodeM.runOn_bind` and the equations after it are for the ways of putting calls together;
* `Scorer.runOn_run`, `Scorer.runOn_runBelow` and `Scorer.runOn_account` say what the calls of a
  scorer are made of; `Scorer.runOn_belowWith` leaves open how it judges a prediction;
* `Bandit.runOn_scoreLines_cons`, `Bandit.runOn_predict` and `Bandit.runOn_learn` say it of those of
  a bandit node, and the last section of those of a grounded node.
-/

namespace OnlineLearning

namespace NodeM

variable {R W σ τ ι κ α β : Type}

/-! ## The monad -/

@[simp] theorem runOn_pure (a : α) (frame : Frame R W σ ι) :
    (pure a : NodeM R W σ ι α).runOn frame = (.ok a, frame) := rfl

@[simp] theorem runOn_throw (e : LearnerError) (frame : Frame R W σ ι) :
    (throw e : NodeM R W σ ι α).runOn frame = (.error e, frame) := rfl

@[simp] theorem runOn_get (frame : Frame R W σ ι) :
    (get : NodeM R W σ ι (Frame R W σ ι)).runOn frame = (.ok frame, frame) := rfl

@[simp] theorem runOn_modify (f : Frame R W σ ι → Frame R W σ ι) (frame : Frame R W σ ι) :
    (modify f : NodeM R W σ ι PUnit).runOn frame = (.ok ⟨⟩, f frame) := rfl

/-- The second call starts from the frame that the first one leaves, unless that one fails. -/
theorem runOn_bind (call : NodeM R W σ ι α) (next : α → NodeM R W σ ι β)
    (frame : Frame R W σ ι) :
    (call >>= next).runOn frame =
      match call.runOn frame with
      | (.ok a, left) => (next a).runOn left
      | (.error e, left) => (.error e, left) := by
  simp only [runOn, ExceptT.run_bind, StateT.run_bind]
  rcases (ExceptT.run call).run frame with ⟨_ | _, _⟩ <;> rfl

/-! ## Calls on other inputs and on parts of the state -/

@[simp] theorem runOn_modifyContext (f : Context R W → Context R W) (frame : Frame R W σ ι) :
    (modifyContext f : NodeM R W σ ι Unit).runOn frame =
      (.ok (), { frame with context := f frame.context }) := rfl

@[simp] theorem runOn_modifyInput (f : ι → ι) (frame : Frame R W σ ι) :
    (modifyInput f : NodeM R W σ ι Unit).runOn frame =
      (.ok (), { frame with input := f frame.input }) := rfl

@[simp] theorem runOn_onScratch (fill : Example R → Example R)
    (call : NodeM R W σ (Example R) Unit) (frame : Frame R W (Example R × σ) ι) :
    (onScratch fill call).runOn frame =
      let run := call.runOn ⟨frame.node.2, frame.context, fill frame.node.1⟩
      (run.1.map fun _ => run.2.input,
        ⟨(run.2.input, run.2.node), run.2.context, frame.input⟩) := rfl

end NodeM

/-! ## Calls of a scorer -/

namespace Scorer

variable {R W σ : Type} [Scalar R] [Number W] [Widening R W]

theorem runOn_account (learning : Bool) (label : R) (f : Frame R W σ (Example R)) :
    (account learning label).runOn f =
      (.ok (),
        if 0 < f.input.weight then
          let loss := f.context.lossOf f.input.scalar label * f.input.weight
          let scored := { f.context with
            stats := f.context.stats.recordLoss f.input.holdout loss f.input.weight label }
          ⟨f.node, if learning then scored else f.context, { f.input with loss }⟩
        else f) := by
  unfold account
  rw [NodeM.runOn_bind, NodeM.runOn_get]
  dsimp only
  split
  · cases learning <;> rfl
  · rfl

omit [Number W] [Widening R W] in
/-- The calls of a scorer below its link, with any way to judge a labeled prediction. -/
def belowWith (judge : R → NodeM R W σ (Example R) Unit) (link : LinkFunction)
    (base : LineLearner R W σ) (learning : Bool) : NodeM R W σ (Example R) Unit := do
  let ec := (← get).input
  match ec.label with
  | .bandit _ => throw (.labelMismatch (name link) "simple")
  | .simple none => base.predict
  | .simple (some label) =>
    NodeM.modifyContext (·.coverLabel label)
    (if learning && 0 < ec.weight && !ec.holdout then base.learn else base.predict)
    judge label

omit [Number W] [Widening R W] in
/-- Labels of the wrong form are refused, and what is below predicts unlabeled examples. -/
theorem runOn_belowWith (judge : R → NodeM R W σ (Example R) Unit) (link : LinkFunction)
    (base : LineLearner R W σ) (learning : Bool) (f : Frame R W σ (Example R)) :
    (belowWith judge link base learning).runOn f =
      match f.input.label with
      | .bandit _ => (.error (.labelMismatch (name link) "simple"), f)
      | .simple none => base.predict.runOn f
      | .simple (some label) =>
        match (if learning && 0 < f.input.weight && !f.input.holdout then base.learn
          else base.predict).runOn { f with context := f.context.coverLabel label } with
        | (.error e, left) => (.error e, left)
        | (.ok (), left) => (judge label).runOn left := by
  unfold belowWith
  rw [NodeM.runOn_bind, NodeM.runOn_get]
  dsimp only
  cases f.input.label with
  | bandit costs => rfl
  | simple target =>
    cases target with
    | none => rfl
    | some label =>
      dsimp only
      rw [NodeM.runOn_bind, NodeM.runOn_modifyContext]
      dsimp only
      rw [NodeM.runOn_bind]
      generalize NodeM.runOn _ _ = run
      obtain ⟨outcome | outcome, left⟩ := run <;> rfl

theorem runOn_runBelow (link : LinkFunction) (base : LineLearner R W σ) (learning : Bool)
    (f : Frame R W σ (Example R)) :
    (runBelow link base learning).runOn f =
      match f.input.label with
      | .bandit _ => (.error (.labelMismatch (name link) "simple"), f)
      | .simple none => base.predict.runOn f
      | .simple (some label) =>
        match (if learning && 0 < f.input.weight && !f.input.holdout then base.learn
          else base.predict).runOn { f with context := f.context.coverLabel label } with
        | (.error e, left) => (.error e, left)
        | (.ok (), left) => (account learning label).runOn left :=
  runOn_belowWith (account learning) link base learning f

theorem runOn_run (link : LinkFunction) (base : LineLearner R W σ) (learning : Bool)
    (f : Frame R W σ (Example R)) :
    (run link base learning).runOn f =
      match (runBelow link base learning).runOn f with
      | (.error e, left) => (.error e, left)
      | (.ok (), left) => (.ok (), { left with
          input := { left.input with prediction := .scalar (link.apply left.input.scalar) } }) := by
  unfold run
  rw [NodeM.runOn_bind]
  generalize (runBelow link base learning).runOn f = below
  obtain ⟨outcome | outcome, left⟩ := below <;> rfl

end Scorer

/-! ## Calls of a bandit node -/

namespace Bandit

variable {R W σ : Type} [Scalar R] (base : LineLearner R W σ)

/-- An action is scored, and its score is written into its line; other lines are passed over. -/
theorem runOn_scoreLines_cons (shared : Option (Example R)) (action position : Nat)
    (ec : Example R) (rest : Batch R) (f : Frame R W (Example R × σ) (Batch R)) :
    (scoreLines base shared action position (ec :: rest)).runOn f =
      if isAction ec then
        match base.predict.runOn ⟨f.node.2, f.context, merged shared ec⟩ with
        | (.error e, left) => (.error e, ⟨(left.input, left.node), left.context, f.input⟩)
        | (.ok (), left) =>
          let score := left.input.scalar
          let later := (scoreLines base shared (action + 1) (position + 1) rest).runOn
            ⟨(left.input, left.node), left.context,
              f.input.modify position ({ · with partialPrediction := score })⟩
          (later.1.map (⟨UInt32.ofNat action, score⟩ :: ·), later.2)
      else (scoreLines base shared action (position + 1) rest).runOn f := by
  have hnext (call : NodeM R W (Example R × σ) (Batch R) (List (ActionScore R)))
      (f : Frame R W (Example R × σ) (Batch R)) (score : ActionScore R) :
      (call >>= fun scores => pure (score :: scores)).runOn f =
        ((call.runOn f).1.map (score :: ·), (call.runOn f).2) := by
    rw [NodeM.runOn_bind]
    generalize call.runOn f = run
    obtain ⟨outcome | outcome, left⟩ := run <;> rfl
  rw [scoreLines]
  split
  · rw [NodeM.runOn_bind, NodeM.runOn_onScratch, fill_eq_merged]
    generalize base.predict.runOn _ = run
    obtain ⟨outcome | outcome, left⟩ := run
    · rfl
    · dsimp only [Except.map]
      rw [NodeM.runOn_bind, NodeM.runOn_modifyInput]
      exact hnext _ _ _
  · rfl

/-- The lines are scored, and the ranking is written into the first one. -/
theorem runOn_predict (f : Frame R W (Example R × σ) (Batch R)) :
    (predict base).runOn f =
      if f.input.isEmpty then (.error (.emptyBatch name), f)
      else
        match (scoreLines base (shared? f.input) 0 0 f.input).runOn f with
        | (.error e, left) => (.error e, left)
        | (.ok scores, left) =>
          (.ok (), { left with input := publish (rank scores) left.input }) := by
  unfold predict
  rw [NodeM.runOn_bind, NodeM.runOn_get]
  dsimp only
  split
  · rfl
  · rw [NodeM.runOn_bind]
    generalize (scoreLines base (shared? f.input) 0 0 f.input).runOn f = run
    obtain ⟨outcome | outcome, left⟩ := run <;> rfl

/-- After a prediction the regression example of the chosen line is learned, if there is one. -/
theorem runOn_learn (f : Frame R W (Example R × σ) (Batch R)) :
    (learn base).runOn f =
      match (predict base).runOn f with
      | (.error e, left) => (.error e, left)
      | (.ok (), left) =>
        match chosen? left.input with
        | none => (.ok (), left)
        | some (i, action, observed) =>
          match base.learn.runOn ⟨left.node.2, left.context,
            regression (shared? left.input) action observed⟩ with
          | (.error e, last) => (.error e, ⟨(last.input, last.node), last.context, left.input⟩)
          | (.ok (), last) => (.ok (), ⟨(last.input, last.node), last.context,
              left.input.modify i ({ · with loss := last.input.loss })⟩) := by
  unfold learn
  rw [NodeM.runOn_bind]
  generalize (predict base).runOn f = run
  obtain ⟨outcome | outcome, left⟩ := run
  · rfl
  · dsimp only
    rw [NodeM.runOn_bind, NodeM.runOn_get]
    dsimp only
    cases chosen? left.input with
    | none => rfl
    | some chosen =>
      obtain ⟨i, action, observed⟩ := chosen
      dsimp only
      rw [NodeM.runOn_bind, NodeM.runOn_onScratch, fillRegression_eq_regression]
      dsimp only
      generalize base.learn.runOn _ = run
      obtain ⟨outcome | outcome, last⟩ := run <;> rfl

theorem runOn_predict_nil (node : Example R × σ) (context : Context R W) :
    (predict base).runOn ⟨node, context, []⟩ =
      (.error (.emptyBatch name), ⟨node, context, []⟩) := by
  rw [runOn_predict]
  rfl

theorem runOn_learn_nil (node : Example R × σ) (context : Context R W) :
    (learn base).runOn ⟨node, context, []⟩ = (.error (.emptyBatch name), ⟨node, context, []⟩) := by
  rw [runOn_learn, runOn_predict_nil]

end Bandit

/-! ## Calls of a grounded node -/

namespace Grounded

variable {R W σ : Type}

@[simp] theorem runOn_onDecoder (fill : Example R → Example R)
    (call : NodeM R W σ (Example R) Unit) (frame : Frame R W (GroundedState R W × σ) (Batch R)) :
    (onDecoder fill call).runOn frame =
      let run := call.runOn ⟨frame.node.2, frame.node.1.decoderContext, fill frame.node.1.scratch⟩
      (run.1.map fun _ => run.2.input,
        ⟨({ frame.node.1 with decoderContext := run.2.context, scratch := run.2.input },
            run.2.node), frame.context, frame.input⟩) := rfl

@[simp] theorem runOn_modifyState (f : GroundedState R W → GroundedState R W)
    (frame : Frame R W (GroundedState R W × σ) (Batch R)) :
    (modifyState f).runOn frame =
      (.ok (), { frame with node := (f frame.node.1, frame.node.2) }) := rfl

@[simp] theorem runOn_modifyCounters (f : GroundedCounters → GroundedCounters)
    (frame : Frame R W (GroundedState R W × σ) (Batch R)) :
    (modifyCounters f).runOn frame =
      (.ok (), { frame with
        node := ({ frame.node.1 with counters := f frame.node.1.counters }, frame.node.2) }) := rfl

@[simp] theorem runOn_onPrimary (call : NodeM R W σ (Batch R) Unit)
    (frame : Frame R W (GroundedState R W × σ) (Batch R)) :
    (onPrimary call).runOn frame =
      let run := call.runOn ⟨frame.node.2, frame.context, frame.input⟩
      (run.1, ⟨(frame.node.1, run.2.node), run.2.context, run.2.input⟩) := rfl

end Grounded

end OnlineLearning
