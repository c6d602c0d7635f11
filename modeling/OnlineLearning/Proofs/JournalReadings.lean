import OnlineLearning.Proofs.HeldOut
import OnlineLearning.Proofs.Histories

/-!
# Readings of a journal

Of the statistics of a chain a journal reads the counter, the sums over learned examples and the
loss since the entry before. Calls of the nodes do one thing to these: a scorer records the loss of
an example of positive weight, in all sums at once. The counter and the journal are for the
workspace, after the call.

* `Readings` are what a journal reads; `Readings.Lasts` are their properties that outlive records;
* `NodeM.Keeps`: a call keeps a property of the readings. Scorers, bandit nodes and grounded nodes
  do so on learners that do; `Line.keeps_learner` and `Tower.keeps_learner`;
* `Workspace.Enters` is what a step makes of context and journal, and whether it is counted;
  `Workspace.step_enters`: every step does so;
* `Workspace.step_records`: what a step adds to the sums.
-/

namespace OnlineLearning

variable {R W σ τ ι κ α β : Type}

/-! ## Readings -/

/-- What of the statistics of a chain a journal reads. -/
structure Readings (W : Type) where
  exampleNumber : UInt64
  /-- The sums over learned examples. -/
  learned : LossSums W
  /-- The loss since the last entry of the journal. -/
  sinceEntry : W

def Stats.readings (s : Stats R W) : Readings W :=
  ⟨s.exampleNumber, s.learned, s.sumLossSinceLastDump⟩

/-- The readings after a loss was recorded. -/
def Readings.record [Add W] (x : Readings W) (loss weight : W) : Readings W :=
  { x with learned := x.learned.add loss weight, sinceEntry := x.sinceEntry + loss }

variable [Scalar R] [Number W] [Widening R W]

/-- A property of readings that outlives all records of examples of positive weight. -/
def Readings.Lasts (R : Type) [Scalar R] [Widening R W] (P : Readings W → Prop) : Prop :=
  ∀ x (loss weight : R), 0 < weight → P x →
    P (x.record (Widening.widen loss) (Widening.widen weight))

omit [Scalar R] in
/-- The loss of what is held out goes to other sums. -/
theorem Stats.readings_recordLoss (s : Stats R W) (holdout : Bool) (loss weight label : R) :
    (s.recordLoss holdout loss weight label).readings =
      if holdout then s.readings
      else s.readings.record (Widening.widen loss) (Widening.widen weight) := by
  cases holdout <;> rfl

omit [Number W] [Widening R W] in
@[simp] theorem Context.readings_coverLabel (c : Context R W) (label : R) :
    (c.coverLabel label).stats.readings = c.stats.readings := by
  rw [c.coverLabel_eq label]
  rfl

/-- The end of a pass resets the sums of the holdout window only. -/
theorem Chain.readings_endPass (c : Chain R W) :
    c.endPass.context.stats.readings = c.context.stats.readings := by
  rw [c.endPass_eq.2]
  unfold Optimizer.endPass
  split
  · rfl
  · dsimp only
    rw [Stats.closed_closeHoldoutWindow]
    rfl

/-! ## Calls -/

omit [Scalar R] [Number W] [Widening R W] in
/-- Whatever the outcome of the call is, `P` is true of the readings that it leaves if it was
so before. -/
def NodeM.Keeps (P : Readings W → Prop) (call : NodeM R W σ ι α) : Prop :=
  ∀ frame, P frame.context.stats.readings → P (call.runOn frame).2.context.stats.readings

namespace NodeM.Keeps

variable {P : Readings W → Prop} {call : NodeM R W σ ι α}

omit [Scalar R] [Number W] [Widening R W]

/-- A call that leaves the context as it was. -/
theorem of_context (h : ∀ frame, (call.runOn frame).2.context = frame.context) : Keeps P call :=
  fun frame hframe => by rwa [h frame]

theorem of_pure (a : α) : Keeps P (pure a : NodeM R W σ ι α) := of_context fun _ => rfl

theorem of_throw (e : LearnerError) : Keeps P (throw e : NodeM R W σ ι α) := of_context fun _ => rfl

theorem of_modifyInput (f : ι → ι) : Keeps P (modifyInput f : NodeM R W σ ι Unit) :=
  of_context fun _ => rfl

theorem bind {next : α → NodeM R W σ ι β} (h : Keeps P call) (hnext : ∀ a, Keeps P (next a)) :
    Keeps P (call >>= next) := by
  intro frame hframe
  have hleft := h frame hframe
  rw [runOn_bind]
  generalize call.runOn frame = run at hleft ⊢
  obtain ⟨outcome | a, left⟩ := run
  · exact hleft
  · exact hnext a left hleft

theorem read_bind {next : Frame R W σ ι → NodeM R W σ ι β} (hnext : ∀ frame, Keeps P (next frame)) :
    Keeps P (get >>= next) := by
  have hread : Keeps P (get : NodeM R W σ ι (Frame R W σ ι)) := of_context fun _ => rfl
  exact hread.bind hnext

theorem onScratch {call : NodeM R W σ (Example R) Unit} (h : Keeps P call)
    (fill : Example R → Example R) : Keeps P (onScratch fill call : NodeM R W _ ι _) :=
  fun frame => h ⟨frame.node.2, frame.context, fill frame.node.1⟩

theorem onNode {call : NodeM R W τ ι α} (h : Keeps P call) (get : σ → τ) (set : τ → σ → σ) :
    Keeps P (onNode get set call) :=
  fun frame => h ⟨get frame.node, frame.context, frame.input⟩

end NodeM.Keeps

omit [Scalar R] [Number W] [Widening R W] in
/-- A learner that keeps a property of the readings when it predicts and when it learns. -/
structure Learner.Keeps (P : Readings W → Prop) (l : Learner R W σ ι) : Prop where
  predict : NodeM.Keeps P l.predict
  learn : NodeM.Keeps P l.learn

omit [Scalar R] [Number W] [Widening R W] in
theorem Learner.Keeps.call {P : Readings W → Prop} {l : Learner R W σ ι} (h : l.Keeps P)
    (learning : Bool) : NodeM.Keeps P (l.call learning) := by
  cases learning with
  | false => exact h.predict
  | true => exact h.learn

open NodeM (Keeps)

variable {P : Readings W → Prop}

/-! ## Nodes -/

/-- The optimizer changes nothing of the context. -/
theorem Optimizer.keeps_learner : (learner : LineLearner R W _).toLearner.Keeps P := by
  refine ⟨.of_context fun _ => rfl, .of_context fun frame => ?_⟩
  change ((Optimizer.learn : NodeM R W _ _ Unit).runOn frame).2.context = _
  rw [runOn_learn]
  dsimp only
  split <;> rfl

namespace Scorer

variable {base : LineLearner R W σ}

/-- What a scorer records is of positive weight. -/
theorem keeps_account (hP : Readings.Lasts R P) (learning : Bool) (label : R) :
    Keeps P (account learning label : NodeM R W σ _ Unit) := by
  refine .read_bind fun read => ?_
  dsimp only
  split
  · rename_i hweight
    refine .bind (.of_modifyInput _) fun _ => ?_
    split
    · intro frame hframe
      rw [NodeM.runOn_modifyContext]
      dsimp only
      rw [Stats.readings_recordLoss]
      split
      · exact hframe
      · exact hP _ _ _ hweight hframe
    · exact .of_pure _
  · exact .of_pure _

theorem keeps_run (hP : Readings.Lasts R P) (h : base.Keeps P) (link : LinkFunction)
    (learning : Bool) : Keeps P (run link base learning) := by
  refine .bind (.read_bind fun read => ?_) fun _ => .of_modifyInput _
  dsimp only
  split
  · exact .of_throw _
  · exact h.predict
  · rename_i label _
    refine .bind (fun frame hframe => ?_) fun _ => .bind ?_ fun _ => keeps_account hP _ _
    · rw [NodeM.runOn_modifyContext]
      dsimp only
      rwa [Context.readings_coverLabel]
    · split
      · exact h.learn
      · exact h.predict

theorem keeps_learner (hP : Readings.Lasts R P) (h : base.Keeps P) (link : LinkFunction) :
    (learner link base).Keeps P :=
  ⟨keeps_run hP h link false, keeps_run hP h link true⟩

end Scorer

theorem Line.keeps_learner (hP : Readings.Lasts R P) (l : Line) :
    (l.learner : LineLearner R W _).Keeps P := by
  unfold Line.learner
  induction l.links with
  | nil => exact Optimizer.keeps_learner
  | cons link rest ih => exact Scorer.keeps_learner hP ih link

namespace Bandit

variable {base : LineLearner R W σ}

omit [Number W] [Widening R W] in
theorem keeps_scoreLines (h : base.Keeps P) (shared : Option (Example R)) (action position : Nat)
    (lines : Batch R) : Keeps P (scoreLines base shared action position lines) := by
  induction lines generalizing action position with
  | nil => exact .of_pure _
  | cons ec rest ih =>
    unfold scoreLines
    split
    · refine .bind (h.predict.onScratch _) fun _ => .bind (.of_modifyInput _) fun _ => ?_
      exact .bind (ih _ _) fun _ => .of_pure _
    · exact ih _ _

omit [Number W] [Widening R W] in
theorem keeps_predict (h : base.Keeps P) : Keeps P (predict base) := by
  refine .read_bind fun read => ?_
  have hscored : Keeps P (do
      let scores ← scoreLines base (shared? read.input) 0 0 read.input
      NodeM.modifyInput (publish (rank scores))) :=
    (keeps_scoreLines h _ 0 0 _).bind fun _ => .of_modifyInput _
  dsimp only
  split
  · exact .bind (.of_throw _) fun _ => hscored
  · exact hscored

omit [Number W] [Widening R W] in
theorem keeps_learner (h : base.Keeps P) : (learner base).Keeps P := by
  refine ⟨keeps_predict h, .bind (keeps_predict h) fun _ => .read_bind fun read => ?_⟩
  dsimp only
  split
  · exact .of_pure _
  · exact .bind (h.learn.onScratch _) fun _ => .of_modifyInput _

end Bandit

namespace Grounded

omit [Scalar R] [Number W] [Widening R W] in
/-- The decoder has a context of its own. -/
theorem keeps_onDecoder (fill : Example R → Example R) (call : NodeM R W σ (Example R) Unit) :
    Keeps P (onDecoder fill call) :=
  .of_context fun _ => rfl

omit [Scalar R] [Number W] [Widening R W] in
theorem keeps_modifyState (f : GroundedState R W → GroundedState R W) :
    Keeps P (modifyState f : NodeM R W (GroundedState R W × σ) _ Unit) :=
  .of_context fun _ => rfl

variable {primary : Learner R W σ (Batch R)}

omit [Number W] [Widening R W] in
theorem keeps_teach (s : GroundedSettings R) (offset : UInt64) (decoder : LineLearner R W σ)
    (feedback : Option (Feature R)) (chosen position : Nat) (lines : Batch R) :
    Keeps P (teach s offset decoder feedback chosen position lines) := by
  induction lines generalizing position with
  | nil => exact .of_pure _
  | cons line rest ih =>
    unfold teach
    split
    · exact .bind (keeps_onDecoder _ _) fun _ => .bind (keeps_modifyState _) fun _ => ih _
    · exact ih _

omit [Number W] [Widening R W] in
theorem keeps_settle (h : primary.Keeps P) (s : GroundedSettings R)
    (feedback : Option (Feature R)) (chosen : Nat) (psi : R) :
    Keeps P (settle s primary feedback chosen psi) := by
  have hrest : Keeps P (do
      NodeM.modifyInput
        (·.modify chosen (·.setObservedCost (groundedCost s psi (isNegative s feedback))))
      onPrimary primary.learn
      modifyCounters fun c => { c with batchesLearned := c.batchesLearned + 1 }) :=
    .bind (.of_modifyInput _) fun _ => .bind (h.learn.onNode _ _) fun _ => keeps_modifyState _
  refine .bind (keeps_modifyState _) fun _ => ?_
  dsimp only
  split
  · exact .bind (keeps_modifyState _) fun _ => hrest
  · exact hrest

omit [Number W] [Widening R W] in
theorem keeps_learner (h : primary.Keeps P) (s : GroundedSettings R) (offset : UInt64)
    (decoder : LineLearner R W σ) : (learner s offset primary decoder).Keeps P := by
  have hfrom (batch : Batch R) : Keeps P (learnFrom s offset primary decoder batch) := by
    unfold learnFrom
    split
    · exact h.predict.onNode _ _
    · exact .bind (keeps_onDecoder _ _) fun _ => .bind (keeps_teach _ _ _ _ _ _ _) fun _ =>
        keeps_settle h _ _ _ _
  refine ⟨h.predict.onNode _ _, .read_bind fun read => ?_⟩
  dsimp only
  split
  · exact .bind (.of_throw _) fun _ => hfrom _
  · exact hfrom _

end Grounded

theorem Tower.keeps_learner (hP : Readings.Lasts R P) (t : Tower R) :
    (t.learner : Learner R W _ _).Keeps P := by
  induction t with
  | bandit l => exact Bandit.keeps_learner (l.keeps_learner hP)
  | grounded settings offset decoder primary ih => exact Grounded.keeps_learner ih _ _ _

/-! ## Steps of a workspace -/

/-- Whether a call that was answered so is counted. -/
def Answer.isCounted : Answer R → Bool
  | .line (.ok _) _ | .batch (.ok _) _ => true
  | _ => false

namespace Workspace

/-- Whether a step is a call that is counted: one that predicts or learns, and succeeds. -/
def counts (w : Workspace R W) : Step R → Bool
  | .call request => (w.answer request).1.isCounted
  | .endPass => false

/-- What a step makes of context and journal: it keeps `P`, and afterwards the example is counted if
the step counts. -/
inductive Enters (P : Readings W → Prop) (w w' : Workspace R W) : Bool → Prop
  | passed (hreadings : P w'.chain.context.stats.readings) (hjournal : w'.journal = w.journal) :
    Enters P w w' false
  | counted (context : Context R W) (label : Option R) (prediction : R) (features : Nat)
    (hreadings : P context.stats.readings)
    (htally : tally context w.journal label prediction features =
      (.ok (), w'.chain.context, w'.journal)) :
    Enters P w w' true

variable {journal : Option (Journal R W)}

omit [Scalar R] [Number W] [Widening R W] in
theorem reachable_of_journal {j : Journal R W} (hj : journal = some j)
    (hfile : j.file = .reachable) : ∀ j, journal = some j → j.file = .reachable := by
  intro _ hsome
  cases hj.symm.trans hsome
  exact hfile

omit [Scalar R] [Widening R W] in
/-- Where the file can be reached, counting succeeds. -/
theorem tally_ok (hreachable : ∀ j, journal = some j → j.file = .reachable)
    (context : Context R W) (label : Option R) (prediction : R) (features : Nat) :
    (tally context journal label prediction features).1 = .ok () := by
  cases journal with
  | none => rfl
  | some journal => exact (Journal.observe_reachable (hreachable journal rfl) _ _ _ _).1

omit [Scalar R] [Widening R W] in
/-- A journal sees the statistics of the counted example. -/
theorem seen_of_tally {context left : Context R W} {j : Journal R W} {label : Option R}
    {prediction : R} {features : Nat}
    (h : tally context (some j) label prediction features = (.ok (), left, journal)) :
    let seen := j.observe (context.stats.recordExample features) label prediction features
    left.stats = seen.2.2 ∧ journal = some seen.2.1 := by
  obtain ⟨-, hleft⟩ := Prod.ext_iff.mp h
  obtain ⟨hcontext, hjournal⟩ := Prod.ext_iff.mp hleft
  exact ⟨congrArg Context.stats hcontext.symm, hjournal.symm⟩

section

variable (hP : Readings.Lasts R P) {w : Workspace R W}
  (hreachable : ∀ j, w.journal = some j → j.file = .reachable)
  (hreadings : P w.chain.context.stats.readings)
include hP hreachable hreadings

theorem callLine_enters (learning : Bool) (ec : Example R) :
    let run := (callLine learning).runOn w ec
    w.Enters P run.2.1 (Answer.line run.1 run.2.2).isCounted := by
  intro run
  obtain ⟨config, ⟨l | t, state, context, hasher⟩, journal⟩ := w
  · have hkept := (l.keeps_learner hP).call learning
      ⟨state, context, released context learning ec⟩ hreadings
    have hrun : run = _ := runOn_callLine learning config l state context hasher journal ec
    generalize (l.learner.call learning).runOn ⟨state, context, released context learning ec⟩ =
      called at hkept hrun
    obtain ⟨outcome | ⟨⟨⟩⟩, node, left, input⟩ := called
    · rw [hrun]
      exact .passed hkept rfl
    · have hok := tally_ok hreachable left input.target? input.scalar input.numFeatures
      have htally : run.1 = _ := congrArg Prod.fst hrun
      rw [htally.trans hok, hrun]
      exact .counted left _ _ _ hkept (Prod.ext hok rfl)
  · have hrun : run = _ :=
      runOn_callLine_tower learning config t state context hasher journal ec
    rw [hrun]
    exact .passed hreadings rfl

theorem callBatch_enters (learning : Bool) (batch : Batch R) :
    let run := (callBatch learning).runOn w batch
    w.Enters P run.2.1 (Answer.batch run.1 run.2.2).isCounted := by
  intro run
  obtain ⟨config, ⟨l | t, state, context, hasher⟩, journal⟩ := w
  · have hrun : run = _ :=
      runOn_callBatch_line learning config l state context hasher journal batch
    rw [hrun]
    exact .passed hreadings rfl
  · have hkept := (t.keeps_learner hP).call (learns context batch learning)
      ⟨state, context, batch⟩ hreadings
    have hrun : run = _ := runOn_callBatch learning config t state context hasher journal batch
    generalize (t.learner.call (learns context batch learning)).runOn ⟨state, context, batch⟩ =
      called at hkept hrun
    obtain ⟨outcome | ⟨⟨⟩⟩, node, left, input⟩ := called
    · rw [hrun]
      exact .passed hkept rfl
    · have hok : (batchTally left journal input).1 = .ok () := tally_ok hreachable left _ _ _
      have htally : run.1 = _ := congrArg Prod.fst hrun
      rw [htally.trans hok, hrun]
      exact .counted left _ _ _ hkept (Prod.ext hok rfl)

/-- Every step keeps what outlives records, and counts at most one example. -/
theorem step_enters (step : Step R) : w.Enters P (w.step step) (w.counts step) := by
  cases step with
  | endPass =>
    refine .passed ?_ rfl
    change P w.chain.endPass.context.stats.readings
    rwa [w.chain.readings_endPass]
  | call request =>
    cases request with
    | predict ec => exact callLine_enters hP hreachable hreadings false ec
    | learn ec => exact callLine_enters hP hreachable hreadings true ec
    | sensitivity ec =>
      obtain ⟨config, ⟨_ | _, state, context, hasher⟩, journal⟩ := w
      · exact .passed hreadings rfl
      · exact .passed hreadings rfl
    | predictBatch batch => exact callBatch_enters hP hreachable hreadings false batch
    | learnBatch batch => exact callBatch_enters hP hreachable hreadings true batch

end

/-- What a step adds to the sums over learned examples are losses with positive weights, one after
another. -/
theorem step_records {w : Workspace R W}
    (hreachable : ∀ j, w.journal = some j → j.file = .reachable) (step : Step R) :
    ∃ records : List (R × R), (∀ r ∈ records, 0 < r.2) ∧
      (w.step step).chain.context.stats.learned =
        records.foldl (fun sums r => sums.add (Widening.widen r.1) (Widening.widen r.2))
          w.chain.context.stats.learned := by
  let recorded (x : Readings W) : Prop := ∃ records : List (R × R), (∀ r ∈ records, 0 < r.2) ∧
    x.learned = records.foldl (fun sums r => sums.add (Widening.widen r.1) (Widening.widen r.2))
      w.chain.context.stats.learned
  have hlasts : Readings.Lasts R recorded := by
    rintro x loss weight hweight ⟨records, hpositive, hx⟩
    refine ⟨records ++ [(loss, weight)], fun r hr => ?_, ?_⟩
    · rcases List.mem_append.mp hr with hr | hr
      · exact hpositive r hr
      · exact List.mem_singleton.mp hr ▸ hweight
    · rw [List.foldl_concat, ← hx]
      rfl
  have hstep := step_enters hlasts hreachable ⟨[], nofun, rfl⟩ step
  generalize w.step step = left at hstep ⊢
  generalize w.counts step = counted at hstep
  cases hstep with
  | passed hreadings _ => exact hreadings
  | counted context label prediction features hreadings htally =>
    obtain ⟨-, hcounted, -⟩ := tally_counted hreachable label prediction features
    rw [htally] at hcounted
    obtain ⟨records, hpositive, hx⟩ := hreadings
    exact ⟨records, hpositive, hcounted.sums.1.trans hx⟩

end Workspace

end OnlineLearning
