import OnlineLearning.Proofs.Predictions
import OnlineLearning.Proofs.Reached

/-!
# Held out examples

Where holdout is on, an example that is held out is predicted and scored and never learned: its loss
goes to the holdout sums, by which the end of a pass judges. A batch with a held out line is
predicted only; since bandit nodes predict unlabeled examples, nothing of it is scored.

* `LossSums` are the sums that losses go to; `Stats.learned`, `Stats.held` and `Stats.window` name
  those of learned examples, of held out ones, and of held out ones since the end of the last pass;
* `Context.scored` is what a held out example makes of a context;
* `Workspace.Unlearned`: what was learned, and the sums over it, are the same;
* `Workspace.holdout_not_learned`: what `learn` and `learnBatch` make of held out examples;
* `Workspace.not_holdout_scored`: a held out line with an observed cost is not scored.
-/

namespace OnlineLearning

variable {R W : Type}

/-! ## Sums of losses -/

/-- A sum of weighted losses and the sum of the weights. -/
structure LossSums (W : Type) where
  loss : W
  weight : W

def LossSums.add [Add W] (s : LossSums W) (loss weight : W) : LossSums W :=
  ⟨s.loss + loss, s.weight + weight⟩

namespace Stats

/-- The sums over learned examples. -/
def learned (s : Stats R W) : LossSums W := ⟨s.sumLoss, s.weightedLabeledExamples⟩

/-- The sums over held out examples. -/
def held (s : Stats R W) : LossSums W := ⟨s.holdoutSumLoss, s.weightedHoldoutExamples⟩

/-- The sums over the examples that were held out since the end of the last pass. -/
def window (s : Stats R W) : LossSums W :=
  ⟨s.holdoutSumLossSinceLastPass, s.weightedHoldoutExamplesSinceLastPass⟩

end Stats

variable [Scalar R] [Number W] [Widening R W]

/-- The average loss of a window of positive weight, half the largest number otherwise. -/
def LossSums.average (s : LossSums W) : R :=
  if 0 < s.weight then Widening.narrow (s.loss / s.weight) else Scalar.largest * (1 / 2)

/-! ## Lines -/

/-- What an example that is held out makes of a context, given its raw prediction: its label widens
the bounds, and its loss is recorded if it has weight. -/
def Context.scored (context : Context R W) (raw : R) (ec : Example R) : Context R W :=
  match ec.target? with
  | none => context
  | some label =>
    let covered := context.coverLabel label
    if 0 < ec.weight then
      let loss := covered.lossOf (covered.bound raw) label * ec.weight
      { covered with stats := covered.stats.recordLoss true loss ec.weight label }
    else covered

omit [Number W] [Widening R W] in
theorem Context.coverLabel_eq (context : Context R W) (label : R) :
    context.coverLabel label = { context with
      stats := { context.stats with
        minLabel := (context.coverLabel label).stats.minLabel
        maxLabel := (context.coverLabel label).stats.maxLabel } } := by
  unfold coverLabel
  split <;> rfl

namespace Context

/-- Nothing of what is held out is counted among what was learned. -/
theorem scored_learned (context : Context R W) (raw : R) (ec : Example R) :
    let stats := (context.scored raw ec).stats
    stats.learned = context.stats.learned ∧ stats.weightedLabels = context.stats.weightedLabels ∧
      stats.sumLossSinceLastDump = context.stats.sumLossSinceLastDump := by
  unfold scored
  split
  · exact ⟨rfl, rfl, rfl⟩
  · rename_i label _
    rw [context.coverLabel_eq label]
    dsimp only
    split
    · exact ⟨rfl, rfl, rfl⟩
    · exact ⟨rfl, rfl, rfl⟩

/-- A labeled example of positive weight adds its loss to the holdout sums. -/
theorem scored_held (context : Context R W) (raw : R) {ec : Example R} {label : R}
    (hlabel : ec.label = .simple (some label)) (hweight : 0 < ec.weight) :
    let covered := context.coverLabel label
    let loss : W := Widening.widen (covered.lossOf (covered.bound raw) label * ec.weight)
    let scored := context.scored raw ec
    scored.stats.held = context.stats.held.add loss (Widening.widen ec.weight) ∧
      scored.stats.window = context.stats.window.add loss (Widening.widen ec.weight) ∧
      scored.holdoutOff = context.holdoutOff := by
  intro covered loss scored
  have hscored : scored = { covered with
      stats := covered.stats.recordLoss true (covered.lossOf (covered.bound raw) label * ec.weight)
        ec.weight label } := by
    change Context.scored _ _ _ = _
    unfold Context.scored Example.target?
    rw [hlabel]
    exact if_pos hweight
  have hcovered : covered = _ := context.coverLabel_eq label
  have hheld : covered.stats.held = context.stats.held :=
    (congrArg (fun c : Context R W => c.stats.held) hcovered).trans rfl
  have hwindow : covered.stats.window = context.stats.window :=
    (congrArg (fun c : Context R W => c.stats.window) hcovered).trans rfl
  have hoff : covered.holdoutOff = context.holdoutOff :=
    (congrArg Context.holdoutOff hcovered).trans rfl
  rw [hscored]
  exact ⟨congrArg (·.add loss (Widening.widen ec.weight)) hheld,
    congrArg (·.add loss (Widening.widen ec.weight)) hwindow, hoff⟩

end Context

namespace Scorer

/-- What is held out is predicted under the bounds that its label has widened. -/
theorem runOn_runBelow_holdout (link : LinkFunction) (o : Optimizer R W) (context : Context R W)
    {ec : Example R} {label : R} (hheld : ec.holdout = true)
    (hlabel : ec.label = .simple (some label)) :
    (runBelow link Optimizer.learner true).runOn ⟨o, context, ec⟩ =
      let covered := context.coverLabel label
      (account true label).runOn ⟨o, covered,
        Optimizer.publish covered (o.weights.dot (ec.visits context.interactions)) ec⟩ := by
  have hinteractions : (context.coverLabel label).interactions = context.interactions := by
    unfold Context.coverLabel
    split <;> rfl
  rw [runOn_runBelow, hlabel]
  dsimp only
  rw [hheld, Bool.not_true, Bool.and_false, if_neg Bool.false_ne_true, ← hinteractions]
  rfl

/-- One scorer on an optimizer predicts and scores what is held out. -/
theorem runOn_learn_holdout (link : LinkFunction) (o : Optimizer R W) (context : Context R W)
    {ec : Example R} (hheld : ec.holdout = true) :
    let left := ((run link Optimizer.learner true).runOn ⟨o, context, ec⟩).2
    left.node = o ∧
      left.context = context.scored (o.weights.dot (ec.visits context.interactions)) ec := by
  unfold Context.scored Example.target?
  rw [runOn_run]
  cases hlabel : ec.label with
  | bandit costs =>
    rw [runOn_runBelow, hlabel]
    exact ⟨rfl, rfl⟩
  | simple target =>
    cases target with
    | none =>
      rw [runOn_runBelow, hlabel]
      exact ⟨rfl, rfl⟩
    | some label =>
      rw [runOn_runBelow_holdout link o context hheld hlabel]
      dsimp only
      let published := Optimizer.publish (context.coverLabel label)
        (o.weights.dot (ec.visits context.interactions)) ec
      have hholdout : published.holdout = true := hheld
      have hpositive : published.weight = ec.weight := rfl
      rw [runOn_account]
      by_cases hweight : 0 < ec.weight
      · rw [if_pos hweight, if_pos (hpositive ▸ hweight)]
        dsimp only
        rw [hholdout]
        exact ⟨rfl, rfl⟩
      · rw [if_neg hweight, if_neg (hpositive ▸ hweight)]
        exact ⟨rfl, rfl⟩

end Scorer

/-! ## The end of a pass -/

theorem Stats.closeHoldoutWindow_eq (s : Stats R W) (pass : UInt64) (stalls : UInt32) :
    (s.closeHoldoutWindow pass stalls).2.2.holdoutBestLoss =
        (if s.passLoss < s.holdoutBestLoss then s.passLoss else s.holdoutBestLoss) ∧
      (s.closeHoldoutWindow pass stalls).2.1 =
        (if s.passLoss < s.holdoutBestLoss then 0
        else if s.passLoss != Scalar.largest || Scalar.isFinite s.holdoutBestLoss then stalls + 1
        else stalls) := by
  unfold closeHoldoutWindow
  dsimp only
  by_cases hgain : s.passLoss < s.holdoutBestLoss
  · rw [if_pos hgain, if_pos hgain, if_pos hgain]
    exact ⟨rfl, rfl⟩
  · rw [if_neg hgain, if_neg hgain, if_neg hgain]
    split
    · exact ⟨rfl, rfl⟩
    · exact ⟨rfl, rfl⟩

/-- Where holdout is on, the end of a pass closes its window. -/
theorem Chain.endPass_of_on {c : Chain R W} (hon : c.context.holdoutOff = false) :
    let closed := c.context.stats.closeHoldoutWindow (c.context.currentPass + 1) c.optimizer.stalls
    c.endPass.optimizer = { c.optimizer with stalls := closed.2.1 } ∧
      c.endPass.context = { c.context with
        stats := closed.2.2
        currentPass := c.context.currentPass + 1
        done := c.endPass.context.done } := by
  intro closed
  have hpass : c.optimizer.endPass { c.context with currentPass := c.context.currentPass + 1 } = _ :=
    if_neg (Bool.eq_false_iff.mp hon)
  obtain ⟨hoptimizer, hcontext⟩ := c.endPass_eq
  rw [hpass] at hoptimizer hcontext
  exact ⟨hoptimizer, by rw [hcontext]⟩

namespace Workspace

/-- The end of the pass judges by `loss`. If it is less than the best one so far it becomes the best
one; otherwise a pass without gain is counted, unless no finite loss was ever seen. -/
structure JudgedBy (w : Workspace R W) (loss : R) : Prop where
  best : w.endPass.chain.context.stats.holdoutBestLoss =
    if loss < w.chain.context.stats.holdoutBestLoss then loss
    else w.chain.context.stats.holdoutBestLoss
  stalls : w.endPass.chain.optimizer.stalls =
    if loss < w.chain.context.stats.holdoutBestLoss then 0
    else if loss != Scalar.largest || Scalar.isFinite w.chain.context.stats.holdoutBestLoss then
      w.chain.optimizer.stalls + 1
    else w.chain.optimizer.stalls

/-- Where holdout is on, the end of a pass judges by the average loss of its window. -/
theorem judgedBy_average {w : Workspace R W} (hon : w.chain.context.holdoutOff = false) :
    w.JudgedBy w.chain.context.stats.window.average := by
  obtain ⟨hoptimizer, hcontext⟩ := Chain.endPass_of_on hon
  obtain ⟨hbest, hstalls⟩ := w.chain.context.stats.closeHoldoutWindow_eq
    (w.chain.context.currentPass + 1) w.chain.optimizer.stalls
  exact ⟨(congrArg (fun c : Context R W => c.stats.holdoutBestLoss) hcontext).trans hbest,
    (congrArg Optimizer.stalls hoptimizer).trans hstalls⟩

end Workspace

/-! ## Counting -/

namespace Stats

/-- Statistics that differ by counted examples, and by the sum that a journal entry starts anew. -/
def Counted (s s' : Stats R W) : Prop :=
  s' = { s with
    exampleNumber := s'.exampleNumber
    totalFeatures := s'.totalFeatures
    sumLossSinceLastDump := s'.sumLossSinceLastDump }

omit [Scalar R] [Number W] [Widening R W] in
theorem Counted.sums {s s' : Stats R W} (h : Counted s s') :
    s'.learned = s.learned ∧ s'.weightedLabels = s.weightedLabels ∧ s'.held = s.held ∧
      s'.window = s.window := by
  unfold Counted at h
  rw [h]
  exact ⟨rfl, rfl, rfl, rfl⟩

end Stats

omit [Scalar R] [Widening R W] in
/-- A journal whose file can be reached grows by an entry whenever it starts the sum anew. -/
theorem Journal.observe_eq {journal : Journal R W} (h : journal.file = .reachable)
    (stats : Stats R W) (label : Option R) (prediction : R) (features : Nat)
    (hsame : (journal.observe stats label prediction features).2.1 = journal) :
    (journal.observe stats label prediction features).2.2 = stats := by
  by_cases hdue : stats.exampleNumber < journal.nextEntry
  · unfold observe
    rw [if_pos hdue]
  · unfold observe at hsame
    rw [if_neg hdue, h] at hsame
    have hlength := congrArg (fun j : Journal R W => j.entries.length) hsame
    simp at hlength

namespace Workspace

variable {context : Context R W} {journal : Option (Journal R W)}

omit [Scalar R] [Widening R W] in
theorem tally_counted (hreachable : ∀ j, journal = some j → j.file = .reachable)
    (label : Option R) (prediction : R) (features : Nat) :
    let t := tally context journal label prediction features
    t.2.1 = { context with stats := t.2.1.stats } ∧ context.stats.Counted t.2.1.stats ∧
      (t.2.2 = journal →
        t.2.1.stats.sumLossSinceLastDump = context.stats.sumLossSinceLastDump) := by
  cases journal with
  | none => exact ⟨rfl, rfl, fun _ => rfl⟩
  | some journal =>
    have hfile := hreachable journal rfl
    have hsame :=
      journal.observe_eq hfile (context.stats.recordExample features) label prediction features
    obtain ⟨-, -, hstats⟩ := journal.observe_reachable hfile
      (context.stats.recordExample features) label prediction features
    unfold tally
    dsimp only
    refine ⟨rfl, ?_, fun hjournal => ?_⟩
    · rcases hstats with hstats | hstats
      · rw [hstats]
        rfl
      · rw [hstats]
        rfl
    · rw [hsame (Option.some.inj hjournal)]
      rfl

omit [Scalar R] [Widening R W] in
/-- What is counted of a call, whether it failed or not. -/
theorem counted_tally {ι : Type} (count : Context R W → Option (Journal R W) → ι →
      Except LearnerError Unit × Context R W × Option (Journal R W)) (input : ι)
    (hcount : ∃ label prediction features,
      count context journal input = tally context journal label prediction features)
    (hreachable : ∀ j, journal = some j → j.file = .reachable)
    (outcome : Except LearnerError Unit) :
    let c := counted count outcome context journal input
    c.2.1 = { context with stats := c.2.1.stats } ∧ context.stats.Counted c.2.1.stats ∧
      (c.2.2 = journal →
        c.2.1.stats.sumLossSinceLastDump = context.stats.sumLossSinceLastDump) := by
  obtain ⟨label, prediction, features, hcount⟩ := hcount
  cases outcome with
  | error e => exact ⟨rfl, rfl, fun _ => rfl⟩
  | ok _ =>
    unfold counted
    dsimp only
    rw [hcount]
    exact tally_counted hreachable label prediction features

/-! ## What is not learned -/

/-- A call that has learned nothing: optimizer and grounded node are the same, and so are the sums
over learned examples. An entry of the journal starts one of them anew. -/
structure Unlearned (w w' : Workspace R W) : Prop where
  optimizer : w'.chain.optimizer = w.chain.optimizer
  grounded : w'.chain.grounded? = w.chain.grounded?
  learned : w'.chain.context.stats.learned = w.chain.context.stats.learned
  weightedLabels : w'.chain.context.stats.weightedLabels = w.chain.context.stats.weightedLabels
  sumLossSinceLastDump : w'.journal = w.journal →
    w'.chain.context.stats.sumLossSinceLastDump = w.chain.context.stats.sumLossSinceLastDump

omit [Scalar R] [Number W] [Widening R W] in
theorem Unlearned.refl (w : Workspace R W) : w.Unlearned w := ⟨rfl, rfl, rfl, rfl, fun _ => rfl⟩

/-- A line predicts and scores what is held out. -/
theorem runOn_learn_holdout (config : Config R) (hasher : FeatureHasher) (mode : Mode)
    (link : LinkFunction) (o : Optimizer R W)
    (hreachable : ∀ j, journal = some j → j.file = .reachable)
    (hon : context.holdoutOff = false) {ec : Example R} (hheld : ec.holdout = true) :
    let left :=
      (learn.runOn ⟨config, ⟨.line ⟨mode, [link]⟩, o, context, hasher⟩, journal⟩ ec).2.1
    let scored := context.scored (o.weights.dot (ec.visits context.interactions)) ec
    left.chain.optimizer = o ∧ left.chain.grounded? = none ∧
      left.chain.context = { scored with stats := left.chain.context.stats } ∧
      scored.stats.Counted left.chain.context.stats ∧
      (left.journal = journal →
        left.chain.context.stats.sumLossSinceLastDump = scored.stats.sumLossSinceLastDump) := by
  have hseen : released context true ec = ec := by
    unfold released
    rw [hon]
    rfl
  have hrun := runOn_callLine true config ⟨mode, [link]⟩ o context hasher journal ec
  have hleft : let left := (((⟨mode, [link]⟩ : Line).learner.call true).runOn ⟨o, context, ec⟩).2
      left.node = o ∧
        left.context = context.scored (o.weights.dot (ec.visits context.interactions)) ec :=
    Scorer.runOn_learn_holdout link o context hheld
  change learn.runOn _ ec = _ at hrun
  rw [hseen] at hrun
  generalize ((⟨mode, [link]⟩ : Line).learner.call true).runOn ⟨o, context, ec⟩ = run at hrun hleft
  obtain ⟨outcome, node, left, input⟩ := run
  obtain ⟨hnode, hcontext⟩ := hleft
  dsimp only at hnode hcontext
  subst hnode hcontext
  rw [hrun]
  exact ⟨rfl, rfl, counted_tally exampleTally input ⟨_, _, _, rfl⟩ hreachable outcome⟩

/-- A prediction of a batch learns nothing and scores nothing. -/
theorem predictBatch_unlearned {w : Workspace R W}
    (hreachable : ∀ j, w.journal = some j → j.file = .reachable) (batch : Batch R) :
    let left := (predictBatch.runOn w batch).2.1
    w.Unlearned left ∧ left.chain.context.stats.held = w.chain.context.stats.held ∧
      left.chain.context.stats.window = w.chain.context.stats.window := by
  obtain ⟨config, ⟨l | t, state, context, hasher⟩, journal⟩ := w
  · have hrun := runOn_callBatch_line false config l state context hasher journal batch
    change predictBatch.runOn _ batch = _ at hrun
    rw [hrun]
    exact ⟨.refl _, rfl, rfl⟩
  · have hrun := runOn_callBatch false config t state context hasher journal batch
    have hleft : let left := ((t.learner.call (learns context batch false)).runOn
          ⟨state, context, batch⟩).2
        t.Untouched state left.node ∧ left.context = context :=
      t.predict_untouched ⟨state, context, batch⟩
    change predictBatch.runOn _ batch = _ at hrun
    generalize (t.learner.call (learns context batch false)).runOn ⟨state, context, batch⟩ = run
      at hrun hleft
    obtain ⟨outcome, node, left, input⟩ := run
    obtain ⟨hnode, hcontext⟩ := hleft
    dsimp only at hnode hcontext
    subst hcontext
    obtain ⟨-, hcounted, hdump⟩ :=
      counted_tally batchTally input ⟨_, _, _, rfl⟩ hreachable outcome
    obtain ⟨hlearned, hlabels, hheld, hwindow⟩ := hcounted.sums
    rw [hrun]
    exact ⟨⟨hnode.optimizer, congrArg List.head? hnode.groundedStates, hlearned, hlabels, hdump⟩,
      hheld, hwindow⟩

/-- Where holdout is on, a batch with a line that is held out is predicted only. -/
theorem runOn_learnBatch_holdout {w : Workspace R W} (hon : w.chain.context.holdoutOff = false)
    {batch : Batch R} (hheld : batch.any (·.holdout) = true) :
    learnBatch.runOn w batch = predictBatch.runOn w batch := by
  have hlearns (learning : Bool) : learns w.chain.context batch learning = false := by
    unfold learns
    rw [hon, hheld]
    cases learning <;> rfl
  have hlearn := callBatch_eq true w batch
  have hpredict := callBatch_eq false w batch
  rw [hlearns] at hlearn hpredict
  exact hlearn.trans hpredict.symm

/-- What is held out is not learned. -/
theorem learn_unlearned {w : Workspace R W}
    (hstack : (∃ mode link, w.chain.stack = .line ⟨mode, [link]⟩) ∨ ∃ t, w.chain.stack = .tower t)
    (hreachable : ∀ j, w.journal = some j → j.file = .reachable)
    (hon : w.chain.context.holdoutOff = false) {ec : Example R} (hheld : ec.holdout = true) :
    w.Unlearned (learn.runOn w ec).2.1 := by
  obtain ⟨config, ⟨stack, state, context, hasher⟩, journal⟩ := w
  rcases hstack with ⟨mode, link, rfl⟩ | ⟨t, rfl⟩
  · obtain ⟨hnode, hgrounded, -, hcounted, hdump⟩ :=
      runOn_learn_holdout config hasher mode link state hreachable hon hheld
    obtain ⟨hlearned, hlabels, hsum⟩ :=
      context.scored_learned (state.weights.dot (ec.visits context.interactions)) ec
    obtain ⟨hlearned', hlabels', -, -⟩ := hcounted.sums
    exact ⟨hnode, hgrounded, hlearned'.trans hlearned, hlabels'.trans hlabels,
      fun hjournal => (hdump hjournal).trans hsum⟩
  · have hrun := runOn_callLine_tower true config t state context hasher journal ec
    change learn.runOn _ ec = _ at hrun
    rw [hrun]
    exact .refl _

/-- What is held out, labeled and of positive weight is scored, and the end of the pass judges by
it. -/
theorem learn_scored {w : Workspace R W}
    (hstack : (∃ mode link, w.chain.stack = .line ⟨mode, [link]⟩) ∨ ∃ t, w.chain.stack = .tower t)
    (hreachable : ∀ j, w.journal = some j → j.file = .reachable)
    (hon : w.chain.context.holdoutOff = false) {ec : Example R} (hheld : ec.holdout = true)
    {l : Line} (hline : w.chain.stack = .line l) {label : R}
    (hlabel : ec.label = .simple (some label)) (hweight : 0 < ec.weight) :
    let left := (learn.runOn w ec).2.1
    let stats := w.chain.context.stats
    let covered := w.chain.context.coverLabel label
    let raw := w.chain.optimizer.weights.dot (ec.visits w.chain.context.interactions)
    let loss : W := Widening.widen (covered.lossOf (covered.bound raw) label * ec.weight)
    let weight : W := Widening.widen ec.weight
    left.chain.context.stats.held = stats.held.add loss weight ∧
      left.chain.context.stats.window = stats.window.add loss weight ∧
      left.JudgedBy (stats.window.add loss weight).average := by
  obtain ⟨config, ⟨stack, state, context, hasher⟩, journal⟩ := w
  rcases hstack with ⟨mode, link, rfl⟩ | ⟨t, rfl⟩
  · obtain ⟨-, -, hcontext, hcounted, -⟩ :=
      runOn_learn_holdout config hasher mode link state hreachable hon hheld
    obtain ⟨hheld, hwindow, hoff⟩ := context.scored_held
      (state.weights.dot (ec.visits context.interactions)) hlabel hweight
    obtain ⟨-, -, hheld', hwindow'⟩ := hcounted.sums
    have hwindow := hwindow'.trans hwindow
    refine ⟨hheld'.trans hheld, hwindow, ?_⟩
    have hjudged := judgedBy_average ((congrArg Context.holdoutOff hcontext).trans (hoff.trans hon))
    rw [hwindow] at hjudged
    exact hjudged
  · cases hline

/-- Where holdout is on, in every state that a workspace gets to: an example that is held out is not
learned, and if it has a label and positive weight the loss of its prediction, under the bounds
that the label has widened, goes to the holdout sums, so that the end of the pass judges by it. A
batch with a line that is held out is not learned either, but nothing of it is scored. -/
theorem holdout_not_learned {c : Config Float32} (hon : c.run.holdoutOff = false)
    {w₀ : Workspace Float32 Float} (hnew : Workspace.new c = .ok w₀) (events : List Event) :
    let w := (w₀.echoes events).2
    let stats := w.chain.context.stats
    (∀ ec : Example Float32, ec.holdout = true →
      let left := (learn.runOn w ec).2.1
      w.Unlearned left ∧
      ∀ l label, w.chain.stack = .line l → ec.label = .simple (some label) → 0 < ec.weight →
        let covered := w.chain.context.coverLabel label
        let raw := w.chain.optimizer.weights.dot (ec.visits w.chain.context.interactions)
        let loss : Float := Widening.widen (covered.lossOf (covered.bound raw) label * ec.weight)
        let weight : Float := Widening.widen ec.weight
        left.chain.context.stats.held = stats.held.add loss weight ∧
          left.chain.context.stats.window = stats.window.add loss weight ∧
          left.JudgedBy (stats.window.add loss weight).average) ∧
    ∀ batch : Batch Float32, batch.any (·.holdout) = true →
      let left := (learnBatch.runOn w batch).2.1
      w.Unlearned left ∧ left.chain.context.stats.held = stats.held ∧
        left.chain.context.stats.window = stats.window := by
  intro w stats
  obtain ⟨_, _, -, hself⟩ := reached hnew events
  have hreachable : ∀ j, w.journal = some j → j.file = .reachable := hself.reachable
  have hstack := (fresh_of_new hnew).stack_cases
  rw [← stack_reached hnew events] at hstack
  have hoff : w.chain.context.holdoutOff = false := (holdoutOff_reached hnew events).trans hon
  refine ⟨fun ec hheld => ⟨learn_unlearned hstack hreachable hoff hheld,
    fun l label hline hlabel hweight =>
      learn_scored hstack hreachable hoff hheld hline hlabel hweight⟩, fun batch hheld => ?_⟩
  rw [runOn_learnBatch_holdout hoff hheld]
  exact predictBatch_unlearned hreachable batch

end Workspace

/-! ## A line that is not scored -/

namespace Config

/-- The default configuration with holdout, without or with a bandit node. -/
def defaultHeld (bandit : Bool) : Config Float32 :=
  { (default : Config Float32) with
    bandit := { enabled := bandit }
    run := { (default : Config Float32).run with holdoutOff := false } }

theorem isSome_defaultHeld : ∀ bandit, (Workspace.new (defaultHeld bandit) :
    Except _ (Workspace Float32 Float)).toOption.isSome := by
  decide +kernel

def heldWorkspace (bandit : Bool) : Workspace Float32 Float :=
  (Workspace.new (defaultHeld bandit) : Except _ (Workspace Float32 Float)).toOption.get
    (isSome_defaultHeld bandit)

theorem new_defaultHeld (bandit : Bool) :
    Workspace.new (defaultHeld bandit) = .ok (heldWorkspace bandit) :=
  Workspace.new_eq_get _

end Config

namespace Workspace

/-- An example that is held out after another one was learned, and a batch with a line that is held
out. -/
theorem holdout_not_learned_after_call :
    let events := [.call (.learn (.single (.simple (some 1)) false))]
    let w (bandit : Bool) := ((Config.heldWorkspace bandit).echoes events).2
    let ec : Example Float32 := .single (.simple (some 0)) true
    let batch : Batch Float32 := [.single (.bandit [⟨1, 1, 1⟩]) true]
    let context := (w false).chain.context
    let covered := context.coverLabel 0
    let raw := (w false).chain.optimizer.weights.dot (ec.visits context.interactions)
    let loss : Float := Widening.widen (covered.lossOf (covered.bound raw) 0 * ec.weight)
    ((∀ bandit, (Config.defaultHeld bandit).run.holdoutOff = false ∧
        Workspace.new (Config.defaultHeld bandit) = .ok (Config.heldWorkspace bandit)) ∧
      ec.holdout = true ∧ 0 < ec.weight ∧ batch.any (·.holdout) = true) ∧
    (w false).Unlearned (learn.runOn (w false) ec).2.1 ∧
    (learn.runOn (w false) ec).2.1.JudgedBy
      (context.stats.window.add loss (Widening.widen ec.weight)).average ∧
    (w true).Unlearned (learnBatch.runOn (w true) batch).2.1 := by
  intro events w ec batch context covered raw loss
  obtain ⟨hec, -⟩ := holdout_not_learned (c := Config.defaultHeld false) rfl
    (Config.new_defaultHeld false) events
  obtain ⟨-, hbatch⟩ := holdout_not_learned (c := Config.defaultHeld true) rfl
    (Config.new_defaultHeld true) events
  have hstack := stack_reached (Config.new_defaultHeld false) events
  have hweight : 0 < ec.weight := by decide +kernel
  obtain ⟨hunlearned, hscored⟩ := hec ec rfl
  obtain ⟨-, -, hjudged⟩ := hscored ⟨.coinBetting, [.identity]⟩ 0 (hstack.trans rfl) rfl hweight
  exact ⟨⟨fun bandit => ⟨rfl, Config.new_defaultHeld bandit⟩, rfl, hweight, rfl⟩,
    hunlearned, hjudged, (hbatch batch rfl).1⟩

/-- A line that is held out and has an observed cost adds nothing to the holdout sums. -/
theorem not_holdout_scored :
    ¬ ∀ (c : Config Float32) (w₀ : Workspace Float32 Float), c.run.holdoutOff = false →
      Workspace.new c = .ok w₀ → ∀ (line : Example Float32) (observed : LoggedCost Float32),
        line.holdout = true → Bandit.isAction line = true → line.observed? = some observed →
        0 < line.weight / observed.probability →
          let left := (learnBatch.runOn w₀ [line]).2.1
          left.chain.context.stats.held.weight = w₀.chain.context.stats.held.weight +
            Widening.widen (line.weight / observed.probability) := by
  intro h
  have hweight := h (Config.defaultHeld true) (Config.heldWorkspace true) rfl
    (Config.new_defaultHeld true) (.single (.bandit [⟨1, 1, 1⟩]) true) ⟨1, 1, 1⟩ rfl rfl
    (by rfl) (by decide +kernel)
  have hbits := congrArg Float.toBits hweight
  revert hbits
  decide +kernel

end Workspace

end OnlineLearning
