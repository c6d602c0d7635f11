import Mathlib
import OnlineLearning.Proofs.ChosenLine
import OnlineLearning.Proofs.Exact
import OnlineLearning.Proofs.HeldOut

/-!
# What is booked of a batch

An example that is learned is booked in two places: its loss and its weight go to the statistics of
the chain that learns it, and its weight to the optimizer, which both chains of a grounded workspace
share. A batch with a chosen line is many examples of the decoder and one of the policy.

* `Frame.Booked` says what is booked of one example; `Scorer.learn_booked` that one scorer on an
  optimizer does so, and `Scorer.predict_unbooked` that predictions book nothing;
* `Bandit.learn_booked`: a bandit node books its regression example, and leaves the loss on the line
  that was chosen;
* `Receipt` is what is known of a batch that was learned;
* `Grounded.course_booked` and `Grounded.exists_settlement` are about the examples of the decoder,
  `Grounded.settlement_booked` is about that of the policy;
* `Grounded.learn_booked`: a grounded node books a batch by its receipt.
-/

namespace OnlineLearning

variable {R W : Type} [Scalar R] [Number W] [Widening R W]

/-! ## One example -/

namespace Context

omit [Number W] [Widening R W] in
/-- Labels may widen the bounds, and do nothing else. -/
theorem stats_coverLabel (context : Context R W) (label : R) :
    (context.coverLabel label).stats.learned = context.stats.learned ∧
      (context.coverLabel label).stats.exampleNumber = context.stats.exampleNumber := by
  rw [context.coverLabel_eq label]
  exact ⟨rfl, rfl⟩

end Context

namespace Optimizer

/-- Coin betting counts the weight of what it is to learn. -/
theorem totals_learningPrediction {o : Optimizer R W} (hmode : o.mode = .coinBetting) (weight : R)
    (visits : List (Feature R)) :
    (o.learningPrediction weight visits).1.mode = .coinBetting ∧
      (o.learningPrediction weight visits).1.totalWeight =
        o.totalWeight + Widening.widen weight := by
  obtain ⟨mode, _, _, _, _, _, _, _, _⟩ := o
  cases hmode
  exact ⟨rfl, rfl⟩

/-- To learn is to publish a prediction and to count the weight. -/
theorem exists_runOn_learn {f : Frame R W (Optimizer R W) (Example R)}
    (hmode : f.node.mode = .coinBetting) {label : R}
    (hlabel : f.input.label = .simple (some label)) :
    ∃ (o : Optimizer R W) (raw : R),
      (learn : NodeM R W _ _ Unit).runOn f =
        (.ok (), ⟨o, f.context, publish f.context raw f.input⟩) ∧
      o.mode = .coinBetting ∧
      o.totalWeight = f.node.totalWeight + Widening.widen f.input.weight := by
  have htarget : f.input.target? = some label := by
    rw [Example.target?, hlabel]
  obtain ⟨hseen, htotal⟩ := totals_learningPrediction hmode f.input.weight
    (f.input.visits f.context.interactions)
  rw [runOn_learn, htarget]
  exact ⟨_, _, rfl, hseen, htotal⟩

end Optimizer

/-- Frames before and after an example is learned: loss and weight have gone to the statistics of
the chain, and the weight to the optimizer. -/
structure Frame.Booked (f left : Frame R W (Optimizer R W) (Example R)) : Prop where
  mode : left.node.mode = .coinBetting
  totalWeight : left.node.totalWeight = f.node.totalWeight + Widening.widen f.input.weight
  learned : left.context.stats.learned =
    f.context.stats.learned.add (Widening.widen left.input.loss) (Widening.widen f.input.weight)
  exampleNumber : left.context.stats.exampleNumber = f.context.stats.exampleNumber

namespace Scorer

variable {f : Frame R W (Optimizer R W) (Example R)} {label : R}

/-- One scorer on an optimizer books what it learns, once. -/
theorem learn_booked (link : LinkFunction) (hmode : f.node.mode = .coinBetting)
    (hlabel : f.input.label = .simple (some label)) (hweight : 0 < f.input.weight)
    (hheld : f.input.holdout = false) :
    f.Booked ((run link Optimizer.learner true).runOn f).2 := by
  have hlearns : (true && decide (0 < f.input.weight) && !f.input.holdout) = true := by
    simp [hweight, hheld]
  obtain ⟨hlearned, hnumber⟩ := f.context.stats_coverLabel label
  rw [runOn_run, runOn_runBelow, hlabel]
  dsimp only
  rw [if_pos hlearns]
  generalize f.context.coverLabel label = covered at hlearned hnumber ⊢
  obtain ⟨o, raw, hrun, hmode, htotal⟩ :=
    Optimizer.exists_runOn_learn (f := { f with context := covered }) hmode hlabel
  change Optimizer.learner.learn.runOn _ = _ at hrun
  have hpositive : 0 < (Optimizer.publish covered raw f.input).weight := hweight
  have hholdout : (Optimizer.publish covered raw f.input).holdout = false := hheld
  rw [hrun]
  dsimp only
  rw [runOn_account, if_pos hpositive]
  dsimp only
  rw [hholdout]
  refine ⟨hmode, htotal, ?_, hnumber⟩
  rw [← hlearned]
  rfl

/-- To predict books nothing, also where the example has a label. -/
theorem predict_unbooked (link : LinkFunction) (hlabel : f.input.label = .simple (some label)) :
    let left := ((run link Optimizer.learner false).runOn f).2
    left.node = f.node ∧ left.context.stats.learned = f.context.stats.learned ∧
      left.context.stats.exampleNumber = f.context.stats.exampleNumber := by
  obtain ⟨hlearned, hnumber⟩ := f.context.stats_coverLabel label
  have hpredict (f : Frame R W (Optimizer R W) (Example R)) :
      Optimizer.learner.predict.runOn f = (.ok (), { f with
        input := Optimizer.publish f.context
          (f.node.weights.dot (f.input.visits f.context.interactions)) f.input }) := rfl
  rw [runOn_run, runOn_runBelow, hlabel]
  dsimp only
  rw [Bool.false_and, Bool.false_and, if_neg Bool.false_ne_true, hpredict]
  dsimp only
  rw [runOn_account]
  dsimp only
  split
  · exact ⟨rfl, hlearned, hnumber⟩
  · exact ⟨rfl, hlearned, hnumber⟩

end Scorer

/-! ## One batch -/

namespace Bandit

omit [Number W] [Widening R W] in
theorem getElem?_of_chosen? {batch : Batch R} {i : ℕ} {action : Example R}
    {observed : LoggedCost R} (h : chosen? batch = some (i, action, observed)) :
    batch[i]? = some action := by
  obtain ⟨⟨ec, j⟩, hmem, hfound⟩ := List.exists_of_findSome?_eq_some h
  dsimp only at hfound
  split at hfound
  · obtain ⟨_, -, hchosen⟩ := Option.map_eq_some_iff.mp hfound
    cases hchosen
    exact List.mk_mem_zipIdx_iff_getElem?.mp hmem
  · cases hfound

omit [Number W] [Widening R W] in
/-- Where calls have written into the lines, the same line is chosen. -/
theorem exists_chosen?_of_unscored {batch left : Batch R}
    (h : left.map Example.unscored = batch.map Example.unscored) {i : ℕ} {action : Example R}
    {observed : LoggedCost R} (hchosen : chosen? batch = some (i, action, observed)) :
    ∃ action', chosen? left = some (i, action', observed) ∧
      regression (shared? left) action' observed = regression (shared? batch) action observed := by
  have hfound := chosen?_unscored left
  rw [h, chosen?_unscored, hchosen] at hfound
  obtain ⟨⟨j, action', observed'⟩, hleft, heq⟩ := Option.map_eq_some_iff.mp hfound.symm
  obtain ⟨rfl, hrest⟩ := Prod.mk.inj heq
  obtain ⟨-, rfl⟩ := Prod.mk.inj hrest
  have hlesson := lesson?_unscored left
  rw [h, lesson?_unscored, lesson?, lesson?, hleft, hchosen] at hlesson
  exact ⟨action', hleft, (Option.some.inj hlesson).symm⟩

omit [Number W] [Widening R W] in
/-- The loss of the regression example is left on the line that was chosen. -/
theorem loss_learn {σ : Type} {base : LineLearner R W σ} (hobserves : base.Observes)
    (haccepts : base.Accepts) {f : Frame R W (Example R × σ) (Batch R)} {i : ℕ}
    {action : Example R} {observed : LoggedCost R}
    (hchosen : chosen? f.input = some (i, action, observed)) :
    (((learn base).runOn f).2.input.getD i Example.blank).loss =
      (base.learn.runOn ⟨f.node.2, f.context,
        regression (shared? f.input) action observed⟩).2.input.loss := by
  have hne : f.input ≠ [] := by
    intro hnil
    rw [hnil] at hchosen
    cases hchosen
  have hout := predict_takes haccepts hne
  obtain ⟨hnode, hcontext⟩ := predict_observes hobserves f
  obtain ⟨action', hchosen', hregression⟩ := exists_chosen?_of_unscored
    (map_predict (g := Example.unscored) (fun _ _ => rfl) (fun _ _ => rfl) base f) hchosen
  rw [runOn_learn, ← hregression, ← hnode, ← hcontext]
  generalize (predict base).runOn f = run at hout hchosen' ⊢
  obtain ⟨outcome, node, context, batch⟩ := run
  cases hout
  dsimp only at hchosen' ⊢
  rw [hchosen']
  have hlearn := (haccepts.learn
    ⟨node.2, context, regression (shared? batch) action' observed⟩ observed.cost rfl).1
  dsimp only
  generalize base.learn.runOn _ = run at hlearn ⊢
  obtain ⟨outcome, last⟩ := run
  cases hlearn
  simp [List.getD_eq_getElem?_getD, getElem?_of_chosen? hchosen']

/-- A bandit node on one scorer books the regression example of its batch, and leaves the loss on
the line that was chosen. -/
theorem learn_booked (link : LinkFunction) {f : Frame R W (Example R × Optimizer R W) (Batch R)}
    (hmode : f.node.2.mode = .coinBetting) {i : ℕ} {action : Example R} {observed : LoggedCost R}
    (hchosen : chosen? f.input = some (i, action, observed))
    (hweight : 0 < action.weight / observed.probability) (hheld : action.holdout = false) :
    let left := ((learn (⟨.coinBetting, [link]⟩ : Line).learner).runOn f).2
    Frame.Booked ⟨f.node.2, f.context, regression (shared? f.input) action observed⟩
      ⟨left.node.2, left.context, left.input.getD i Example.blank⟩ := by
  intro left
  let line : Line := ⟨.coinBetting, [link]⟩
  have hbooked := Scorer.learn_booked link
    (f := ⟨f.node.2, f.context, regression (shared? f.input) action observed⟩) hmode rfl hweight
    hheld
  obtain ⟨htaught, -⟩ := runOn_learn_lesson line.learner_observes line.learner_accepts f
  have hloss := loss_learn line.learner_observes line.learner_accepts hchosen
  rw [lesson?, hchosen] at htaught
  obtain ⟨hnode, hcontext⟩ := Prod.mk.inj htaught
  change left.node.2 = _ at hnode
  change left.context = _ at hcontext
  change (left.input.getD i Example.blank).loss = _ at hloss
  refine ⟨?_, ?_, ?_, ?_⟩
  · rw [hnode]
    exact hbooked.mode
  · rw [hnode]
    exact hbooked.totalWeight
  · rw [hcontext, hloss]
    exact hbooked.learned
  · rw [hcontext]
    exact hbooked.exampleNumber

end Bandit

/-! ## Receipts -/

/-- What is booked of a batch that was learned: the line that was chosen, the cost that was observed
of it, the loss that is left on it, and the number of lines that are not feedback. -/
structure Receipt (R : Type) where
  line : Example R
  observed : LoggedCost R
  loss : R
  lines : ℕ

namespace Receipt

omit [Number W] [Widening R W] in
/-- The weight of the chosen line for the primary policy. -/
def weight (r : Receipt R) : R := r.line.weight / r.observed.probability

variable {K : Type} [ExactNumber K]

/-- The weight of all lines for the decoder. -/
def decoderWeight (s : GroundedSettings K) (r : Receipt K) : K :=
  s.positiveImportance + (r.lines - 1) * s.negativeImportance

end Receipt

/-! ## The decoder -/

namespace Grounded

section

variable {batch : Batch R}
  (haction : ∀ line ∈ batch, line.hasObservedCost = true → Bandit.isAction line = true)
include haction

omit [Number W] [Widening R W] in
/-- If only actions have observed costs, the bandit node chooses the line of the grounded node. -/
theorem exists_bandit_chosen {i : ℕ} (h : chosen? batch = some i) :
    ∃ before line after observed, batch = before ++ line :: after ∧ i = before.length ∧
      (∀ earlier ∈ before, isCandidate earlier = false) ∧ isCandidate line = true ∧
      line.observed? = some observed ∧ Bandit.chosen? batch = some (i, line, observed) := by
  obtain ⟨before, line, after, rfl, rfl, hbefore, hcandidate⟩ := exists_of_chosen? h
  have hhas := (Bool.and_eq_true_iff.mp hcandidate).2
  obtain ⟨observed, hobserved⟩ := Option.isSome_iff_exists.mp hhas
  have hchosen : Bandit.chosen? (before ++ line :: after) = some (before.length, line, observed) :=
    Bandit.chosen?_append
      (fun ec hec haction => Bandit.observed?_of_not_candidate (hbefore ec hec) haction)
      (haction line (by simp) hhas) hobserved
  exact ⟨before, line, after, observed, rfl, rfl, hbefore, hcandidate, hobserved, hchosen⟩

omit [Number W] [Widening R W] in
theorem chosen?_eq_none_of_bandit (h : Bandit.chosen? batch = none) : chosen? batch = none := by
  rw [Option.eq_none_iff_forall_ne_some]
  intro i hi
  obtain ⟨_, _, _, _, -, -, -, -, -, hchosen⟩ := exists_bandit_chosen haction hi
  rw [h] at hchosen
  cases hchosen

omit [Number W] [Widening R W] in
/-- If only actions have observed costs, the grounded node chooses the line of the bandit node. -/
theorem exists_append_of_chosen {i : ℕ} {line : Example R} {observed : LoggedCost R}
    (h : Bandit.chosen? batch = some (i, line, observed)) :
    ∃ before after, batch = before ++ line :: after ∧ i = before.length ∧
      (∀ earlier ∈ before, isCandidate earlier = false) ∧ isCandidate line = true ∧
      line.observed? = some observed := by
  cases hchosen : chosen? batch with
  | none =>
    have hlines : ∀ ec ∈ batch, isCandidate ec = false := List.findIdx?_eq_none_iff.mp hchosen
    rw [Bandit.chosen?_eq_none fun ec hec haction =>
      Bandit.observed?_of_not_candidate (hlines ec hec) haction] at h
    cases h
  | some j =>
    obtain ⟨before, other, after, observed', hbatch, hj, hbefore, hcandidate, hobserved, hother⟩ :=
      exists_bandit_chosen haction hchosen
    cases hother.symm.trans h
    exact ⟨before, after, hbatch, hj, hbefore, hcandidate, hobserved⟩

end

theorem decoderLearner_accepts (decoder primary : Line) :
    (decoderLearner decoder primary : LineLearner R W _).Accepts :=
  onNode_accepts decoder.learner_accepts _ _

/-- A decoder with one scorer, which works on the optimizer of its policy. -/
theorem runOn_decoderLearner (link : LinkFunction) (primary : Line)
    (f : Frame R W (Example R × Optimizer R W) (Example R)) (learning : Bool) :
    ((decoderLearner ⟨.coinBetting, [link]⟩ primary).call learning).runOn f =
      let run := (Scorer.run link Optimizer.learner learning).runOn ⟨f.node.2, f.context, f.input⟩
      (run.1, ⟨(f.node.1, run.2.node), run.2.context, run.2.input⟩) := by
  cases learning <;> rfl

/-- A decoder accepts labeled examples, and a prediction of one books nothing. -/
theorem exists_predict_decoderLearner (link : LinkFunction) (primary : Line)
    (node : Example R × Optimizer R W) (context : Context R W) (ec : Example R) {label : R}
    (hlabel : ec.label = .simple (some label)) :
    ∃ left, (decoderLearner ⟨.coinBetting, [link]⟩ primary).predict.runOn ⟨node, context, ec⟩ =
        (.ok (), left) ∧
      left.node = node ∧ left.context.stats.learned = context.stats.learned := by
  have hout := ((decoderLearner_accepts ⟨.coinBetting, [link]⟩ primary).predict
    ⟨node, context, ec⟩ label hlabel).1
  have hrun : (decoderLearner ⟨.coinBetting, [link]⟩ primary).predict.runOn ⟨node, context, ec⟩ =
    _ := runOn_decoderLearner link primary ⟨node, context, ec⟩ false
  obtain ⟨hnode, hlearned, -⟩ := Scorer.predict_unbooked link (f := ⟨node.2, context, ec⟩) hlabel
  refine ⟨_, Prod.ext hout rfl, ?_⟩
  rw [hrun]
  exact ⟨Prod.ext rfl hnode, hlearned⟩

variable {K : Type} [ExactNumber K] {s : GroundedSettings K} {offset : UInt64}
  {feedback : Option (Feature K)}

theorem sum_otherExamples (lines : Batch K) :
    ((otherExamples s offset feedback lines).map Example.weight).sum =
      (otherExamples s offset feedback lines).length * s.negativeImportance := by
  have hweights : (otherExamples s offset feedback lines).map Example.weight =
      List.replicate (otherExamples s offset feedback lines).length s.negativeImportance := by
    simp [otherExamples, decoderExample, List.map_map, Function.comp_def, List.map_const']
  rw [hweights, List.sum_replicate, nsmul_eq_mul]

/-- The examples of the decoder are as many as the lines that are not feedback. -/
theorem length_lessons {before after : Batch K} {line : Example K} (hline : line.role ≠ .feedback)
    (positive : Example K) :
    (otherExamples s offset feedback before ++
      positive :: otherExamples s offset feedback after).length =
        (before ++ line :: after).countP (·.role != .feedback) := by
  simp [otherExamples, List.countP_eq_length_filter, hline]

/-- One of them weighs as much as the line that was chosen, the others as much as other lines. -/
theorem sum_lessons (before after : Batch K) (line : Example K) :
    ((otherExamples s offset feedback before ++ decoderExample s offset feedback true line ::
        otherExamples s offset feedback after).map Example.weight).sum =
      s.positiveImportance + ((otherExamples s offset feedback before ++
        decoderExample s offset feedback true line ::
          otherExamples s offset feedback after).length - 1 : K) * s.negativeImportance := by
  have hpositive : (decoderExample s offset feedback true line).weight = s.positiveImportance := rfl
  rw [List.map_append, List.map_cons, List.sum_append, List.sum_cons, sum_otherExamples,
    sum_otherExamples, hpositive, List.length_append, List.length_cons]
  push_cast
  ring

/-- All of them are labeled examples that a learner does not pass over. -/
theorem forall_lessons (offset : UInt64) (feedback : Option (Feature K))
    (hpositive : 0 < s.positiveImportance) (hnegative : 0 < s.negativeImportance)
    (before after : Batch K) (line : Example K) :
    ∀ ec ∈ otherExamples s offset feedback before ++
        decoderExample s offset feedback true line :: otherExamples s offset feedback after,
      (∃ label, ec.label = .simple (some label)) ∧ 0 < ec.weight ∧ ec.holdout = false := by
  intro ec hec
  simp only [otherExamples, List.mem_append, List.mem_cons, List.mem_map] at hec
  rcases hec with ⟨_, -, rfl⟩ | rfl | ⟨_, -, rfl⟩
  · exact ⟨⟨_, rfl⟩, hnegative, rfl⟩
  · exact ⟨⟨_, rfl⟩, hpositive, rfl⟩
  · exact ⟨⟨_, rfl⟩, hnegative, rfl⟩

/-- The decoder books the examples of a course, each once. -/
theorem course_booked (link : LinkFunction) (primary : Line) (node : Example K × Optimizer K K)
    (hmode : node.2.mode = .coinBetting) (context : Context K K) {examples : List (Example K)}
    (hexamples : ∀ ec ∈ examples, (∃ label, ec.label = .simple (some label)) ∧ 0 < ec.weight ∧
      ec.holdout = false) :
    let left := course (decoderLearner ⟨.coinBetting, [link]⟩ primary) node context examples
    left.node.2.mode = .coinBetting ∧
      left.node.2.totalWeight = node.2.totalWeight + (examples.map Example.weight).sum ∧
      left.context.stats.weightedLabeledExamples =
        context.stats.weightedLabeledExamples + (examples.map Example.weight).sum := by
  induction examples generalizing node context with
  | nil => simp [course, hmode]
  | cons ec rest ih =>
    obtain ⟨⟨label, hlabel⟩, hweight, hheld⟩ := hexamples ec List.mem_cons_self
    have hpositive : ((0 : ℕ) : K) < ec.weight := by
      rwa [Nat.cast_zero]
    have hout := ((decoderLearner_accepts ⟨.coinBetting, [link]⟩ primary).learn
      ⟨node, context, ec⟩ label hlabel).1
    have hbooked :=
      Scorer.learn_booked link (f := ⟨node.2, context, ec⟩) hmode hlabel hpositive hheld
    have hrun : (decoderLearner ⟨.coinBetting, [link]⟩ primary).learn.runOn
        ⟨node, context, ec⟩ = _ := runOn_decoderLearner link primary ⟨node, context, ec⟩ true
    unfold course
    rw [hrun] at hout ⊢
    dsimp only at hout ⊢
    generalize (Scorer.run link Optimizer.learner true).runOn ⟨node.2, context, ec⟩ = run
      at hout hbooked ⊢
    obtain ⟨outcome, left⟩ := run
    cases hout
    obtain ⟨hmode, htotal, hweighted⟩ := ih (node.1, left.node) hbooked.mode left.context
      fun later hmem => hexamples later (List.mem_cons_of_mem _ hmem)
    have hseen := hbooked.totalWeight
    have hlearned := congrArg LossSums.weight hbooked.learned
    dsimp only at hseen hlearned
    rw [List.map_cons, List.sum_cons, ← add_assoc, ← add_assoc]
    refine ⟨hmode, htotal.trans ?_, hweighted.trans ?_⟩
    · exact congrArg (· + _) hseen
    · exact congrArg (· + _) hlearned

/-! ## The exchange -/

/-- With the cost that the decoder leaves the bandit node books the line that was chosen. -/
theorem settlement_booked (link : LinkFunction) (psi : K) (counters : GroundedCounters)
    (decoderContext context : Context K K) {node : Example K × Optimizer K K}
    (hmode : node.2.mode = .coinBetting) {before : Batch K} (after : Batch K) {line : Example K}
    (hbefore : ∀ earlier ∈ before, isCandidate earlier = false)
    (haction : Bandit.isAction line = true) {observed : LoggedCost K}
    (hobserved : line.observed? = some observed)
    (hweight : 0 < line.weight / observed.probability) (hheld : line.holdout = false)
    (hcost : ∀ cost ∈ costs s (isNegative s feedback), (cost != Scalar.largest) = true) :
    let left := settlement s (Bandit.learner (⟨.coinBetting, [link]⟩ : Line).learner) feedback psi
      counters decoderContext node context before line after
    left.outcome = .ok () ∧
      (∃ lesson : Example K, lesson.weight = line.weight / observed.probability ∧
        Frame.Booked ⟨node.2, context, lesson⟩
          ⟨left.node.2, left.context, left.batch.getD before.length Example.blank⟩) ∧
      left.decoderContext = decoderContext ∧
      ∃ extremes ≤ 1, left.counters = { counters with
        extremeBatches := counters.extremeBatches + UInt64.ofNat extremes
        batchesLearned := counters.batchesLearned + 1 } := by
  let cost := groundedCost s psi (isNegative s feedback)
  have hknown : (cost != Scalar.largest) = true := hcost cost (groundedCost_mem_costs _ _ _)
  obtain ⟨label, hlabel⟩ := line.exists_setObservedCost_eq cost
  have hchosen : Bandit.chosen? (before ++ line.setObservedCost cost :: after) = _ :=
    Bandit.chosen?_setObservedCost hbefore haction hobserved hknown
  have hpositive : ((0 : ℕ) : K) < (line.setObservedCost cost).weight / observed.probability := by
    rw [hlabel, Nat.cast_zero]
    exact hweight
  have hholdout : (line.setObservedCost cost).holdout = false := by
    rw [hlabel]
    exact hheld
  have hbooked :=
    Bandit.learn_booked link (f := ⟨node, context, _⟩) hmode hchosen hpositive hholdout
  have hout := (Bandit.learner_takes (Line.learner_accepts ⟨.coinBetting, [link]⟩)).learn
    ⟨node, context, before ++ line.setObservedCost cost :: after⟩ (by simp)
  have hlesson : (line.setObservedCost cost).weight / observed.probability =
      line.weight / observed.probability := by
    rw [hlabel]
  have hrun (f : Frame K K (Example K × Optimizer K K) (Batch K)) :
      (Bandit.learner (⟨.coinBetting, [link]⟩ : Line).learner).learn.runOn f =
        (Bandit.learn (⟨.coinBetting, [link]⟩ : Line).learner).runOn f := rfl
  unfold settlement
  dsimp only
  rw [hrun] at hout ⊢
  generalize (Bandit.learn (⟨.coinBetting, [link]⟩ : Line).learner).runOn
    ⟨node, context, before ++ line.setObservedCost _ :: after⟩ = run at hout hbooked ⊢
  obtain ⟨outcome, left⟩ := run
  cases hout
  refine ⟨rfl, ⟨_, hlesson, hbooked⟩, rfl, ?_⟩
  dsimp only
  split
  · exact ⟨1, le_rfl, rfl⟩
  · exact ⟨0, Nat.zero_le 1, rfl⟩

/-- Before the bandit node learns, the decoder has booked every line that is not feedback. -/
theorem exists_settlement (offset : UInt64) (hpositive : 0 < s.positiveImportance)
    (hnegative : 0 < s.negativeImportance) (decoderLink : LinkFunction) (primary : Line)
    (counters : GroundedCounters) (decoderContext context : Context K K)
    {node : Example K × Optimizer K K} (hmode : node.2.mode = .coinBetting) (before : Batch K)
    {line : Example K} (hline : line.role ≠ .feedback) (after : Batch K) :
    let lines := (before ++ line :: after).countP (·.role != .feedback)
    let weight := s.positiveImportance + (lines - 1) * s.negativeImportance
    ∃ (psi : K) (taughtContext : Context K K) (taught : Example K × Optimizer K K),
      protocol s offset (Bandit.learner primary.learner)
        (decoderLearner ⟨.coinBetting, [decoderLink]⟩ primary) counters decoderContext node context
        before line after =
      settlement s (Bandit.learner primary.learner) (feedback? (before ++ line :: after)) psi
        { counters with decoderExamples := counters.decoderExamples + UInt64.ofNat lines }
        taughtContext taught context before line after ∧
      taught.2.mode = .coinBetting ∧ taught.2.totalWeight = node.2.totalWeight + weight ∧
      taughtContext.stats.weightedLabeledExamples =
        decoderContext.stats.weightedLabeledExamples + weight := by
  intro lines weight
  unfold protocol
  dsimp only
  generalize feedback? (before ++ line :: after) = feedback
  -- The chosen line is scored first, which books nothing.
  obtain ⟨scored, hscore, hnode, hlearned⟩ := exists_predict_decoderLearner decoderLink primary
    node decoderContext (decoderExample s offset feedback true line) rfl
  have hweighted : scored.context.stats.weightedLabeledExamples =
      decoderContext.stats.weightedLabeledExamples := congrArg LossSums.weight hlearned
  rw [hscore]
  dsimp only
  rw [hnode, ← hweighted]
  -- Then the decoder learns one example after another.
  have hexamples := forall_lessons offset feedback hpositive hnegative before after line
  have htaught := course_booked decoderLink primary node hmode scored.context hexamples
  obtain ⟨houtcome, hcount⟩ := course_of_accepts
    (decoderLearner_accepts ⟨.coinBetting, [decoderLink]⟩ primary) node scored.context _
    fun ec hec => (hexamples ec hec).1
  rw [sum_lessons, length_lessons hline] at htaught
  rw [length_lessons hline] at hcount
  rw [houtcome, hcount]
  exact ⟨_, _, _, rfl, htaught⟩

/-- Frames before and after a grounded node has learned a batch: everything is booked once, and in
the context that it belongs to. -/
structure Booked (s : GroundedSettings K) (r : Receipt K)
    (f left : Frame K K (GroundedState K K × Example K × Optimizer K K) (Batch K)) : Prop where
  mode : left.node.2.2.mode = .coinBetting
  totalWeight : left.node.2.2.totalWeight =
    f.node.2.2.totalWeight + r.decoderWeight s + r.weight
  learned : left.context.stats.learned = f.context.stats.learned.add r.loss r.weight
  exampleNumber : left.context.stats.exampleNumber = f.context.stats.exampleNumber
  decoderWeight : left.node.1.decoderContext.stats.weightedLabeledExamples =
    f.node.1.decoderContext.stats.weightedLabeledExamples + r.decoderWeight s
  counters : ∃ extremes ≤ 1, left.node.1.counters =
    { decoderExamples := f.node.1.counters.decoderExamples + UInt64.ofNat r.lines
      extremeBatches := f.node.1.counters.extremeBatches + UInt64.ofNat extremes
      batchesLearned := f.node.1.counters.batchesLearned + 1 }

/-- A grounded node with one scorer in its decoder and one below its bandit node books a batch in
which only actions have observed costs. -/
theorem learn_booked (offset : UInt64) (hpositive : 0 < s.positiveImportance)
    (hnegative : 0 < s.negativeImportance) (decoderLink link : LinkFunction)
    {f : Frame K K (GroundedState K K × Example K × Optimizer K K) (Batch K)}
    (hmode : f.node.2.2.mode = .coinBetting)
    (haction : ∀ line ∈ f.input, line.hasObservedCost = true → Bandit.isAction line = true)
    {i : ℕ} {line : Example K} {observed : LoggedCost K}
    (hchosen : Bandit.chosen? f.input = some (i, line, observed))
    (hweight : 0 < line.weight / observed.probability) (hheld : line.holdout = false)
    (hcost : ∀ cost ∈ costs s (isNegative s (feedback? f.input)), (cost != Scalar.largest) = true) :
    let primary : Line := ⟨.coinBetting, [link]⟩
    let run := (learn s offset (Bandit.learner primary.learner)
      (decoderLearner ⟨.coinBetting, [decoderLink]⟩ primary)).runOn f
    run.1 = .ok () ∧ Booked s ⟨line, observed, (run.2.input.getD i Example.blank).loss,
      f.input.countP (·.role != .feedback)⟩ f run.2 := by
  intro primary run
  obtain ⟨⟨state, node⟩, context, batch⟩ := f
  obtain ⟨before, after, rfl, rfl, hbefore, hcandidate, hobserved⟩ :=
    exists_append_of_chosen haction hchosen
  obtain ⟨hrole, hhas⟩ := Bool.and_eq_true_iff.mp hcandidate
  have hline := haction line (by simp) hhas
  have hrun : aftermath run = _ := aftermath_learn_of_chosen s offset
    (Bandit.learner primary.learner) (decoderLearner ⟨.coinBetting, [decoderLink]⟩ primary) state
    node context (bne_iff_ne.mp hrole) (chosen?_append hbefore hcandidate)
  obtain ⟨psi, taughtContext, taught, hprotocol, htaught, htotal, hweighted⟩ :=
    exists_settlement offset hpositive hnegative decoderLink primary state.counters
      state.decoderContext context hmode before (bne_iff_ne.mp hrole) after
  obtain ⟨hout, ⟨lesson, hlesson, hbooked⟩, hdecoder, extremes, hextremes, hcounters⟩ :=
    settlement_booked link psi _ taughtContext context htaught after hbefore hline hobserved
      hweight hheld hcost
  rw [← hprotocol, ← hrun] at hout hbooked hdecoder hcounters
  refine ⟨hout, ?_, ?_, ?_, ?_, ?_, ?_⟩
  · exact hbooked.mode
  · have hseen := hbooked.totalWeight
    dsimp only at hseen
    rw [htotal, hlesson] at hseen
    exact hseen
  · have hlearned := hbooked.learned
    dsimp only at hlearned
    rw [hlesson] at hlearned
    exact hlearned
  · exact hbooked.exampleNumber
  · exact (congrArg (fun c : Context K K => c.stats.weightedLabeledExamples) hdecoder).trans
      hweighted
  · exact ⟨extremes, hextremes, hcounters⟩

end Grounded

end OnlineLearning
