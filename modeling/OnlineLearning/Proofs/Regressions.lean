import OnlineLearning.Proofs.ChosenLine
import OnlineLearning.Proofs.DisjointLessons
import OnlineLearning.Proofs.Divisors
import OnlineLearning.Proofs.Rankings

/-!
# One regression per batch

A bandit node predicts a batch before it learns from it, and makes every example of that in the one
that it keeps for reuse. What it learns is a single regression all the same.

* `Bandit.Chooses` is the first action with an observed cost; `Bandit.runOn_learn_of_chooses` says
  that its regression example is learned, `Bandit.runOn_learn_of_none` that otherwise nothing is;
* `Scorer.learn_unreached`: a scorer leaves the groups alone that the example does not reach;
* `Bandit.learn_single_regression`: both, with all that the outcome does not depend on.
-/

namespace OnlineLearning

variable {R W σ : Type} [Scalar R] [Number W] [Widening R W]

/-! ## Scorers -/

omit [Number W] [Widening R W] in
@[simp] theorem Context.coverLabel_interactions (c : Context R W) (label : R) :
    (c.coverLabel label).interactions = c.interactions := by
  unfold coverLabel
  split <;> rfl

theorem Optimizer.learn_unreached (f : Frame R W (Optimizer R W) (Example R)) {i : UInt64}
    (hi : ¬ f.input.Reaches f.node.weights.mask f.context.interactions (i &&& f.node.weights.mask)) :
    let left := ((learn : NodeM R W _ _ Unit).runOn f).2.node
    left.channels i = f.node.channels i ∧ left.held? i = f.node.held? i := by
  intro left
  obtain ⟨t, _, _, _, hleft, ht⟩ := taught_wroteTo f.context f.node f.input
  have hwrites : ¬ Writes f.context f.node f.input (i &&& f.node.weights.mask) := fun h => hi h.2
  change left = _ at hleft
  rw [hleft]
  exact ⟨congrArg Vector.toList (ht.group_eq hwrites),
    congrArg (Option.map Vector.toList) (ht.group?_eq hwrites)⟩

/-- What a scorer has learned of an example is in the groups that the example reaches. -/
theorem Scorer.learn_unreached (link : LinkFunction) (f : Frame R W (Optimizer R W) (Example R))
    {i : UInt64}
    (hi : ¬ f.input.Reaches f.node.weights.mask f.context.interactions (i &&& f.node.weights.mask)) :
    let left := ((learner link Optimizer.learner).learn.runOn f).2.node
    left.channels i = f.node.channels i ∧ left.held? i = f.node.held? i := by
  intro left
  have hleft : left = _ := Scorer.node_run link Optimizer.learner true f
  rw [hleft]
  cases f.input.label with
  | bandit costs => exact ⟨rfl, rfl⟩
  | simple target =>
    cases target with
    | none => exact ⟨rfl, rfl⟩
    | some label =>
      dsimp only
      split
      · refine Optimizer.learn_unreached { f with context := f.context.coverLabel label } ?_
        rwa [Context.coverLabel_interactions]
      · exact ⟨rfl, rfl⟩

/-! ## Bandit nodes -/

namespace Bandit

/-- The first action of a batch that has an observed cost, and this cost. -/
def Chooses (batch : Batch R) (action : Example R) (observed : LoggedCost R) : Prop :=
  ∃ before after, batch = before ++ action :: after ∧
    (∀ ec ∈ before, isAction ec = true → ec.observed? = none) ∧
    isAction action = true ∧ action.observed? = some observed

theorem lesson?_of_chooses {batch : Batch R} {action : Example R} {observed : LoggedCost R}
    (h : Chooses batch action observed) :
    lesson? batch = some (regression (shared? batch) action observed) := by
  obtain ⟨before, after, rfl, hbefore, haction, hobserved⟩ := h
  rw [lesson?, chosen?_append hbefore haction hobserved]
  rfl

section

variable {base : LineLearner R W σ} (hobserves : base.Observes) (haccepts : base.Accepts)
  (scratch : Example R) (node : σ) (context : Context R W) {batch : Batch R}
include hobserves haccepts

omit [Number W] [Widening R W] in
/-- Without a cost to learn from nothing is learned. -/
theorem runOn_learn_of_none
    (h : ∀ line ∈ batch, isAction line = true → line.observed? = none) :
    let left := ((learn base).runOn ⟨(scratch, node), context, batch⟩).2
    (left.node.2, left.context) = (node, context) := by
  obtain ⟨htaught, -⟩ := runOn_learn_lesson hobserves haccepts ⟨(scratch, node), context, batch⟩
  have hlesson : lesson? batch = none := by
    rw [lesson?, chosen?_eq_none h]
    rfl
  rwa [hlesson] at htaught

omit [Number W] [Widening R W] in
/-- The regression example of the chosen action is learned. -/
theorem runOn_learn_of_chooses {action : Example R} {observed : LoggedCost R}
    (h : Chooses batch action observed) :
    let left := ((learn base).runOn ⟨(scratch, node), context, batch⟩).2
    let once := (base.learn.runOn ⟨node, context, regression (shared? batch) action observed⟩).2
    (left.node.2, left.context) = (once.node, once.context) := by
  obtain ⟨htaught, -⟩ := runOn_learn_lesson hobserves haccepts ⟨(scratch, node), context, batch⟩
  rwa [lesson?_of_chooses h] at htaught

end

omit [Number W] [Widening R W] in
theorem regression_congr {shared shared' : Option (Example R)}
    (h : shared'.map (·.namespaces) = shared.map (·.namespaces)) (action : Example R)
    (observed : LoggedCost R) :
    regression shared' action observed = regression shared action observed := by
  rw [regression, regression, merged_congr h]

/-- A bandit node over a scorer learns every batch that is not empty. From one in which no action
has an observed cost it learns nothing; else what is left, of optimizer and context, is what one
lesson of the scorer leaves, in which the first action with such a cost has that as its target. The
groups that this example does not reach are left alone, and neither the other lines matter, except
for the features of the shared one, nor what is left of former examples. -/
theorem learn_single_regression (link : LinkFunction) (scratch : Example R) (o : Optimizer R W)
    (context : Context R W) {batch : Batch R} (hne : batch ≠ []) :
    let scorer := Scorer.learner link Optimizer.learner
    let run := (learn scorer).runOn ⟨(scratch, o), context, batch⟩
    run.1 = .ok () ∧
      ((∀ line ∈ batch, isAction line = true → line.observed? = none) →
        (run.2.node.2, run.2.context) = (o, context)) ∧
      ∀ action observed, Chooses batch action observed →
        let ec := regression (shared? batch) action observed
        let once := scorer.learn.runOn ⟨o, context, ec⟩
        (run.2.node.2, run.2.context) = (once.2.node, once.2.context) ∧
          (∀ i, ¬ ec.Reaches o.weights.mask context.interactions (i &&& o.weights.mask) →
            run.2.node.2.channels i = o.channels i ∧ run.2.node.2.held? i = o.held? i) ∧
          ∀ scratch' batch', Chooses batch' action observed →
            (shared? batch').map (·.namespaces) = (shared? batch).map (·.namespaces) →
            let run' := (learn scorer).runOn ⟨(scratch', o), context, batch'⟩
            (run'.2.node.2, run'.2.context) = (run.2.node.2, run.2.context) := by
  intro scorer run
  have hobserves : scorer.Observes := Scorer.learner_observes Optimizer.learner_observes link
  have haccepts : scorer.Accepts := Scorer.learner_accepts Optimizer.learner_accepts link
  refine ⟨(learner_takes haccepts).learn _ hne,
    runOn_learn_of_none hobserves haccepts scratch o context, ?_⟩
  intro action observed hchooses ec once
  have hleft := runOn_learn_of_chooses hobserves haccepts scratch o context hchooses
  refine ⟨hleft, ?_, ?_⟩
  · intro i hi
    have hnode : run.2.node.2 = once.2.node := congrArg Prod.fst hleft
    rw [hnode]
    exact Scorer.learn_unreached link ⟨o, context, ec⟩ hi
  · intro scratch' batch' hchooses' hshared run'
    have hleft' := runOn_learn_of_chooses hobserves haccepts scratch' o context hchooses'
    rw [regression_congr hshared] at hleft'
    exact hleft'.trans hleft.symm

/-- Of an action without a cost, one with a cost of one and a shared line, the second is learned
with the features of the third. -/
theorem learn_single_regression_of_click :
    let scorer : LineLearner Float32 Float _ := Scorer.learner .identity Optimizer.learner
    let o : Optimizer Float32 Float := .new .proximal ⟨1, 1, 0, 0⟩ 4 .sparse 3
    let context : Context Float32 Float := .initial .squared
    let other := Example.single (.bandit []) false
    let click := Example.single (.bandit [⟨1, 1, 1⟩]) false
    let shared := { Example.single (.simple none) false with role := .shared }
    let batch := [other, click, shared]
    let run := (learn scorer).runOn ⟨(.blank, o), context, batch⟩
    batch ≠ [] ∧ run.1 = .ok () ∧ run.2.node.2 =
      (scorer.learn.runOn ⟨o, context, regression (some shared) click ⟨1, 1, 1⟩⟩).2.node := by
  intro scorer o context other click shared batch run
  have hne : batch ≠ [] := List.cons_ne_nil _ _
  have hcost : ([⟨1, 1, 1⟩] : List (LoggedCost Float32)).find? (·.isObserved) = some ⟨1, 1, 1⟩ :=
    List.find?_cons_of_pos (by decide +kernel)
  have hchooses : Chooses batch click ⟨1, 1, 1⟩ := by
    refine ⟨[other], [shared], rfl, fun ec hec _ => ?_, rfl, hcost⟩
    rw [List.mem_singleton.mp hec]
    rfl
  obtain ⟨hout, -, hlearned⟩ := learn_single_regression .identity .blank o context hne
  exact ⟨hne, hout, congrArg Prod.fst (hlearned click _ hchooses).1⟩

end Bandit

end OnlineLearning
