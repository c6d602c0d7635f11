import OnlineLearning.Proofs.AlikeStack

/-!
# Predictions

To predict an unlabeled example is to look at the optimizer and the context, which stay as they
were. Bandit nodes make unlabeled examples of their lines, so that to predict a batch is to look
also where its lines have labels; of the nodes only the example for reuse is another one then.

* `LineLearner.Observes`: predictions of unlabeled examples only look; `Line.learner_observes`;
* `Tower.Untouched` relates states that differ in the example for reuse;
* `Tower.predict_untouched`: predictions of batches leave such states.
-/

namespace OnlineLearning

variable {R W σ : Type} [Scalar R] [Number W] [Widening R W]

/-! ## Lines -/

omit [Scalar R] [Number W] [Widening R W] in
/-- Predictions of unlabeled examples leave node and context as they were. -/
def LineLearner.Observes (l : LineLearner R W σ) : Prop :=
  ∀ f, f.input.label = .simple none →
    (l.predict.runOn f).2.node = f.node ∧ (l.predict.runOn f).2.context = f.context

theorem Optimizer.learner_observes : (learner : LineLearner R W _).Observes :=
  fun _ _ => ⟨rfl, rfl⟩

theorem Scorer.learner_observes {base : LineLearner R W σ} (h : base.Observes)
    (link : LinkFunction) : (learner link base).Observes := by
  intro f hlabel
  have hbase := h f hlabel
  change ((run link base false).runOn f).2.node = _ ∧ ((run link base false).runOn f).2.context = _
  rw [runOn_run, runOn_runBelow, hlabel]
  dsimp only
  generalize base.predict.runOn f = below at hbase ⊢
  obtain ⟨outcome | outcome, left⟩ := below
  · exact hbase
  · exact hbase

theorem Line.learner_observes (l : Line) : (l.learner : LineLearner R W _).Observes := by
  unfold Line.learner
  induction l.links with
  | nil => exact Optimizer.learner_observes
  | cons link rest ih => exact Scorer.learner_observes ih link

/-! ## Bandit nodes -/

namespace Bandit

variable {base : LineLearner R W σ}

omit [Number W] [Widening R W] in
theorem scoreLines_observes (h : base.Observes) (shared : Option (Example R))
    (action position : Nat) (lines : Batch R) (f : Frame R W (Example R × σ) (Batch R)) :
    let left := ((scoreLines base shared action position lines).runOn f).2
    left.node.2 = f.node.2 ∧ left.context = f.context := by
  induction lines generalizing action position f with
  | nil => exact ⟨rfl, rfl⟩
  | cons ec rest ih =>
    rw [runOn_scoreLines_cons]
    split
    · have hscored := h ⟨f.node.2, f.context, merged shared ec⟩ rfl
      generalize base.predict.runOn _ = run at hscored ⊢
      obtain ⟨outcome | outcome, left⟩ := run
      · exact hscored
      · obtain ⟨hnode, hcontext⟩ := ih (action + 1) (position + 1)
          ⟨(left.input, left.node), left.context,
            f.input.modify position ({ · with partialPrediction := left.input.scalar })⟩
        exact ⟨hnode.trans hscored.1, hcontext.trans hscored.2⟩
    · exact ih action (position + 1) f

omit [Number W] [Widening R W] in
theorem predict_observes (h : base.Observes) (f : Frame R W (Example R × σ) (Batch R)) :
    let left := ((predict base).runOn f).2
    left.node.2 = f.node.2 ∧ left.context = f.context := by
  rw [runOn_predict]
  split
  · exact ⟨rfl, rfl⟩
  · have hscore := scoreLines_observes h (shared? f.input) 0 0 f.input f
    generalize (scoreLines base (shared? f.input) 0 0 f.input).runOn f = run at hscore ⊢
    obtain ⟨outcome | outcome, left⟩ := run
    · exact hscore
    · exact hscore

end Bandit

/-! ## Towers -/

namespace Tower

omit [Scalar R] [Number W] [Widening R W] in
/-- States that differ in the example for reuse of the bandit node and in nothing else. -/
def Untouched : (t : Tower R) → t.State W → t.State W → Prop
  | bandit _, s, s' => s'.2 = s.2
  | grounded _ _ _ primary, s, s' => s'.1 = s.1 ∧ primary.Untouched s.2 s'.2

variable {t : Tower R} {s s' s'' : t.State W}

omit [Scalar R] [Number W] [Widening R W] in
theorem Untouched.optimizer (h : t.Untouched s s') : t.optimizer s' = t.optimizer s := by
  induction t with
  | bandit _ => exact h
  | grounded _ _ _ primary ih => exact ih h.2

omit [Scalar R] [Number W] [Widening R W] in
theorem Untouched.groundedStates (h : t.Untouched s s') :
    t.groundedStates s' = t.groundedStates s := by
  induction t with
  | bandit _ => rfl
  | grounded _ _ _ primary ih => exact congrArg₂ List.cons h.1 (ih h.2)

/-- What states are related to does not depend on examples for reuse. -/
theorem Related.untouched {B : Bond R W} (h : t.Related B s s') (h' : t.Untouched s' s'') :
    t.Related B s s'' := by
  induction t with
  | bandit _ =>
    change B.node s.2 s''.2
    rw [h']
    exact h
  | grounded _ _ _ primary ih =>
    obtain ⟨hstate, hrest⟩ := h'
    exact ⟨hstate ▸ h.decoderContext, hstate ▸ h.counters, ih h.node hrest⟩

/-- To predict a batch is to look. -/
theorem predict_untouched (t : Tower R) (f : Frame R W (t.State W) (Batch R)) :
    let left := (t.learner.predict.runOn f).2
    t.Untouched f.node left.node ∧ left.context = f.context := by
  induction t with
  | bandit l => exact Bandit.predict_observes l.learner_observes f
  | grounded _ _ _ primary ih =>
    obtain ⟨hnode, hcontext⟩ := ih ⟨f.node.2, f.context, f.input⟩
    exact ⟨⟨rfl, hnode⟩, hcontext⟩

end Tower

end OnlineLearning
