import OnlineLearning.Proofs.Groups
import OnlineLearning.Proofs.GroundedProtocol
import OnlineLearning.Stack.Learner

/-!
# Calls that do not fail

A line refuses labels of the wrong form and nothing else. Bandit nodes and grounded nodes make their
examples with labels of the right form, so that only an empty batch can make them fail.

* `LineLearner.Accepts`: no call with a label of the right form fails; `Line.learner_accepts`;
* `Grounded.course_of_accepts`: the decoder learns every example that it is given.
-/

namespace OnlineLearning

variable {R W σ τ : Type} [Scalar R] [Number W] [Widening R W]

/-- A learner that answers regression examples and learns labeled ones. It leaves labels alone. -/
structure LineLearner.Accepts (l : LineLearner R W σ) : Prop where
  predict : ∀ f, ∀ target, f.input.label = .simple target →
    (l.predict.runOn f).1 = .ok () ∧ (l.predict.runOn f).2.input.label = .simple target
  learn : ∀ f, ∀ label, f.input.label = .simple (some label) →
    (l.learn.runOn f).1 = .ok () ∧ (l.learn.runOn f).2.input.label = .simple (some label)

theorem Optimizer.learner_accepts : (Optimizer.learner : LineLearner R W _).Accepts := by
  refine ⟨fun f target h => ⟨rfl, h⟩, fun f label h => ?_⟩
  have hrun := Optimizer.runOn_learn f
  have htarget : f.input.target? = some label := by
    rw [Example.target?, h]
  rw [htarget] at hrun
  change (Optimizer.learn.runOn f).1 = _ ∧ (Optimizer.learn.runOn f).2.input.label = _
  rw [hrun]
  exact ⟨rfl, h⟩

namespace Scorer

theorem account_accepts (learning : Bool) (label : R) (f : Frame R W σ (Example R)) :
    ((account learning label).runOn f).1 = .ok () ∧
      ((account learning label).runOn f).2.input.label = f.input.label := by
  rw [runOn_account]
  refine ⟨rfl, ?_⟩
  dsimp only
  split <;> rfl

theorem run_accepts {base : LineLearner R W σ} (h : base.Accepts) (link : LinkFunction)
    (learning : Bool) (f : Frame R W σ (Example R)) (target : Option R)
    (hlabel : f.input.label = .simple target) :
    ((run link base learning).runOn f).1 = .ok () ∧
      ((run link base learning).runOn f).2.input.label = .simple target := by
  have hbelow : ((runBelow link base learning).runOn f).1 = .ok () ∧
      ((runBelow link base learning).runOn f).2.input.label = .simple target := by
    rw [runOn_runBelow, hlabel]
    cases target with
    | none => exact h.predict f none hlabel
    | some label =>
      have hcall : ∀ covered : Frame R W σ (Example R), covered.input.label = .simple (some label) →
          ((if learning && 0 < f.input.weight && !f.input.holdout then base.learn
            else base.predict).runOn covered).1 = .ok () ∧
          ((if learning && 0 < f.input.weight && !f.input.holdout then base.learn
            else base.predict).runOn covered).2.input.label = .simple (some label) := by
        intro covered hcovered
        split
        · exact h.learn covered label hcovered
        · exact h.predict covered (some label) hcovered
      obtain ⟨hout, hleft⟩ := hcall { f with context := f.context.coverLabel label } hlabel
      dsimp only
      generalize NodeM.runOn _ _ = below at hout hleft ⊢
      obtain ⟨outcome, left⟩ := below
      cases hout
      rw [← hleft]
      exact account_accepts learning label left
  rw [runOn_run]
  generalize (runBelow link base learning).runOn f = below at hbelow ⊢
  obtain ⟨outcome, left⟩ := below
  obtain ⟨hout, hleft⟩ := hbelow
  cases hout
  exact ⟨rfl, hleft⟩

theorem learner_accepts {base : LineLearner R W σ} (h : base.Accepts) (link : LinkFunction) :
    (learner link base).Accepts :=
  ⟨run_accepts h link false, fun f label => run_accepts h link true f (some label)⟩

end Scorer

theorem Line.learner_accepts (l : Line) : (l.learner : LineLearner R W _).Accepts := by
  unfold Line.learner
  induction l.links with
  | nil => exact Optimizer.learner_accepts
  | cons link rest ih => exact Scorer.learner_accepts ih link

omit [Scalar R] [Number W] [Widening R W] in
theorem onNode_accepts {l : LineLearner R W σ} (h : l.Accepts) (get : τ → σ) (set : σ → τ → τ) :
    (l.onNode get set).Accepts :=
  ⟨fun f target hlabel => h.predict ⟨get f.node, f.context, f.input⟩ target hlabel,
    fun f label hlabel => h.learn ⟨get f.node, f.context, f.input⟩ label hlabel⟩

namespace Grounded

omit [Scalar R] [Number W] [Widening R W] in
/-- Nothing ends a course of labeled examples early. -/
theorem course_of_accepts {decoder : LineLearner R W σ} (h : decoder.Accepts) (node : σ)
    (context : Context R W) (examples : List (Example R))
    (hlabels : ∀ ec ∈ examples, ∃ label, ec.label = .simple (some label)) :
    (course decoder node context examples).outcome = .ok () ∧
      (course decoder node context examples).learned = examples.length := by
  induction examples generalizing node context with
  | nil => exact ⟨rfl, rfl⟩
  | cons ec rest ih =>
    obtain ⟨label, hlabel⟩ := hlabels ec List.mem_cons_self
    have hout := (h.learn ⟨node, context, ec⟩ label hlabel).1
    unfold course
    generalize decoder.learn.runOn ⟨node, context, ec⟩ = run at hout ⊢
    obtain ⟨outcome, left⟩ := run
    cases hout
    obtain ⟨hrest, hlearned⟩ := ih left.node left.context fun later hmem =>
      hlabels later (List.mem_cons_of_mem _ hmem)
    exact ⟨hrest, by simp [hlearned]⟩

end Grounded

end OnlineLearning
