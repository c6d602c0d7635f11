import OnlineLearning.Proofs.Starts

/-!
# Marks without holdout

Where holdout is off, the marks of examples play no part. A workspace on a line takes them away
before it learns, and the examples of a decoder have none. A bandit node, though, copies the mark of
the chosen line into its regression example, which is then not learned: there, and there only, the
mark matters.

* `Bond.unheld` relates an optimizer to itself, in contexts without holdout;
* `Workspace.holdout_marks_unnoticed`: marks that are the same on the lines that a bandit node may
  learn from play no part in answers and states;
* `Workspace.not_holdout_marks_unnoticed`: the mark of a line that is learned does.
-/

namespace OnlineLearning

variable {R W : Type} [Scalar R] [Number W] [Widening R W]

/-! ## One optimizer without holdout -/

omit [Number W] [Widening R W] in
theorem Context.holdoutOff_coverLabel (c : Context R W) (label : R) :
    (c.coverLabel label).holdoutOff = c.holdoutOff := by
  unfold Context.coverLabel
  split <;> rfl

/-- The relation of runs in one context, in which holdout is off. -/
def ContextRel.unheld : ContextRel R W :=
  within (fun c => c.holdoutOff = true) (fun c label h => (c.holdoutOff_coverLabel label).trans h)
    fun _ _ _ _ _ h => h

/-- The relation of one optimizer to itself, in one context without holdout. -/
def Bond.unheld (mask : UInt64) : Bond R W where
  mask
  node := Same fun o => o.weights.mask = mask
  primary := .unheld
  decoder := .eq
  primary_alike := Optimizer.learner_keepsMask mask
  decoder_alike := Optimizer.learner_keepsMask mask
  stats h := h.1 ▸ rfl
  holdoutOff h := h.1 ▸ rfl
  count _ h := ⟨h.1 ▸ rfl, h.2⟩
  dump h := ⟨h.1 ▸ rfl, h.2⟩

omit [Number W] [Widening R W] in
theorem Optimizer.SameNumbers.of_eq {o o' : Optimizer R W} (h : o' = o) : SameNumbers o o' := by
  subst h
  exact ⟨fun _ => rfl, rfl, rfl, rfl, rfl⟩

/-- Without holdout marks are seen on the lines only that a bandit node may learn from. -/
theorem Bond.blind_unheld (mask : UInt64) {stack : Stack R} {hasher : FeatureHasher} :
    (WorkspaceRel.logged :
      WorkspaceRel (Chain.Related (Bond.unheld mask : Bond R W) stack hasher)).Blind .any
        .sameTrained :=
  ⟨fun _ _ => trivial, fun _ _ _ _ => trivial, .inr fun h => h.chain.context.2,
    Marks.teachable_sameTrained⟩

namespace Workspace

/-- Two runs of a workspace without holdout, on requests that differ in nothing but marks: in batches
that are learned, the lines that a bandit node may learn from have the same mark. Answers differ in
the marks of what became of the inputs and in nothing else, and the runs lead to the same state. -/
theorem holdout_marks_unnoticed {c : Config R} (hoff : c.run.holdoutOff = true)
    {w₀ : Workspace R W} (hnew : Workspace.new c = .ok w₀) {requests requests' : List (Request R)}
    (hmarks : List.Forall₂ (Request.Remarked .any .sameTrained) requests requests') :
    List.Forall₂ (Answer.Remarked .any) (w₀.answers requests).1 (w₀.answers requests').1 ∧
      SameState (w₀.answers requests).2 (w₀.answers requests').2 := by
  have hfresh := fresh_of_new hnew
  obtain ⟨p, decoder, stack, hasher, -, hstack, hrelated⟩ := hfresh.related
  have hcontext : p.context.holdoutOff = true :=
    (Config.holdoutOff_of_initialContext p.context_eq).trans hoff
  have hstart : Logged (.unheld p.optimizer.weights.mask) stack hasher w₀ w₀ :=
    hfresh.logged (hrelated (.unheld _) ⟨rfl, rfl⟩ ⟨rfl, hcontext⟩ rfl)
  obtain ⟨hanswers, hend⟩ := WorkspaceRel.answers_remarked hstack (Bond.blind_unheld _) hstart hmarks
  exact ⟨hanswers, hend.sameState (fun h => .of_eq h.eq) (fun h => h.1) fun h => h.symm⟩

end Workspace

/-! ## A mark that is noticed -/

namespace Workspace

/-- A batch of which one line has a cost; the mark of the other one changes. -/
theorem holdout_marks_unnoticed_beside_cost :
    let w := Config.banditWorkspace
    let cost : Label Float32 := .bandit [⟨1, 1, 1⟩]
    let requests (mark : Bool) :=
      [Request.learnBatch [.single cost true, .single (.simple none) mark]]
    Config.defaultBandit.run.holdoutOff = true ∧ Workspace.new Config.defaultBandit = .ok w ∧
      List.Forall₂ (Answer.Remarked .any) (w.answers (requests false)).1
        (w.answers (requests true)).1 ∧
      SameState (w.answers (requests false)).2 (w.answers (requests true)).2 := by
  intro w cost requests
  have hmarks : List.Forall₂ (Request.Remarked .any .sameTrained) (requests false)
      (requests true) := by
    refine .cons (.learnBatch (.cons ?_ (.cons ?_ .nil))) .nil
    · exact .single fun _ => rfl
    · exact .single fun h => absurd h (by decide +kernel)
  exact ⟨rfl, Config.new_defaultBandit,
    holdout_marks_unnoticed (c := Config.defaultBandit) rfl Config.new_defaultBandit hmarks⟩

/-- The mark of a line with a cost decides whether a batch of this line is learned. -/
theorem not_holdout_marks_unnoticed :
    ¬ ∀ (c : Config Float32) (w₀ : Workspace Float32 Float), c.run.holdoutOff = true →
      Workspace.new c = .ok w₀ → ∀ requests requests' : List (Request Float32),
        List.Forall₂ (Request.Remarked .any .any) requests requests' →
          SameState (w₀.answers requests).2 (w₀.answers requests').2 := by
  intro h
  have hmarks (mark mark' : Bool) :
      List.Forall₂ (Request.Remarked .any .any)
        [Request.learnBatch [.single (.bandit [⟨1, 1, 1⟩]) mark]]
        [Request.learnBatch [.single (.bandit [⟨1, 1, 1⟩]) mark']] :=
    .cons (.learnBatch (.cons (.single trivial) .nil)) .nil
  have hsame := h Config.defaultBandit Config.banditWorkspace rfl Config.new_defaultBandit _ _
    (hmarks false true)
  have htotal := congrArg Float.toBits hsame.optimizer.totalWeight
  revert htotal
  decide +kernel

end Workspace

end OnlineLearning
