import OnlineLearning.Proofs.Starts
import OnlineLearning.Proofs.ZeroGroups

/-!
# Histories

What is so of a workspace whatever calls were made on it and whatever passes were closed.

* `Optimizer.Grown`: the table is tidy, and besides table, totals and stalls nothing has changed;
* `Context.Follows` and `Context.Measures`: what stays of the context of a chain and of a decoder;
* `Workspace.after_history`: every history keeps this.
-/

namespace OnlineLearning

/-! ## Optimizers -/

namespace Optimizer

/-- What calls and ends of passes make of an optimizer. -/
structure Grown (start o : Optimizer Float32 Float) : Prop where
  form : ∃ (t : WeightTable Float32 start.mode.width) (stalls : UInt32)
    (totalWeight normalizedSumNorm : Float) (averageSquaredNorm : Float32),
    o = { start with weights := t, stalls, totalWeight, normalizedSumNorm, averageSquaredNorm } ∧
      t.mask = start.weights.mask
  tidy : o.Tidy

variable {start o : Optimizer Float32 Float}

theorem Grown.refl (h : start.Tidy) : Grown start start := ⟨⟨_, _, _, _, _, rfl, rfl⟩, h⟩

theorem Grown.mask (h : Grown start o) : o.weights.mask = start.weights.mask := by
  obtain ⟨⟨t, _, _, _, _, rfl, ht⟩, -⟩ := h
  exact ht

/-- Optimizers with one start differ in table, totals and stalls only. -/
theorem Grown.form_of {o' : Optimizer Float32 Float} (h : Grown start o) (h' : Grown start o') :
    ∃ (t : WeightTable Float32 o.mode.width) (stalls : UInt32)
      (totalWeight normalizedSumNorm : Float) (averageSquaredNorm : Float32),
      o' = { o with weights := t, stalls, totalWeight, normalizedSumNorm, averageSquaredNorm } ∧
        t.mask = o.weights.mask := by
  obtain ⟨⟨_, _, _, _, _, rfl, ht⟩, -⟩ := h
  obtain ⟨⟨t', stalls, totalWeight, normalizedSumNorm, average, rfl, ht'⟩, -⟩ := h'
  exact ⟨t', stalls, totalWeight, normalizedSumNorm, average, rfl, ht'.trans ht.symm⟩

theorem Grown.touched {o' : Optimizer Float32 Float} (h : Grown start o)
    (h' : Touched (fun _ => True) o o') (htidy : o'.Tidy) : Grown start o' := by
  obtain ⟨⟨t, _, _, _, _, rfl, ht⟩, -⟩ := h
  obtain ⟨t', _, _, _, rfl, ht'⟩ := h'
  exact ⟨⟨t', _, _, _, _, rfl, ht'.mask.trans ht⟩, htidy⟩

theorem Grown.endPass (h : Grown start o) (context : NarrowContext) :
    Grown start (o.endPass context).1 := by
  unfold Optimizer.endPass
  split
  · exact h
  · obtain ⟨⟨t, _, _, _, _, rfl, ht⟩, htidy⟩ := h
    exact ⟨⟨t, _, _, _, _, rfl, ht⟩, htidy.table, htidy.l1, htidy.average, htidy.norm⟩

/-- Calls let an optimizer grow, provided that it learns examples of positive weight only. -/
theorem learner_grows {C : ContextRel Float32 Float} (hC : ∀ c c', C.rel c c' → c' = c)
    (start : Optimizer Float32 Float) :
    Optimizer.learner.Alike (Same (Grown start)) C (Region.whole start.weights.mask) (0 < ·)
      Optimizer.learner := by
  refine learner_keeps hC (fun _ h => h.mask) (fun o weight visits h hweight hvisits => ?_)
    fun o update visits h hvisits => ?_
  · exact h.touched (learningPrediction_touches o weight hvisits)
      (h.tidy.learningPrediction hweight visits)
  · exact h.touched (step_touches o update hvisits) (h.tidy.step update visits)

end Optimizer

/-! ## Contexts -/

/-- Besides emptying the window, the judgement of a pass changes nothing but what is best. -/
theorem Stats.closed_closeHoldoutWindow {R W : Type} [Scalar R] [Number W] [Widening R W]
    (s : Stats R W) (pass : UInt64) (stalls : UInt32) :
    let closed := (s.closeHoldoutWindow pass stalls).2.2
    closed = { s with
      weightedHoldoutExamplesSinceLastPass := 0
      holdoutSumLossSinceLastPass := 0
      holdoutBestLoss := closed.holdoutBestLoss
      holdoutBestPass := closed.holdoutBestPass } := by
  unfold closeHoldoutWindow
  dsimp only
  split
  · rfl
  · split
    · rfl
    · rfl

/-- The judgement of a pass leaves the range of labels. -/
theorem Stats.labels_closeHoldoutWindow {R W : Type} [Scalar R] [Number W] [Widening R W]
    (s : Stats R W) (pass : UInt64) (stalls : UInt32) :
    (s.closeHoldoutWindow pass stalls).2.2.minLabel = s.minLabel ∧
      (s.closeHoldoutWindow pass stalls).2.2.maxLabel = s.maxLabel := by
  rw [s.closed_closeHoldoutWindow pass stalls]
  exact ⟨rfl, rfl⟩

namespace Context

/-- What calls and ends of passes leave of the context of a chain. -/
structure Follows (start c : NarrowContext) : Prop where
  form : c = { start with stats := c.stats, currentPass := c.currentPass, done := c.done }
  /-- Labels do not widen the bounds of a logistic loss. -/
  minLabel : start.loss = .logistic → c.stats.minLabel = start.stats.minLabel
  maxLabel : start.loss = .logistic → c.stats.maxLabel = start.stats.maxLabel

/-- A context that measures labels as another one does. -/
structure Measures {R W : Type} (start c : Context R W) : Prop where
  loss : c.loss = start.loss
  interactions : c.interactions = start.interactions
  minLabel : c.stats.minLabel = start.stats.minLabel
  maxLabel : c.stats.maxLabel = start.stats.maxLabel

variable {start c : NarrowContext}

theorem Follows.withStats (h : Follows start c) {stats : Stats Float32 Float}
    (hmin : start.loss = .logistic → stats.minLabel = c.stats.minLabel)
    (hmax : start.loss = .logistic → stats.maxLabel = c.stats.maxLabel) :
    Follows start { c with stats } := by
  refine ⟨?_, fun hloss => (hmin hloss).trans (h.minLabel hloss),
    fun hloss => (hmax hloss).trans (h.maxLabel hloss)⟩
  rw [h.form]

theorem Follows.coverLabel (h : Follows start c) (label : Float32) :
    Follows start (c.coverLabel label) := by
  unfold Context.coverLabel
  split
  · rename_i htracks
    have hloss : start.loss ≠ .logistic := by
      intro hloss
      rw [h.form, hloss] at htracks
      cases htracks
    exact h.withStats (fun hlogistic => absurd hlogistic hloss)
      fun hlogistic => absurd hlogistic hloss
  · exact h

theorem Follows.recordLoss (h : Follows start c) (holdout : Bool) (loss weight label : Float32) :
    Follows start { c with stats := c.stats.recordLoss holdout loss weight label } := by
  cases holdout with
  | false => exact h.withStats (fun _ => rfl) fun _ => rfl
  | true => exact h.withStats (fun _ => rfl) fun _ => rfl

/-- Labels do not widen the bounds of a logistic loss. -/
theorem Measures.coverLabel (hloss : start.loss = .logistic) (h : Measures start c)
    (label : Float32) : Measures start (c.coverLabel label) := by
  unfold Context.coverLabel
  rw [h.loss, hloss]
  exact h

theorem Measures.recordLoss (h : Measures start c) (holdout : Bool) (loss weight label : Float32) :
    Measures start { c with stats := c.stats.recordLoss holdout loss weight label } := by
  cases holdout with
  | false => exact ⟨h.loss, h.interactions, h.minLabel, h.maxLabel⟩
  | true => exact ⟨h.loss, h.interactions, h.minLabel, h.maxLabel⟩

theorem Follows.endPass (h : Follows start c)
    (o : Optimizer Float32 Float) : Follows start (o.endPass c).2 := by
  unfold Optimizer.endPass
  split
  · exact h
  · have hclosed := c.stats.labels_closeHoldoutWindow c.currentPass o.stalls
    refine ⟨?_, fun hloss => hclosed.1.trans (h.minLabel hloss),
      fun hloss => hclosed.2.trans (h.maxLabel hloss)⟩
    rw [h.form]

end Context

namespace ContextRel

def follows (start : NarrowContext) : ContextRel Float32 Float :=
  within start.Follows (fun _ label h => h.coverLabel label)
    fun _ holdout loss weight label h => h.recordLoss holdout loss weight label

def measures (start : NarrowContext) (hloss : start.loss = .logistic) : ContextRel Float32 Float :=
  within start.Measures (fun _ label h => h.coverLabel hloss label)
    fun _ holdout loss weight label h => h.recordLoss holdout loss weight label

end ContextRel

/-! ## Histories of workspaces -/

/-- The relation of an optimizer that has grown from `start` and itself, in contexts that came from
`context` and from `decoder`. -/
def Bond.history (start : Optimizer Float32 Float) (context decoder : NarrowContext)
    (hloss : decoder.loss = .logistic) : Bond Float32 Float where
  mask := start.weights.mask
  node := Same (Optimizer.Grown start)
  primary := .follows context
  decoder := .measures decoder hloss
  primary_alike := Optimizer.learner_grows (C := .follows context) (fun _ _ h => h.1) start
  decoder_alike := Optimizer.learner_grows (C := .measures decoder hloss) (fun _ _ h => h.1) start
  stats h := h.1 ▸ rfl
  holdoutOff h := h.1 ▸ rfl
  count _ h := ⟨h.1 ▸ rfl, h.2.withStats (fun _ => rfl) fun _ => rfl⟩
  dump h := ⟨h.1 ▸ rfl, h.2.withStats (fun _ => rfl) fun _ => rfl⟩

variable {start : Optimizer Float32 Float} {context decoder : NarrowContext}
  {hloss : decoder.loss = .logistic} {stack : Stack Float32} {hasher : FeatureHasher}

theorem Chain.Related.endPass_history {c : Chain Float32 Float}
    (h : Chain.Related (.history start context decoder hloss) stack hasher c c) :
    Chain.Related (.history start context decoder hloss) stack hasher c.endPass c.endPass := by
  have hfollows : context.Follows c.context := h.context.2
  have hpass : context.Follows { c.context with currentPass := c.context.currentPass + 1 } := by
    refine ⟨?_, hfollows.minLabel, hfollows.maxLabel⟩
    rw [hfollows.form]
  exact h.endPass id ⟨⟨rfl, h.optimizer.holds.endPass _⟩, rfl, hpass.endPass _⟩

/-- A call or the end of a pass. -/
inductive Step (R : Type) where
  | call (request : Request R)
  | endPass

namespace Workspace

section

variable {R W : Type} [Scalar R] [Number W] [Widening R W]

def step (w : Workspace R W) : Step R → Workspace R W
  | .call request => (w.answer request).2
  | .endPass => w.endPass

/-- What a history makes of a workspace. -/
def after (w : Workspace R W) (past : List (Step R)) : Workspace R W := past.foldl step w

variable {B : Bond R W} {stack : Stack R} {hasher : FeatureHasher}

/-- What calls keep, a step keeps, if the end of a pass does. -/
theorem step_keeps
    (hpass : ∀ {c}, Chain.Related B stack hasher c c →
      Chain.Related B stack hasher c.endPass c.endPass)
    (S : WorkspaceRel (Chain.Related B stack hasher)) (hstack : stack.Scored) {w : Workspace R W}
    (h : S.rel w w) (step : Step R) : S.rel (w.step step) (w.step step) := by
  cases step with
  | call request => exact (WorkspaceRel.answer_eq hstack h request).2
  | endPass => exact S.onChain h (hpass (S.chain h))

theorem after_keeps
    (hpass : ∀ {c}, Chain.Related B stack hasher c c →
      Chain.Related B stack hasher c.endPass c.endPass)
    (S : WorkspaceRel (Chain.Related B stack hasher)) (hstack : stack.Scored) {w : Workspace R W}
    (h : S.rel w w) (past : List (Step R)) : S.rel (w.after past) (w.after past) := by
  induction past generalizing w with
  | nil => exact h
  | cons step rest ih => exact ih (step_keeps hpass S hstack h step)

end

/-- Whatever the history of a workspace is, its optimizer has grown from that of the start. -/
theorem after_rel
    (S : WorkspaceRel (Chain.Related (.history start context decoder hloss) stack hasher))
    (hstack : stack.Scored) {w : Workspace Float32 Float} (h : S.rel w w)
    (past : List (Step Float32)) : S.rel (w.after past) (w.after past) :=
  after_keeps (fun h => h.endPass_history) S hstack h past

theorem after_history {w : Workspace Float32 Float} (hstack : stack.Scored)
    (h : Related (.history start context decoder hloss) stack hasher w w)
    (past : List (Step Float32)) :
    Related (.history start context decoder hloss) stack hasher (w.after past) (w.after past) :=
  after_rel .silent hstack h past

end Workspace

/-! ## The start of a history -/

theorem Config.Parts.grown_optimizer {c : Config Float32} (p : c.Parts Float) :
    Optimizer.Grown p.optimizer p.optimizer :=
  .refl (Optimizer.tidy_new p.mode p.l1_range c.weights.bits.toNat (layout c) c.run.earlyTerminate)

namespace Workspace

/-- A new workspace is the start of its history. -/
theorem Fresh.history {c : Config Float32} {w : Workspace Float32 Float} (h : Fresh c w) :
    ∃ (p : c.Parts Float) (decoder : NarrowContext) (hloss : decoder.loss = .logistic)
      (stack : Stack Float32) (hasher : FeatureHasher), stack.Scored ∧
        Chain.Related (.history p.optimizer p.context decoder hloss) stack hasher w.chain
          w.chain := by
  obtain ⟨p, decoder, stack, hasher, ⟨hloss, -⟩, hstack, hrelated⟩ := h.related
  exact ⟨p, decoder, hloss, stack, hasher, hstack,
    hrelated _ ⟨rfl, p.grown_optimizer⟩ ⟨rfl, rfl, fun _ => rfl, fun _ => rfl⟩
      ⟨rfl, rfl, rfl, rfl, rfl⟩⟩

/-- A new workspace without a journal is the start of its history. -/
theorem history_of_fresh {c : Config Float32} (hlog : c.run.progressLog = "")
    {w : Workspace Float32 Float} (h : Fresh c w) :
    ∃ (p : c.Parts Float) (decoder : NarrowContext) (hloss : decoder.loss = .logistic)
      (stack : Stack Float32) (hasher : FeatureHasher), stack.Scored ∧
        Related (.history p.optimizer p.context decoder hloss) stack hasher w w := by
  have hjournal := h.journal_eq_none hlog
  obtain ⟨p, decoder, hloss, stack, hasher, hstack, hchain⟩ := h.history
  exact ⟨p, decoder, hloss, stack, hasher, hstack, hchain, hjournal, hjournal⟩

end Workspace

end OnlineLearning
