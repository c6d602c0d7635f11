import OnlineLearning.Proofs.Histories
import OnlineLearning.Proofs.ModelsAlike

/-!
# Resuming from a model

A workspace into which the model of another one is loaded goes on as that one does. The model leaves
out zero groups, the average norm, examples for reuse, the context of a decoder and the counting of
passes: the first two are as they were after the load, and nothing of the others gets into an
answer.

* `Bond.resumed` relates what cannot be told apart by calls;
* `Chain.Related.load_save`: a load leads from any history to a related chain;
* `Workspace.resume_after_load`: all answers from then on are the same, and so is what is left.
-/

namespace OnlineLearning

open LoadM (Reads)

/-! ## What calls do not tell apart -/

/-- The relation of contexts that are at different passes. -/
def ContextRel.passes : ContextRel Float32 Float where
  rel c c' := c' = { c with currentPass := c'.currentPass, done := c'.done }
  loss h := by rw [h]
  interactions h := by rw [h]
  minLabel h := by rw [h]
  maxLabel h := by rw [h]
  coverLabel {c c'} label h := by
    rw [h]
    unfold Context.coverLabel
    split
    · rfl
    · rfl
  recordLoss _ _ _ _ h := by rw [h]

/-- The relation of contexts that measure labels by a logistic loss, one as the other. -/
def ContextRel.measuring (start : NarrowContext) (hloss : start.loss = .logistic) :
    ContextRel Float32 Float where
  rel c c' := start.Measures c ∧ start.Measures c'
  loss h := h.2.loss.trans h.1.loss.symm
  interactions h := h.2.interactions.trans h.1.interactions.symm
  minLabel h := h.2.minLabel.trans h.1.minLabel.symm
  maxLabel h := h.2.maxLabel.trans h.1.maxLabel.symm
  coverLabel label h := ⟨h.1.coverLabel hloss label, h.2.coverLabel hloss label⟩
  recordLoss holdout loss weight label h :=
    ⟨h.1.recordLoss holdout loss weight label, h.2.recordLoss holdout loss weight label⟩

/-- The relation of optimizers with the same groups and totals, in contexts at different passes. -/
def Bond.resumed (mask : UInt64) (decoder : NarrowContext) (hloss : decoder.loss = .logistic) :
    Bond Float32 Float where
  mask
  node := Optimizer.Twins (Region.whole mask)
  primary := .passes
  decoder := .measuring decoder hloss
  primary_alike := Optimizer.learner_alike
  decoder_alike := Optimizer.learner_alike
  stats h := by rw [h]
  holdoutOff h := by rw [h]
  count _ h := by
    unfold ContextRel.passes at h ⊢
    rw [h]
  dump h := by
    unfold ContextRel.passes at h ⊢
    rw [h]

/-! ## Loads -/

variable {start : Optimizer Float32 Float} {context decoder : NarrowContext}
  {hloss : decoder.loss = .logistic} {stack : Stack Float32} {hasher : FeatureHasher}

namespace Optimizer

/-- What is read back from the model of an optimizer is its twin. -/
theorem Tidy.twins {o : Optimizer Float32 Float} (h : o.Tidy)
    {t : WeightTable Float32 o.mode.width} (ht : t.mask = o.weights.mask) (stalls : UInt32) :
    Twins (Region.whole o.weights.mask) o (refreshAverage { o with
      weights := t.clear.restore (fun g _ => g) o.weights.nonZeroGroups, stalls }) := by
  refine ⟨rfl, t.clear.restore (fun g _ => g) o.weights.nonZeroGroups, stalls, ?_, ?_⟩
  · have haverage := h.average
    unfold refreshAverage at haverage ⊢
    dsimp only at haverage ⊢
    rw [← haverage]
  · exact ⟨(WeightTable.mask_restore _ _).trans ht, fun i _ => WeightTable.group_restore_clear_self
      (WeightTable.isNonZero_zeroGroup _) ht (fun j hj => (h.table j).eq_zeroGroup hj) i⟩

/-- An optimizer reads the model of another one with the same start and becomes its twin. -/
theorem Grown.reads_load {o o' : Optimizer Float32 Float} (h : Grown start o)
    (h' : Grown start o') (hmask : start.weights.mask.toNat < 2 ^ 32) {c : NarrowContext}
    (hresume : c.saveResume = true) (c' : NarrowContext) :
    ∃ left, Reads (load .binary) (o.fields c) (o', c') () (left, { c' with stats := c.stats }) ∧
      Twins (Region.whole start.weights.mask) o left := by
  obtain ⟨t, stalls, totalWeight, normalizedSumNorm, average, rfl, ht⟩ := h.form_of h'
  rw [← h.mask] at hmask ⊢
  exact ⟨_, Optimizer.reads_load hmask hresume t stalls _ totalWeight normalizedSumNorm average c',
    h.tidy.twins ht stalls⟩

end Optimizer

variable {B B' : Bond Float32 Float}

/-- A load relates towers as it relates their optimizers and the contexts of decoders. -/
theorem Tower.Related.loaded {t : Tower Float32} {s s' : t.State Float} (h : t.Related B s s)
    (h' : t.Related B s' s') {o : Optimizer Float32 Float} (hnode : B'.node (t.optimizer s) o)
    (hdecoder : ∀ {c c'}, B.decoder.rel c c → B.decoder.rel c' c' → B'.decoder.rel c c') :
    t.Related B' s (t.loaded o s s') := by
  induction t with
  | bandit _ => exact hnode
  | grounded _ _ _ primary ih =>
    exact ⟨hdecoder h.decoderContext h'.decoderContext, rfl, ih h.node h'.node hnode⟩

/-- A chain reads the model of another one with the same start and cannot be told from it. -/
theorem Chain.Related.load_save {c c' : Chain Float32 Float}
    (h : Chain.Related (.history start context decoder hloss) stack hasher c c)
    (h' : Chain.Related (.history start context decoder hloss) stack hasher c' c')
    (hmask : start.weights.mask.toNat < 2 ^ 32) (hresume : context.saveResume = true) :
    ∃ buffer left, c'.load .binary (.ofBytes (c.save .binary).bytes) = (.ok (), buffer, left) ∧
      Chain.Related (.resumed start.weights.mask decoder hloss) stack hasher c left := by
  have hfollows : context.Follows c.context := h.context.2
  have hfollows' : context.Follows c'.context := h'.context.2
  have hresume' : c.context.saveResume = true := by
    rw [hfollows.form]
    exact hresume
  have hpasses : ContextRel.passes.rel c.context { c'.context with stats := c.context.stats } := by
    unfold ContextRel.passes
    rw [hfollows.form, hfollows'.form]
  obtain ⟨o, hreads, htwins⟩ :=
    h.optimizer.holds.reads_load h'.optimizer.holds hmask hresume' c'.context
  cases h with
  | intro hstate _ =>
    cases h' with
    | intro hstate' _ =>
      refine ⟨_, _, Chain.load_save hreads, ?_, hpasses⟩
      cases stack with
      | line l => exact htwins
      | tower t => exact Tower.Related.loaded hstate hstate' htwins fun hc hc' => ⟨hc.2, hc'.2⟩

/-! ## What is left alike -/

theorem Optimizer.Twins.fields_eq {mask : UInt64} {o o' : Optimizer Float32 Float}
    (h : Twins (Region.whole mask) o o') {c c' : NarrowContext} (hc : ContextRel.passes.rel c c') :
    o'.fields c' = o.fields c := by
  obtain ⟨-, t, stalls, rfl, ht⟩ := h
  have hgroups : t.nonZeroGroups = o.weights.nonZeroGroups :=
    WeightTable.nonZeroGroups_eq (WeightTable.isNonZero_zeroGroup _) ht.mask fun i =>
      ht.group i trivial
  have hc' : c' = { c with currentPass := c'.currentPass, done := c'.done } := hc
  unfold Optimizer.fields WeightTable.fields
  rw [hc']
  dsimp only
  rw [hgroups]

variable {mask : UInt64}

namespace Workspace

/-- Workspaces that have learned the same and save the same. -/
structure SameLearning (w w' : Workspace Float32 Float) : Prop where
  channels : ∀ i, w'.chain.optimizer.channels i = w.chain.optimizer.channels i
  totalWeight : w'.chain.optimizer.totalWeight = w.chain.optimizer.totalWeight
  averageSquaredNorm :
    w'.chain.optimizer.averageSquaredNorm = w.chain.optimizer.averageSquaredNorm
  stats : w'.chain.context.stats = w.chain.context.stats
  counters :
    w'.chain.grounded?.map GroundedState.counters = w.chain.grounded?.map GroundedState.counters
  model : w'.model = w.model

theorem Related.sameLearning {w w' : Workspace Float32 Float}
    (h : Related (.resumed mask decoder hloss) stack hasher w w') : SameLearning w w' := by
  obtain ⟨-, t, stalls, hoptimizer, ht⟩ := h.chain.optimizer
  have hmodel := congrArg (fun fields => (ModelBuffer.empty.write .binary fields).bytes)
    (h.chain.fields_eq fun ho hc => Optimizer.Twins.fields_eq ho hc)
  refine ⟨fun i => ?_, by rw [hoptimizer], by rw [hoptimizer], Bond.stats _ h.chain.context,
    h.chain.map_grounded? fun _ _ _ hcounters => hcounters, hmodel⟩
  rw [hoptimizer]
  exact congrArg Vector.toList (ht.group i trivial)

/-- Whatever two workspaces of one configuration went through, the model of the one can be loaded
into the other, which from then on answers as the one does. -/
theorem resume_after_load {c : Config Float32} (hresume : c.run.saveResume = true)
    (hlog : c.run.progressLog = "") {w₀ : Workspace Float32 Float}
    (hnew : Workspace.new c = .ok w₀) (past past' : List (Step Float32)) :
    ∃ resumed, (w₀.after past').load .binary (w₀.after past).model = (.ok (), resumed) ∧
      ∀ requests : List (Request Float32),
        (resumed.answers requests).1 = ((w₀.after past).answers requests).1 ∧
        SameLearning ((w₀.after past).answers requests).2 (resumed.answers requests).2 := by
  obtain ⟨p, decoder, hloss, stack, hasher, hstack, hstart⟩ :=
    history_of_fresh hlog (fresh_of_new hnew)
  have hcontext : p.context.saveResume = true :=
    (Config.saveResume_of_initialContext p.context_eq).trans hresume
  have hw := after_history hstack hstart past
  have hw' := after_history hstack hstart past'
  obtain ⟨buffer, chain, hload, hchain⟩ := hw.chain.load_save hw'.chain p.mask_lt hcontext
  refine ⟨{ w₀.after past' with chain }, ?_, fun requests => ?_⟩
  · unfold Workspace.load Workspace.model
    rw [hload]
  · have hrelated : Related (.resumed p.optimizer.weights.mask decoder hloss) stack hasher
        (w₀.after past) { w₀.after past' with chain } := ⟨hchain, hw.journal, hw'.journal⟩
    obtain ⟨hanswers, hleft⟩ := answers_alike hstack hrelated requests
    exact ⟨hanswers, hleft.sameLearning⟩

/-- Two default grounded workspaces: the one has learned from a batch with a cost, the other one
from a batch with another cost before it closed a pass. -/
theorem resume_after_load_default :
    let w := Config.defaultWorkspace
    let line (cost : Float32) : Example Float32 :=
      { (Example.blank : Example Float32) with
        namespaces := (∅ : Namespaces Float32).push 0x61 ⟨w.chain.hasher.hash "a" "x", 1⟩
        label := .bandit [⟨cost, 1, 1⟩] }
    let past := [.call (.learnBatch [line 1]), .call (.predictBatch [line 1])]
    let past' := [.call (.learnBatch [line 0]), .endPass]
    (Config.defaultGrounded.run.saveResume = true ∧ Config.defaultGrounded.run.progressLog = "" ∧
      Workspace.new Config.defaultGrounded = .ok w) ∧
    ∃ resumed, (w.after past').load .binary (w.after past).model = (.ok (), resumed) ∧
      ∀ requests : List (Request Float32),
        (resumed.answers requests).1 = ((w.after past).answers requests).1 ∧
        SameLearning ((w.after past).answers requests).2 (resumed.answers requests).2 :=
  ⟨⟨rfl, rfl, Config.new_defaultGrounded⟩,
    resume_after_load rfl rfl Config.new_defaultGrounded _ _⟩

end Workspace

end OnlineLearning
