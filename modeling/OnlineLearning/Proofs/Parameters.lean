import OnlineLearning.Proofs.Histories
import OnlineLearning.Proofs.Loads

/-!
# Models of parameters

Without resume a model holds the parameters of a table and nothing else. Predictions read more than
that: they are moved into the range of the labels seen, which such a model leaves out. Where the
loss lets labels widen the range, it is forgotten on the way through a model.

* `Chain.SameView`: chains of which predictions read the same;
* `Workspace.predictions_after_load`: after a load a new workspace predicts as the one that was
  saved does once it has forgotten the labels that it has seen;
* `Workspace.not_predictions_after_load`: without forgetting them that one predicts otherwise.
-/

namespace OnlineLearning

open LoadM (Reads)
open NodeM (Alike)

section

variable {R W : Type} [Scalar R] [Number W] [Widening R W] {mask : UInt64} {r : Region mask}
  {M : Marks}

/-! ## What predictions read -/

/-- Optimizers with the same parameters. -/
def Optimizer.SameParams (o o' : Optimizer R W) : Prop :=
  ∀ i, o'.weights.param i = o.weights.param i

omit [Number W] [Widening R W] in
theorem Optimizer.SameParams.dot_eq {o o' : Optimizer R W} (h : o.SameParams o')
    (visits : List (Feature R)) : o'.weights.dot visits = o.weights.dot visits := by
  refine List.foldl_rel (r := Eq) rfl fun f _ sum _ heq => ?_
  rw [heq, h]

/-- The relation of contexts that measure labels alike. -/
def ContextRel.measuringAlike : ContextRel R W where
  rel := Context.Measures
  loss h := h.loss
  interactions h := h.interactions
  minLabel h := h.minLabel
  maxLabel h := h.maxLabel
  coverLabel label h := by
    unfold Context.coverLabel
    rw [h.loss, h.minLabel, h.maxLabel]
    split
    · exact ⟨rfl, h.interactions, rfl, rfl⟩
    · exact h
  recordLoss holdout loss weight label h := by
    cases holdout with
    | false => exact ⟨h.loss, h.interactions, h.minLabel, h.maxLabel⟩
    | true => exact ⟨h.loss, h.interactions, h.minLabel, h.maxLabel⟩

theorem Optimizer.SameParams.predict_alike :
    Alike (Agree SameParams .measuringAlike (Example.Marked M r))
      (Agree SameParams .measuringAlike (Example.Marked M r))
      (Optimizer.predict : NodeM R W _ _ Unit) Optimizer.predict :=
  Optimizer.predict_alike (fun h _ _ => h.dot_eq _) M

variable {N : Optimizer R W → Optimizer R W → Prop} {C : ContextRel R W}

/-- A line predicts alike on optimizers that do. -/
theorem Line.predict_alike (h : Alike (Agree N C (Example.Marked M r))
      (Agree N C (Example.Marked M r)) Optimizer.predict Optimizer.predict) (l : Line) :
    Alike (Agree N C (Example.Marked M r)) (Agree N C (Example.Marked M r)) l.learner.predict
      l.learner.predict := by
  unfold Line.learner
  induction l.links with
  | nil => exact h
  | cons link _ ih => exact Scorer.predict_alike Scorer.sees_marked ih link

/-- A tower predicts alike on optimizers that do; decoders take no part in predictions. -/
theorem Tower.predict_alike (h : Alike (Agree N C (Example.Marked .any r))
      (Agree N C (Example.Marked .any r)) Optimizer.predict Optimizer.predict) (t : Tower R) :
    Alike (Agree (fun s s' => N (t.optimizer s) (t.optimizer s')) C (Batch.Marked M r))
      (Agree (fun s s' => N (t.optimizer s) (t.optimizer s')) C (Batch.Marked M r))
      t.learner.predict t.learner.predict := by
  induction t with
  | bandit l => exact Bandit.predict_alike (l.predict_alike h)
  | grounded _ _ _ primary ih =>
    intro f f' hf
    obtain ⟨hout, hleft⟩ := ih ⟨f.node.2, f.context, f.input⟩ ⟨f'.node.2, f'.context, f'.input⟩
      ⟨hf.node, hf.context, hf.input⟩
    exact ⟨hout, hleft.node, hleft.context, hleft.input⟩

/-! ## Chains that predict alike -/

namespace Chain

omit [Scalar R] [Number W] [Widening R W] in
@[simp] theorem optimizer_withContext (c : Chain R W) (context : Context R W) :
    ({ c with context } : Chain R W).optimizer = c.optimizer := by
  obtain ⟨stack, _, _, _⟩ := c
  cases stack <;> rfl

/-- Chains of which predictions read the same. -/
structure SameView (c c' : Chain R W) : Prop where
  stack : c'.stack = c.stack
  params : c.optimizer.SameParams c'.optimizer
  measures : c.context.Measures c'.context

theorem SameView.runLine :
    AlikeOn (SameView : Chain R W → Chain R W → Prop) (Example.Marked M r)
      (Chain.runLine fun l => l.predict) := by
  rintro ⟨_, s, context, hasher⟩ ⟨stack, s', context', hasher'⟩ ec ec' ⟨rfl, hparams, hmeasures⟩ hec
  cases stack with
  | tower t => exact ⟨rfl, ⟨rfl, hparams, hmeasures⟩, hec⟩
  | line l =>
    obtain ⟨hout, hleft⟩ := l.predict_alike Optimizer.SameParams.predict_alike ⟨s, context, ec⟩
      ⟨s', context', ec'⟩ ⟨hparams, hmeasures, hec⟩
    exact ⟨hout.symm, ⟨rfl, hleft.node, hleft.context⟩, hleft.input⟩

theorem SameView.runBatch :
    AlikeOn (SameView : Chain R W → Chain R W → Prop) (Batch.Marked M r)
      (Chain.runBatch fun l => l.predict) := by
  rintro ⟨_, s, context, hasher⟩ ⟨stack, s', context', hasher'⟩ batch batch'
    ⟨rfl, hparams, hmeasures⟩ hbatch
  cases stack with
  | line l => exact ⟨rfl, ⟨rfl, hparams, hmeasures⟩, hbatch⟩
  | tower t =>
    obtain ⟨hout, hleft⟩ := t.predict_alike Optimizer.SameParams.predict_alike ⟨s, context, batch⟩
      ⟨s', context', batch'⟩ ⟨hparams, hmeasures, hbatch⟩
    exact ⟨hout.symm, ⟨rfl, hleft.node, hleft.context⟩, hleft.input⟩

end Chain

/-! ## Workspaces that predict alike -/

/-- Requests that nothing is learned from. -/
inductive Request.Predicts : Request R → Prop
  | predict (ec : Example R) : Predicts (.predict ec)
  | predictBatch (batch : Batch R) : Predicts (.predictBatch batch)

namespace Workspace

/-- Whether the file of a journal, if there is one, can be reached. -/
def Reachable (w : Workspace R W) : Prop :=
  ∀ journal, w.journal = some journal → journal.file = .reachable

omit [Scalar R] [Widening R W] in
@[simp] theorem optimizer_tallied (w : Workspace R W) (label : Option R) (prediction : R)
    (features : Nat) : (w.tallied label prediction features).chain.optimizer = w.chain.optimizer :=
  w.chain.optimizer_withContext _

omit [Scalar R] [Widening R W] in
theorem tally_reachable {w : Workspace R W} (h : w.Reachable) (label : Option R) (prediction : R)
    (features : Nat) :
    (tally w.chain.context w.journal label prediction features).1 = .ok () ∧
      w.chain.context.Measures (w.tallied label prediction features).chain.context ∧
      (w.tallied label prediction features).Reachable := by
  obtain ⟨config, chain, journal⟩ := w
  cases journal with
  | none => exact ⟨rfl, ⟨rfl, rfl, rfl, rfl⟩, nofun⟩
  | some journal =>
    obtain ⟨hout, hfile, hleft⟩ := Journal.observe_reachable (h journal rfl)
      (chain.context.stats.recordExample features) label prediction features
    unfold tallied tally Reachable
    dsimp only
    generalize journal.observe (chain.context.stats.recordExample features) label prediction
      features = seen at hout hfile hleft ⊢
    obtain ⟨outcome, journal, stats⟩ := seen
    refine ⟨hout, ?_, fun _ hsome => ?_⟩
    · rcases hleft with rfl | rfl
      · exact ⟨rfl, rfl, rfl, rfl⟩
      · exact ⟨rfl, rfl, rfl, rfl⟩
    · cases hsome
      exact hfile

end Workspace

omit [Scalar R] [Number W] [Widening R W] in
theorem Context.Measures.square {c c' d d' : Context R W} (h : c.Measures c') (hc : c.Measures d)
    (hc' : c'.Measures d') : d.Measures d' :=
  ⟨hc'.loss.trans (h.loss.trans hc.loss.symm),
    hc'.interactions.trans (h.interactions.trans hc.interactions.symm),
    hc'.minLabel.trans (h.minLabel.trans hc.minLabel.symm),
    hc'.maxLabel.trans (h.maxLabel.trans hc.maxLabel.symm)⟩

/-- Counting an example changes nothing that predictions read, whatever the journals are. -/
def WorkspaceRel.viewed : WorkspaceRel (Chain.SameView : Chain R W → Chain R W → Prop) where
  rel w w' := w.chain.SameView w'.chain ∧ w.Reachable ∧ w'.Reachable
  chain h := h.1
  onChain h hchain := ⟨hchain, h.2⟩
  tally {w w'} label prediction features h := by
    obtain ⟨hview, hw, hw'⟩ := h
    obtain ⟨hout, hcontext, hleft⟩ := Workspace.tally_reachable hw label prediction features
    obtain ⟨hout', hcontext', hleft'⟩ := Workspace.tally_reachable hw' label prediction features
    have hparams : (w.tallied label prediction features).chain.optimizer.SameParams
        (w'.tallied label prediction features).chain.optimizer := by
      rw [Workspace.optimizer_tallied, Workspace.optimizer_tallied]
      exact hview.params
    exact ⟨hout'.trans hout.symm,
      ⟨hview.stack, hparams, hview.measures.square hcontext hcontext'⟩, hleft, hleft'⟩

namespace Workspace

variable {w w' : Workspace R W}

theorem answer_viewed (h : WorkspaceRel.viewed.rel w w') {request : Request R}
    (hrequest : request.Predicts) :
    (w'.answer request).1 = (w.answer request).1 ∧
      WorkspaceRel.viewed.rel (w.answer request).2 (w'.answer request).2 := by
  cases hrequest with
  | predict ec =>
    have hwhole : Example.Marked .same (Region.whole 0) ec ec := .refl (Region.holds_whole ec)
    obtain ⟨hout, hleft, hinput⟩ :=
      WorkspaceRel.predict_alike Chain.SameView.runLine w w' ec ec h hwhole
    unfold answer
    dsimp only
    rw [hout, hinput.eq]
    exact ⟨rfl, hleft⟩
  | predictBatch batch =>
    have hwhole : Batch.Marked .same (Region.whole 0) batch batch :=
      .refl (Region.holdsAll_whole batch)
    obtain ⟨hout, hleft, hinput⟩ :=
      WorkspaceRel.predictBatch_alike Chain.SameView.runBatch w w' batch batch h hwhole
    unfold answer
    dsimp only
    rw [hout, hinput.eq]
    exact ⟨rfl, hleft⟩

/-- Predictions stay the same as long as nothing is learned. -/
theorem answers_viewed (h : WorkspaceRel.viewed.rel w w') {requests : List (Request R)}
    (hrequests : ∀ request ∈ requests, request.Predicts) :
    (w'.answers requests).1 = (w.answers requests).1 := by
  induction requests generalizing w w' with
  | nil => rfl
  | cons request rest ih =>
    obtain ⟨hanswer, hleft⟩ := answer_viewed h (hrequests request List.mem_cons_self)
    exact congrArg₂ List.cons hanswer
      (ih hleft fun later hlater => hrequests later (List.mem_cons_of_mem _ hlater))

end Workspace

/-! ## Forgetting labels -/

/-- A context with the range that its loss starts from. -/
def Context.forgetLabels (c : Context R W) : Context R W :=
  { c with stats :=
    { c.stats with minLabel := c.loss.initialBounds.1, maxLabel := c.loss.initialBounds.2 } }

/-- A workspace that has seen no labels. -/
def Workspace.forgetLabels (w : Workspace R W) : Workspace R W :=
  { w with chain := { w.chain with context := w.chain.context.forgetLabels } }

end

/-! ## Loads of parameters -/

theorem WeightTable.param_taken {width : Nat} (g old : Vector Float32 width) :
    ((taken false g old)[0]?).getD 0 = (g[0]?).getD 0 := by
  unfold taken
  rw [if_neg Bool.false_ne_true, Vector.getElem?_setIfInBounds]
  by_cases hwidth : 0 < width <;> simp [hwidth]

theorem WeightTable.param_zeroGroup (width : Nat) :
    ((zeroGroup : Vector Float32 width)[0]?).getD 0 = 0 := by
  by_cases hwidth : 0 < width <;> simp [zeroGroup, hwidth]

/-- A cleared table that takes the parameters of another one has those of the groups that are not
zero there. -/
theorem WeightTable.param_restore_taken {width : Nat} {t t' : WeightTable Float32 width}
    (hmask : t'.mask = t.mask) (i : UInt64) :
    (t'.clear.restore (taken false) t.nonZeroGroups).param i =
      if isNonZero (t.group i) then t.param i else 0 := by
  rw [param, group_restore_clear (isNonZero_zeroGroup _) hmask]
  split
  · exact param_taken _ _
  · exact param_zeroGroup width

variable {start : Optimizer Float32 Float} {context decoder : NarrowContext}
  {hloss : decoder.loss = .logistic} {stack : Stack Float32} {hasher : FeatureHasher}

/-- An optimizer reads the parameters of another one with the same start, and nothing of the context
under which that one was saved. -/
theorem Optimizer.Grown.reads_loadParams {o o' : Optimizer Float32 Float} (h : Grown start o)
    (h' : Grown start o') (hmask : start.weights.mask.toNat < 2 ^ 32) {c : NarrowContext}
    (hresume : c.saveResume = false) (c' : NarrowContext) :
    ∃ left, Reads (load .binary) (o.fields c) (o', c') () (left, c') ∧ o.SameParams left := by
  obtain ⟨t, stalls, totalWeight, normalizedSumNorm, average, rfl, ht⟩ := h'.form_of h
  have hmask' : t.mask.toNat < 2 ^ 32 := by
    rw [ht, h'.mask]
    exact hmask
  refine ⟨_, Optimizer.reads_loadParams hmask' hresume stalls _ totalWeight normalizedSumNorm average c',
    fun i => ?_⟩
  refine (WeightTable.param_restore_taken ht.symm i).trans ?_
  split
  · rfl
  · rename_i hzero
    have hgroup := (h.tidy.table i).eq_zeroGroup (Bool.eq_false_iff.mpr hzero)
    rw [WeightTable.param, hgroup, WeightTable.param_zeroGroup]

/-- A chain takes the parameters of another one with the same start and keeps its own context. -/
theorem Chain.Related.load_params {c c' : Chain Float32 Float}
    (h : Chain.Related (.history start context decoder hloss) stack hasher c c)
    (h' : Chain.Related (.history start context decoder hloss) stack hasher c' c')
    (hmask : start.weights.mask.toNat < 2 ^ 32) (hresume : context.saveResume = false) :
    ∃ buffer left, c'.load .binary (.ofBytes (c.save .binary).bytes) = (.ok (), buffer, left) ∧
      left.stack = c.stack ∧ c.optimizer.SameParams left.optimizer ∧ left.context = c'.context := by
  have hfollows : context.Follows c.context := h.context.2
  have hresume' : c.context.saveResume = false := by
    rw [hfollows.form]
    exact hresume
  obtain ⟨o, hreads, hparams⟩ :=
    h.optimizer.holds.reads_loadParams h'.optimizer.holds hmask hresume' c'.context
  cases h with
  | intro _ _ =>
    cases h' with
    | intro _ _ =>
      refine ⟨_, _, Chain.load_save hreads, rfl, ?_, rfl⟩
      rw [Chain.optimizer_loaded]
      exact hparams

namespace Context

variable {start c : NarrowContext}

/-- A context that came from a new one measures labels as that one does, once it has forgotten the
labels that it has seen. -/
theorem Follows.measures_forgetLabels (h : Follows start c)
    (hmin : start.stats.minLabel = start.loss.initialBounds.1)
    (hmax : start.stats.maxLabel = start.loss.initialBounds.2) : c.forgetLabels.Measures start := by
  have hloss : start.loss = c.loss := by rw [h.form]
  have hinteractions : start.interactions = c.interactions := by rw [h.form]
  refine ⟨hloss, hinteractions, ?_, ?_⟩
  · rw [hmin, hloss]
    rfl
  · rw [hmax, hloss]
    rfl

/-- There is nothing to forget where labels do not widen the range. -/
theorem Follows.forgetLabels_eq (h : Follows start c) (hlogistic : start.loss = .logistic)
    (hmin : start.stats.minLabel = start.loss.initialBounds.1)
    (hmax : start.stats.maxLabel = start.loss.initialBounds.2) : c.forgetLabels = c := by
  have hloss : c.loss = start.loss := by rw [h.form]
  unfold forgetLabels
  rw [hloss, ← hmin, ← hmax, ← h.minLabel hlogistic, ← h.maxLabel hlogistic, ← hloss]

end Context

namespace Workspace

/-- Without resume a new workspace loads the model of another one of its configuration, whatever that
one went through, and as long as nothing is learned it predicts as that one does once it has
forgotten the labels that it has seen. With a logistic loss there is nothing to forget. -/
theorem predictions_after_load {c : Config Float32} (hresume : c.run.saveResume = false)
    {w₀ : Workspace Float32 Float} (hnew : Workspace.new c = .ok w₀) (past : List (Step Float32)) :
    ∃ loaded, w₀.load .binary (w₀.after past).model = (.ok (), loaded) ∧
      ∀ requests : List (Request Float32), (∀ request ∈ requests, request.Predicts) →
        (loaded.answers requests).1 = ((w₀.after past).forgetLabels.answers requests).1 ∧
        (c.scorer.loss = .logistic →
          (loaded.answers requests).1 = ((w₀.after past).answers requests).1) := by
  have hfresh := fresh_of_new hnew
  obtain ⟨p, decoder, hloss, stack, hasher, hstack, hstart⟩ := hfresh.history
  have hlogged := hfresh.logged hstart
  have hpast := after_rel .logged hstack hlogged past
  have hcontext : w₀.chain.context = p.context :=
    Except.ok.inj (hfresh.context_eq.symm.trans p.context_eq)
  have hfollows : p.context.Follows (w₀.after past).chain.context := hpast.chain.context.2
  have hmin : p.context.stats.minLabel = p.context.loss.initialBounds.1 := by
    rw [Config.eq_of_initialContext p.context_eq]
    rfl
  have hmax : p.context.stats.maxLabel = p.context.loss.initialBounds.2 := by
    rw [Config.eq_of_initialContext p.context_eq]
    rfl
  -- the chain that is left has the parameters that were saved, and the context of the new one
  obtain ⟨buffer, chain, hload, hleft, hparams, hkept⟩ := hpast.chain.load_params hstart p.mask_lt
    ((Config.saveResume_of_initialContext p.context_eq).trans hresume)
  have hview : (w₀.after past).forgetLabels.chain.SameView chain := by
    refine ⟨hleft, ?_, ?_⟩
    · unfold forgetLabels
      rw [Chain.optimizer_withContext]
      exact hparams
    · rw [hkept, hcontext]
      exact hfollows.measures_forgetLabels hmin hmax
  refine ⟨{ w₀ with chain }, ?_, fun requests hrequests => ?_⟩
  · unfold load model
    rw [hload]
  · have hviewed : WorkspaceRel.viewed.rel (w₀.after past).forgetLabels { w₀ with chain } :=
      ⟨hview, hpast.reachable, hlogged.reachable⟩
    have hanswers := answers_viewed hviewed hrequests
    refine ⟨hanswers, fun hlogistic => hanswers.trans ?_⟩
    have hforget := hfollows.forgetLabels_eq
      ((Config.loss_of_initialContext p.context_eq).trans hlogistic) hmin hmax
    unfold forgetLabels
    rw [hforget]

end Workspace

/-! ## A range that is forgotten -/

namespace Config

/-- The default configuration without resume. -/
def defaultParameters : Config Float32 :=
  { (default : Config Float32) with
    run := { (default : Config Float32).run with saveResume := false } }

def parametersWorkspace : Workspace Float32 Float :=
  (Workspace.new defaultParameters : Except _ (Workspace Float32 Float)).toOption.get
    (by decide +kernel)

theorem new_defaultParameters : Workspace.new defaultParameters = .ok parametersWorkspace :=
  Workspace.new_eq_get _

end Config

namespace Workspace

/-- A default workspace that has learned from one example. -/
theorem predictions_after_load_default :
    let w := Config.parametersWorkspace
    let past := [.call (.learn (.single (.simple (some 1)) false))]
    (Config.defaultParameters.run.saveResume = false ∧
      Workspace.new Config.defaultParameters = .ok w) ∧
    ∃ loaded, w.load .binary (w.after past).model = (.ok (), loaded) ∧
      ∀ requests : List (Request Float32), (∀ request ∈ requests, request.Predicts) →
        (loaded.answers requests).1 = ((w.after past).forgetLabels.answers requests).1 ∧
        (Config.defaultParameters.scorer.loss = .logistic →
          (loaded.answers requests).1 = ((w.after past).answers requests).1) :=
  ⟨⟨rfl, Config.new_defaultParameters⟩,
    predictions_after_load rfl Config.new_defaultParameters _⟩

/-- What is predicted for the example of an answer. -/
def published : Answer Float32 → Option UInt32
  | .line _ ec => some ec.scalar.toBits
  | _ => none

/-- A workspace that has learned a label of 1 predicts about 1, and about 0 after its model was
loaded. -/
theorem not_predictions_after_load :
    ¬ ∀ (c : Config Float32) (w₀ : Workspace Float32 Float), c.run.saveResume = false →
      Workspace.new c = .ok w₀ → ∀ (past : List (Request Float32)) (ec : Example Float32),
        ec.label = .simple none →
        let trained := (w₀.answers past).2
        let loaded := (w₀.load .binary trained.model).2
        (loaded.answer (.predict ec)).1 = (trained.answer (.predict ec)).1 := by
  intro h
  have hsame := h Config.defaultParameters Config.parametersWorkspace rfl
    Config.new_defaultParameters [.learn (.single (.simple (some 1)) false)]
    (.single (.simple none) false) rfl
  have hbits := congrArg published hsame
  revert hbits
  decide +kernel

end Workspace

end OnlineLearning
