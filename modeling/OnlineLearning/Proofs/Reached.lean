import OnlineLearning.Proofs.Layouts

/-!
# Reached workspaces

What stays of a new workspace whatever it goes through: the stack, the settings of the run, and that
there is no journal if there was none. Models that are loaded bring statistics, not settings.

* `Context.Configured`: contexts that differ in statistics and in the counting of passes;
* `Bond.steady` relates an optimizer to itself, in contexts of one configuration;
* `WorkspaceRel.echoes_steady`: events keep what is related so;
* `Workspace.stack_reached`, `Workspace.configured_reached` and `Workspace.journal_reached`: what is
  known of a workspace that was reached from a new one.
-/

namespace OnlineLearning

variable {R W : Type} [Scalar R] [Number W] [Widening R W]

/-! ## Settings -/

namespace Context

omit [Scalar R] [Number W] [Widening R W] in
/-- What a run and the models that it loads leave of the context that it started with. -/
def Configured (start c : Context R W) : Prop :=
  c = { start with stats := c.stats, currentPass := c.currentPass, done := c.done }

variable {start c : Context R W}

omit [Scalar R] [Number W] [Widening R W] in
theorem Configured.withStats (h : Configured start c) (stats : Stats R W) :
    Configured start { c with stats } := by
  unfold Configured at h ⊢
  rw [h]

omit [Scalar R] [Number W] [Widening R W] in
theorem Configured.holdoutOff (h : Configured start c) : c.holdoutOff = start.holdoutOff := by
  rw [h]

omit [Scalar R] [Number W] [Widening R W] in
theorem Configured.saveResume (h : Configured start c) : c.saveResume = start.saveResume := by
  rw [h]

omit [Number W] [Widening R W] in
theorem Configured.coverLabel (h : Configured start c) (label : R) :
    Configured start (c.coverLabel label) := by
  unfold Context.coverLabel
  split
  · exact h.withStats _
  · exact h

/-- The end of a pass counts it and may end the run. -/
theorem Configured.endPass (h : Configured start c) (o : Optimizer R W) :
    Configured start (o.endPass { c with currentPass := c.currentPass + 1 }).2 := by
  unfold Configured at h
  unfold Optimizer.endPass
  split
  · rw [h]
    rfl
  · rw [h]
    rfl

end Context

def ContextRel.configured (start : Context R W) : ContextRel R W :=
  within start.Configured (fun _ label h => h.coverLabel label) fun _ _ _ _ _ h => h.withStats _

/-- An optimizer and itself below a decoder, in one context. -/
theorem Optimizer.learner_keepsMask_eq (mask : UInt64) :
    (learner : LineLearner R W _).Alike (Same fun o => o.weights.mask = mask) .eq
      (Region.whole mask) (0 < ·) learner :=
  learner_keepsMask mask

/-- The relation of one optimizer to itself, in one context that has come from `start`. -/
def Bond.steady (mask : UInt64) (start : Context R W) : Bond R W where
  mask
  node := Same fun o => o.weights.mask = mask
  primary := .configured start
  decoder := .eq
  primary_alike := Optimizer.learner_keepsMask mask
  decoder_alike := Optimizer.learner_keepsMask_eq mask
  stats h := h.1 ▸ rfl
  holdoutOff h := h.1 ▸ rfl
  count _ h := ⟨h.1 ▸ rfl, h.2.withStats _⟩
  dump h := ⟨h.1 ▸ rfl, h.2.withStats _⟩

/-! ## The end of a pass -/

theorem Optimizer.mask_endPass (o : Optimizer R W) (c : Context R W) :
    (o.endPass c).1.weights.mask = o.weights.mask := by
  by_cases hoff : c.holdoutOff = true
  · have hpass : o.endPass c = _ := if_pos hoff
    rw [hpass]
  · have hpass : o.endPass c = _ := if_neg hoff
    rw [hpass]

theorem Chain.Related.endPass_steady {mask : UInt64} {start : Context R W} {stack : Stack R}
    {hasher : FeatureHasher} {c : Chain R W}
    (h : Related (.steady mask start) stack hasher c c) :
    Related (.steady mask start) stack hasher c.endPass c.endPass :=
  h.endPass id ⟨⟨rfl, (Optimizer.mask_endPass _ _).trans h.optimizer.holds⟩, rfl,
    Context.Configured.endPass h.context.2 _⟩

/-! ## Loads -/

open LoadM (Alike)

section

variable {mask : UInt64} {C : ContextRel Float32 Float}

theorem WeightTable.load_keepsMask {width : Nat} (mask : UInt64) (format : ModelFormat)
    (resume : Bool) :
    Alike (Same fun t : WeightTable Float32 width => t.mask = mask) (Same fun t => t.mask = mask)
      (load format resume) (load format resume) := by
  rw [load_eq]
  refine Store.load_alike (fun {t t'} index change h => ?_) (fun {t t'} h => ?_) format resume
  · obtain ⟨rfl, hmask⟩ := h
    exact ⟨rfl, hmask⟩
  · obtain ⟨rfl, hmask⟩ := h
    exact ⟨rfl, hmask⟩

namespace Optimizer

variable {Inv : Optimizer Float32 Float → Prop}

theorem modify_keeps {f : Optimizer Float32 Float × NarrowContext →
      Optimizer Float32 Float × NarrowContext}
    (hf : ∀ o c c', C.rel c c' → (f (o, c')).1 = (f (o, c)).1 ∧
      (Inv o → Inv (f (o, c)).1) ∧ C.rel (f (o, c)).2 (f (o, c')).2) :
    Alike (C.With (Same Inv)) (C.With (Same Inv)) (LoadM.modifyState f)
      (LoadM.modifyState f) := by
  refine .of_modifyState ?_
  rintro ⟨_, c⟩ ⟨o, c'⟩ ⟨⟨rfl, hinv⟩, hc⟩
  obtain ⟨hnode, hkept, hleft⟩ := hf o c c' hc
  exact ⟨⟨hnode, hkept hinv⟩, hleft⟩

/-- One model makes of one optimizer one optimizer, whatever the contexts, if these are still
related with the statistics of the model. What outlives other groups and other totals is kept. -/
theorem load_keeps
    (hwrite : ∀ o (t : WeightTable Float32 o.mode.width) (size : UInt64)
      (totalWeight normalizedSumNorm : Float) (averageSquaredNorm : Float32), Inv o →
      t.mask = o.weights.mask →
        Inv { o with weights := t, size, totalWeight, normalizedSumNorm, averageSquaredNorm })
    (hstats : ∀ {c c'} stats, C.rel c c' → C.rel { c with stats } { c' with stats })
    (format : ModelFormat) :
    Alike (C.With (Same Inv)) (C.With (Same Inv)) (load format) (load format) := by
  have htotals : Alike (C.With (Same Inv)) (C.With (Same Inv)) (loadTotals format)
      (loadTotals format) := by
    refine .bind (.of_take format _ _) fun _ => ?_
    refine .bind (modify_keeps fun o _ _ hc => ⟨rfl, fun h => hwrite o _ _ _ _ _ h rfl, hc⟩)
      fun _ => ?_
    refine .bind (.of_take format _ _) fun _ => ?_
    refine .bind (modify_keeps fun o _ _ hc => ⟨rfl, fun h => hwrite o _ _ _ _ _ h rfl, hc⟩)
      fun _ => ?_
    refine .bind (.of_take format _ _) fun _ => ?_
    refine .bind (modify_keeps fun o _ _ hc => ⟨rfl, fun h => hwrite o _ _ _ _ _ h rfl, hc⟩)
      fun _ => ?_
    refine .bind (.of_take format _ _) fun stats => ?_
    exact modify_keeps fun _ _ _ hc => ⟨rfl, id, hstats stats hc⟩
  have htable (resume : Bool) : Alike (C.With (Same Inv)) (C.With (Same Inv))
      (loadTable format resume) (loadTable format resume) := by
    refine .get_bind ?_
    rintro buffer ⟨_, c⟩ ⟨o, c'⟩ ⟨⟨rfl, hinv⟩, hc⟩
    refine .bind (.onPart (WeightTable.load_keepsMask o.weights.mask format resume) ⟨rfl, rfl⟩
      fun _ t ht => ?_) fun _ => modify_keeps fun o _ _ hc =>
        ⟨rfl, fun h => hwrite o _ _ _ _ _ h rfl, hc⟩
    obtain ⟨rfl, ht⟩ := ht
    exact ⟨⟨rfl, hwrite o _ _ _ _ _ hinv ht⟩, hc⟩
  refine .bind (modify_keeps fun o _ _ hc => ⟨rfl, fun h => hwrite o _ _ _ _ _ h rfl, hc⟩)
    fun _ => ?_
  refine .bind (.of_take format _ _) fun resume => ?_
  cases resume with
  | true => exact .bind htotals fun _ => htable true
  | false => exact htable false

/-- One model makes of one optimizer one optimizer, over a table of the same mask. -/
theorem load_keepsMask (mask : UInt64)
    (hstats : ∀ {c c'} stats, C.rel c c' → C.rel { c with stats } { c' with stats })
    (format : ModelFormat) :
    Alike (C.With (Same fun o => o.weights.mask = mask))
      (C.With (Same fun o => o.weights.mask = mask)) (load format) (load format) :=
  load_keeps (fun _ _ _ _ _ _ hmask ht => ht.trans hmask) hstats format

end Optimizer

end

theorem Chain.Related.load_steady {mask : UInt64} {start : NarrowContext} {stack : Stack Float32}
    {hasher : FeatureHasher} {c : Chain Float32 Float}
    (h : Related (.steady mask start) stack hasher c c) (format : ModelFormat)
    (buffer : ModelBuffer) :
    let left := (c.load format buffer).2.2
    Related (.steady mask start) stack hasher left left :=
  (h.load (Optimizer.load_keepsMask mask (C := .configured start)
    (fun stats hc => ⟨hc.1 ▸ rfl, hc.2.withStats stats⟩) format) buffer).2.2

/-! ## Runs -/

section

variable {mask : UInt64} {start : NarrowContext} {stack : Stack Float32} {hasher : FeatureHasher}

/-- What calls keep, events keep, if the ends of passes and loads do. -/
theorem WorkspaceRel.echoes_keep {B : Bond Float32 Float}
    (hpass : ∀ {c}, Chain.Related B stack hasher c c →
      Chain.Related B stack hasher c.endPass c.endPass)
    (hload : ∀ {c}, Chain.Related B stack hasher c c → ∀ (format : ModelFormat) buffer,
      let left := (c.load format buffer).2.2
      Chain.Related B stack hasher left left)
    (S : WorkspaceRel (Chain.Related B stack hasher)) (hstack : stack.Scored)
    {w : Workspace Float32 Float} (h : S.rel w w) (events : List Workspace.Event) :
    S.rel (w.echoes events).2 (w.echoes events).2 := by
  induction events generalizing w with
  | nil => exact h
  | cons event rest ih =>
    cases event with
    | call request => exact ih (answer_eq hstack h request).2
    | endPass => exact ih (S.onChain h (hpass (S.chain h)))
    | save format => exact ih h
    | load format bytes => exact ih (S.onChain h (hload (S.chain h) format (.ofBytes bytes)))

theorem WorkspaceRel.echoes_steady
    (S : WorkspaceRel (Chain.Related (.steady mask start) stack hasher)) (hstack : stack.Scored)
    {w : Workspace Float32 Float} (h : S.rel w w) (events : List Workspace.Event) :
    S.rel (w.echoes events).2 (w.echoes events).2 :=
  echoes_keep (fun h => h.endPass_steady) (fun h format buffer => h.load_steady format buffer) S
    hstack h events

end

namespace Workspace

section

variable {c : Config R} {w : Workspace R W}

theorem Fresh.steady (h : Fresh c w) :
    ∃ (mask : UInt64) (hasher : FeatureHasher), w.chain.stack.Scored ∧
      Chain.Related (.steady mask w.chain.context) w.chain.stack hasher w.chain w.chain := by
  obtain ⟨p, decoder, stack, hasher, -, hstack, hrelated⟩ := h.related
  have hcontext : p.context = w.chain.context :=
    Except.ok.inj (p.context_eq.symm.trans h.context_eq)
  have hself := hrelated (.steady p.optimizer.weights.mask w.chain.context) ⟨rfl, rfl⟩
    ⟨rfl, hcontext ▸ rfl⟩ rfl
  rw [hself.stack_eq.1]
  exact ⟨_, hasher, hstack, hself⟩

end

variable {c : Config Float32} {w₀ : Workspace Float32 Float}

theorem reached (hnew : Workspace.new c = .ok w₀) (events : List Event) :
    ∃ (mask : UInt64) (hasher : FeatureHasher), w₀.chain.stack.Scored ∧
      Logged (.steady mask w₀.chain.context) w₀.chain.stack hasher (w₀.echoes events).2
        (w₀.echoes events).2 := by
  have hfresh := fresh_of_new hnew
  obtain ⟨mask, hasher, hstack, hself⟩ := hfresh.steady
  exact ⟨mask, hasher, hstack,
    WorkspaceRel.logged.echoes_steady hstack (hfresh.logged hself) events⟩

theorem stack_reached (hnew : Workspace.new c = .ok w₀) (events : List Event) :
    (w₀.echoes events).2.chain.stack = w₀.chain.stack := by
  obtain ⟨_, _, -, hself⟩ := reached hnew events
  exact hself.chain.stack_eq.1

theorem configured_reached (hnew : Workspace.new c = .ok w₀) (events : List Event) :
    w₀.chain.context.Configured (w₀.echoes events).2.chain.context := by
  obtain ⟨_, _, -, hself⟩ := reached hnew events
  exact hself.chain.context.2

theorem holdoutOff_reached (hnew : Workspace.new c = .ok w₀) (events : List Event) :
    (w₀.echoes events).2.chain.context.holdoutOff = c.run.holdoutOff :=
  (configured_reached hnew events).holdoutOff.trans
    (Config.holdoutOff_of_initialContext (fresh_of_new hnew).context_eq)

theorem journal_reached (hlog : c.run.progressLog = "") (hnew : Workspace.new c = .ok w₀)
    (events : List Event) : (w₀.echoes events).2.journal = none := by
  have hfresh := fresh_of_new hnew
  have hjournal := hfresh.journal_eq_none hlog
  obtain ⟨mask, hasher, hstack, hself⟩ := hfresh.steady
  exact (WorkspaceRel.silent.echoes_steady hstack ⟨hself, hjournal, hjournal⟩ events).journal

end Workspace

end OnlineLearning
