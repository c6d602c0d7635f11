import OnlineLearning.Proofs.Reached

/-!
# What outlives calls, passes and loads

Calls, ends of passes and loads write groups, totals and statistics. All else that an optimizer and a
context consist of comes from the configuration, in every state that a workspace gets to, and so one
such workspace can read the model of another one.

* `Optimizer.Configured`: optimizers that differ in what is written;
* `Bond.kept` relates such an optimizer to itself, in contexts of which something stays true;
* `Chain.Related.load_saved`: what is made of a chain by the model of another one;
* `Workspace.configured`: every state that a workspace gets to is related so.
-/

namespace OnlineLearning

section

variable {R W : Type} [Scalar R] [Number W] [Widening R W]

/-! ## Optimizers -/

namespace Optimizer

/-- What calls, ends of passes and loads leave of the optimizer that they started with. -/
def Configured (start o : Optimizer R W) : Prop :=
  ∃ (t : WeightTable R start.mode.width) (stalls : UInt32) (size : UInt64)
    (totalWeight normalizedSumNorm : W) (averageSquaredNorm : R),
    o = { start with
      weights := t, stalls, size, totalWeight, normalizedSumNorm, averageSquaredNorm } ∧
      t.mask = start.weights.mask

variable {start o o' : Optimizer R W}

omit [Scalar R] [Number W] [Widening R W] in
theorem Configured.refl (o : Optimizer R W) : Configured o o := ⟨_, _, _, _, _, _, rfl, rfl⟩

omit [Scalar R] [Number W] [Widening R W] in
theorem Configured.mask (h : Configured start o) : o.weights.mask = start.weights.mask := by
  obtain ⟨t, _, _, _, _, _, rfl, ht⟩ := h
  exact ht

omit [Scalar R] [Number W] [Widening R W] in
theorem Configured.mode (h : Configured start o) : o.mode = start.mode := by
  obtain ⟨_, _, _, _, _, _, rfl, -⟩ := h
  rfl

omit [Scalar R] [Number W] [Widening R W] in
theorem Configured.trans (h : Configured start o) (h' : Configured o o') : Configured start o' := by
  obtain ⟨t, _, _, _, _, _, rfl, ht⟩ := h
  obtain ⟨t', _, _, _, _, _, rfl, ht'⟩ := h'
  exact ⟨t', _, _, _, _, _, rfl, ht'.trans ht⟩

omit [Scalar R] [Number W] [Widening R W] in
/-- Optimizers with one start differ in what is written. -/
theorem Configured.of_start (h : Configured start o) (h' : Configured start o') :
    Configured o o' := by
  obtain ⟨t, _, _, _, _, _, rfl, ht⟩ := h
  obtain ⟨t', _, _, _, _, _, rfl, ht'⟩ := h'
  exact ⟨t', _, _, _, _, _, rfl, ht'.trans ht.symm⟩

omit [Number W] [Widening R W] in
theorem Touched.configured (h : Touched (fun _ => True) o o') : Configured o o' := by
  obtain ⟨t, _, _, _, rfl, ht⟩ := h
  exact ⟨t, _, _, _, _, _, rfl, ht.mask⟩

theorem endPass_configured (o : Optimizer R W) (context : Context R W) :
    Configured o (o.endPass context).1 := by
  unfold endPass
  split
  · exact .refl o
  · exact ⟨_, _, _, _, _, _, rfl, rfl⟩

theorem learner_configured {C : ContextRel R W} (hC : ∀ c c', C.rel c c' → c' = c) {p : R → Prop}
    (start : Optimizer R W) :
    learner.Alike (Same (Configured start)) C (Region.whole start.weights.mask) p learner :=
  learner_keeps_touched hC (fun _ h => h.mask) fun h h' => h.trans h'.configured

end Optimizer

/-! ## Contexts -/

/-- What is true of contexts and stays true whatever calls write into their statistics. -/
structure Context.Lasting (P : Context R W → Prop) : Prop where
  coverLabel : ∀ c label, P c → P (c.coverLabel label)
  recordLoss : ∀ c holdout loss weight label, P c →
    P { c with stats := c.stats.recordLoss holdout loss weight label }
  recordExample : ∀ c features, P c → P { c with stats := c.stats.recordExample features }
  dump : ∀ c, P c → P { c with stats := { c.stats with sumLossSinceLastDump := 0 } }

theorem Context.lasting_configured (start : Context R W) : Lasting start.Configured where
  coverLabel _ label h := h.coverLabel label
  recordLoss _ _ _ _ _ h := h.withStats _
  recordExample _ _ h := h.withStats _
  dump _ h := h.withStats _

theorem Context.lasting_true : Lasting fun _ : Context R W => True where
  coverLabel _ _ _ := trivial
  recordLoss _ _ _ _ _ _ := trivial
  recordExample _ _ _ := trivial
  dump _ _ := trivial

/-- The relation of runs in one context, of which something lasting is true. -/
def ContextRel.lasting {P : Context R W → Prop} (hP : Context.Lasting P) : ContextRel R W :=
  within P hP.coverLabel hP.recordLoss

/-! ## The bond -/

/-- The relation of one optimizer to itself, in one context of which `P` is true, above decoders in
contexts of which `Q` is true. -/
def Bond.kept (start : Optimizer R W) {P Q : Context R W → Prop} (hP : Context.Lasting P)
    (hQ : Context.Lasting Q) : Bond R W where
  mask := start.weights.mask
  node := Same (Optimizer.Configured start)
  primary := .lasting hP
  decoder := .lasting hQ
  primary_alike := Optimizer.learner_configured (C := .lasting hP) (fun _ _ h => h.1) start
  decoder_alike := Optimizer.learner_configured (C := .lasting hQ) (fun _ _ h => h.1) start
  stats h := h.1 ▸ rfl
  holdoutOff h := h.1 ▸ rfl
  count features h := ⟨h.1 ▸ rfl, hP.recordExample _ features h.2⟩
  dump h := ⟨h.1 ▸ rfl, hP.dump _ h.2⟩

variable {start : Optimizer R W} {P Q : Context R W → Prop} {hP : Context.Lasting P}
  {hQ : Context.Lasting Q} {stack : Stack R} {hasher : FeatureHasher} {c : Chain R W}

theorem Chain.Related.endPass_kept
    (hpass : ∀ (o : Optimizer R W) c, P c →
      P (o.endPass { c with currentPass := c.currentPass + 1 }).2)
    (h : Related (.kept start hP hQ) stack hasher c c) :
    Related (.kept start hP hQ) stack hasher c.endPass c.endPass :=
  h.endPass id ⟨⟨rfl, h.optimizer.holds.trans (Optimizer.endPass_configured _ _)⟩, rfl,
    hpass _ _ h.context.2⟩

end

/-! ## Loads -/

open LoadM (Alike Reads)

section

variable {start : Optimizer Float32 Float} {P Q : NarrowContext → Prop}
  {hP : Context.Lasting P} {hQ : Context.Lasting Q} {stack : Stack Float32}
  {hasher : FeatureHasher} {c c' : Chain Float32 Float}

/-- Any load, also one that fails, keeps what statistics have no part in. -/
theorem Chain.Related.load_kept (hstats : ∀ c stats, P c → P { c with stats })
    (h : Related (.kept start hP hQ) stack hasher c c) (format : ModelFormat)
    (buffer : ModelBuffer) :
    let left := (c.load format buffer).2.2
    Related (.kept start hP hQ) stack hasher left left :=
  (h.load (Optimizer.load_keeps (C := .lasting hP)
    (fun _ t _ _ _ _ ho ht => ho.trans ⟨t, _, _, _, _, _, rfl, ht⟩)
    (fun stats hc => ⟨hc.1 ▸ rfl, hstats _ stats hc.2⟩) format) buffer).2.2

/-- An optimizer reads the model of another one with the same start. The context gets its statistics
where they are part of the model, and then the model of what is made is the same again. -/
theorem Optimizer.Configured.reads_load {o o' : Optimizer Float32 Float}
    (h : Optimizer.Configured start o) (h' : Optimizer.Configured start o')
    (hmask : start.weights.mask.toNat < 2 ^ 32) (c c' : NarrowContext) :
    ∃ left, Reads (Optimizer.load .binary) (o.fields c) (o', c') ()
        (left, if c.saveResume then { c' with stats := c.stats } else c') ∧
      Optimizer.Configured start left ∧
      (c.saveResume = true → ∀ c'' : NarrowContext, c''.saveResume = true → c''.stats = c.stats →
        left.fields c'' = o.fields c) := by
  rw [← h.mask] at hmask
  cases hresume : c.saveResume with
  | true =>
    obtain ⟨t, stalls, size, totalWeight, normalizedSumNorm, average, rfl, ht⟩ := h.of_start h'
    have hreads := Optimizer.reads_load hmask hresume t stalls size totalWeight normalizedSumNorm
      average c'
    rw [if_pos rfl]
    refine ⟨_, hreads, h.trans ⟨_, _, _, _, _, _, rfl, (WeightTable.mask_restore _ _).trans ht⟩, ?_⟩
    intro _ c'' hresume' hstats
    have hgroups := WeightTable.nonZeroGroups_restore_clear
      (WeightTable.isNonZero_zeroGroup _) ht
    unfold Optimizer.fields WeightTable.fields Optimizer.refreshAverage
    dsimp only
    rw [hresume, hresume', hstats, hgroups]
  | false =>
    obtain ⟨t, stalls, size, totalWeight, normalizedSumNorm, average, rfl, ht⟩ := h'.of_start h
    have hreads := Optimizer.reads_loadParams (o := o') hmask hresume stalls size totalWeight
      normalizedSumNorm average c'
    rw [if_neg Bool.false_ne_true]
    exact ⟨_, hreads, h'.trans ⟨_, _, _, _, _, _, rfl, WeightTable.mask_restore _ _⟩,
      fun htrue => absurd htrue Bool.false_ne_true⟩

/-- What a load makes of the state of a tower is related as the optimizer is that it makes. -/
theorem Tower.Related.loaded_self {B : Bond Float32 Float} {t : Tower Float32}
    {s s' : t.State Float} (h' : t.Related B s' s') {o : Optimizer Float32 Float}
    (hnode : B.node o o) : t.Related B (t.loaded o s s') (t.loaded o s s') := by
  induction t with
  | bandit _ => exact hnode
  | grounded _ _ _ primary ih => exact ⟨h'.decoderContext, rfl, ih h'.node⟩

/-- The counters of a tower are loaded, and so are the fields of the optimizer. -/
theorem Tower.fields_loaded {t : Tower Float32} {s s' : t.State Float}
    {o : Optimizer Float32 Float} {c c' : NarrowContext}
    (h : o.fields c' = (t.optimizer s).fields c) : t.fields (t.loaded o s s') c' = t.fields s c := by
  induction t with
  | bandit _ => exact h
  | grounded _ _ _ primary ih =>
    unfold Tower.fields
    exact congrArg _ (ih h)

/-- What is made of a chain by the model of another one: the load takes all bytes, the statistics
become those of the model where they are part of it, and then both have one model. -/
theorem Chain.Related.load_saved (hmask : start.weights.mask.toNat < 2 ^ 32)
    (hstats : ∀ c c', P c → P c' → P { c' with stats := c.stats })
    (h : Related (.kept start hP hQ) stack hasher c c)
    (h' : Related (.kept start hP hQ) stack hasher c' c') :
    let bytes := (c.save .binary).bytes
    ∃ left, c'.load .binary (.ofBytes bytes) = (.ok (), ⟨bytes, [], ""⟩, left) ∧
      Related (.kept start hP hQ) stack hasher left left ∧
      (c.context.saveResume = true → c'.context.saveResume = true → left.fields = c.fields) := by
  obtain ⟨o, hreads, ho, hfields⟩ := h.optimizer.holds.reads_load h'.optimizer.holds hmask c.context
    c'.context
  have hcontext : P (if c.context.saveResume then { c'.context with stats := c.context.stats } else
      c'.context) := by
    split
    · exact hstats _ _ h.context.2 h'.context.2
    · exact h'.context.2
  cases h with
  | @intro _ _ context _ hs _ =>
    cases h' with
    | @intro _ _ context' _ hs' _ =>
      refine ⟨_, Chain.load_save hreads, ⟨?_, rfl, hcontext⟩, fun hresume hresume' => ?_⟩
      · cases stack with
        | line l => exact ⟨rfl, ho⟩
        | tower t => exact Tower.Related.loaded_self hs' ⟨rfl, ho⟩
      · rw [if_pos hresume]
        have hoptimizer := hfields hresume { context' with stats := context.stats } hresume' rfl
        cases stack with
        | line l => exact hoptimizer
        | tower t => exact Tower.fields_loaded hoptimizer

end

/-! ## Workspaces -/

/-- Related workspaces of the configuration `c`. -/
def WorkspaceRel.ofConfig {R W : Type} [Scalar R] [Number W] [Widening R W] (c : Config R)
    {K : Chain R W → Chain R W → Prop} (S : WorkspaceRel K) : WorkspaceRel K where
  rel w w' := S.rel w w' ∧ w.config = c ∧ w'.config = c
  chain h := S.chain h.1
  onChain h hchain := ⟨S.onChain h.1 hchain, h.2⟩
  tally label prediction features h :=
    ⟨(S.tally label prediction features h.1).1, (S.tally label prediction features h.1).2, h.2⟩

namespace Workspace

variable {c : Config Float32} {w₀ : Workspace Float32 Float}

/-- The workspaces that come from one new workspace have one configuration, and their chains differ
in what is written. -/
theorem configured (hnew : Workspace.new c = .ok w₀) :
    ∃ (p : c.Parts Float) (hasher : FeatureHasher), p.context = w₀.chain.context ∧
      ∀ events,
        let w := (w₀.echoes events).2
        w.config = c ∧
          Chain.Related (.kept p.optimizer (Context.lasting_configured p.context)
            Context.lasting_true) w₀.chain.stack hasher w.chain w.chain := by
  have hfresh := fresh_of_new hnew
  obtain ⟨p, decoder, stack, hasher, -, hstack, hrelated⟩ := hfresh.related
  have hcontext : p.context = w₀.chain.context :=
    Except.ok.inj (p.context_eq.symm.trans hfresh.context_eq)
  have hself := hrelated (.kept p.optimizer (Context.lasting_configured p.context)
    Context.lasting_true) ⟨rfl, .refl _⟩ ⟨rfl, rfl⟩ ⟨rfl, trivial⟩
  have hconfig : w₀.config = c := by cases hfresh <;> rfl
  refine ⟨p, hasher, hcontext, fun events => ?_⟩
  rw [hself.stack_eq.1]
  obtain ⟨hlogged, -, hleft⟩ := (WorkspaceRel.logged.ofConfig c).echoes_keep
    (fun h => h.endPass_kept (P := p.context.Configured) fun o _ hc => hc.endPass o)
    (fun h => h.load_kept (P := p.context.Configured) fun _ stats hc => hc.withStats stats) hstack
    ⟨hfresh.logged hself, hconfig, hconfig⟩ events
  exact ⟨hleft, hlogged.chain⟩

end Workspace

end OnlineLearning
