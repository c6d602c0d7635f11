import OnlineLearning.Proofs.Guards
import OnlineLearning.Proofs.Histories

/-!
# Predictions within bounds

In a workspace that serves calls, closes passes and takes models of workspaces of its kind, the
bounds of all contexts are around zero, and no guard ever fails: all predictions that are written
are within the bounds of their moment, and so is all that the squared loss is taken of.

* `Chain.Unhindered`: the calls of a chain are those of the chain with guards;
* `Context.SpansBeyond`: bounds around zero that are as wide as those of another context, or wider;
* `Workspace.Served` are the workspaces that serve so;
* `Workspace.predictions_bounded`: their bounds, and what these are good for.
-/

namespace OnlineLearning

/-! ## Chains -/

section

variable {R W : Type} [Scalar R] [Number W] [Widening R W]

/-- Two runs of a tower that differ at most in examples for reuse. -/
structure Tower.SameRun (t : Tower R)
    (run run' : Except LearnerError Unit × Frame R W (t.State W) (Batch R)) : Prop where
  outcome : run'.1 = run.1
  optimizer : t.optimizer run'.2.node = t.optimizer run.2.node
  decoderContexts : (t.groundedStates run'.2.node).map GroundedState.decoderContext =
    (t.groundedStates run.2.node).map GroundedState.decoderContext
  counters : (t.groundedStates run'.2.node).map GroundedState.counters =
    (t.groundedStates run.2.node).map GroundedState.counters
  context : run'.2.context = run.2.context
  input : run'.2.input = run.2.input

/-- Every call of a chain goes as it does with guards that fail with `fault`. -/
def Chain.Unhindered (fault : LearnerError) : Chain R W → Prop
  | ⟨.line l, o, context, _⟩ => ∀ learning ec,
    ((l.guarded fault).call learning).runOn ⟨o, context, ec⟩ =
      ((l.learner).call learning).runOn ⟨o, context, ec⟩
  | ⟨.tower t, state, context, _⟩ => ∀ learning batch,
    t.SameRun ((t.learner.call learning).runOn ⟨state, context, batch⟩)
      (((t.guarded fault).call learning).runOn ⟨state, context, batch⟩)

/-- Whether predictions are judged by one scorer on the way to the upmost node. -/
def Stack.Judged : Stack R → Prop
  | line l => ∃ link, l.links = [link]
  | tower t => t.Judged

theorem Workspace.Fresh.judged {c : Config R} {w : Workspace R W} (h : Fresh c w) :
    w.chain.stack.Judged := by
  cases h with
  | line p _ => exact ⟨_, rfl⟩
  | bandit p _ _ => exact ⟨_, rfl⟩
  | grounded p _ _ _ _ _ => exact ⟨List.cons_ne_nil _ _, _, rfl⟩

end

section

variable {start : Optimizer Float32 Float} {P Q : NarrowContext → Prop}
  {hP : Context.Lasting P} {hQ : Context.Lasting Q} {stack : Stack Float32}
  {hasher : FeatureHasher} {c : Chain Float32 Float}

theorem Chain.Related.unhindered (h : Related (.kept start hP hQ) stack hasher c c)
    (hstack : stack.Judged) (hspans : ∀ {c}, P c → c.Spans)
    (hlogistic : ∀ {c}, Q c → c.Spans ∧ c.loss = .logistic) (fault : LearnerError) :
    c.Unhindered fault := by
  obtain @⟨state, _, context, _, hstate, hcontext⟩ := h
  cases stack with
  | line l =>
    obtain ⟨link, hlinks⟩ := hstack
    have hmirrors := Line.guarded_mirrors hP hspans hlinks fault
    intro learning ec
    cases learning with
    | false => exact (hmirrors.predict ⟨state, context, ec⟩ hcontext.2).1
    | true => exact (hmirrors.learn ⟨state, context, ec⟩ hcontext.2).1
  | tower t =>
    have halike : (t.learner : Learner Float32 Float _ _).Alike (t.Related (.kept start hP hQ))
        (.lasting hP) (Region.whole start.weights.mask) (t.guarded fault) :=
      Tower.guarded_alike hstack hspans hlogistic fault
    intro learning batch
    have hstart : Agree (t.Related (.kept start hP hQ)) (.lasting hP)
        (Batch.Marked .same (Region.whole start.weights.mask)) ⟨state, context, batch⟩
        ⟨state, context, batch⟩ := ⟨hstate, hcontext, .refl fun ec _ => Region.holds_whole ec⟩
    obtain ⟨hout, hleft⟩ :
        ((t.learner.call learning).runOn ⟨state, context, batch⟩).1 =
            (((t.guarded fault).call learning).runOn ⟨state, context, batch⟩).1 ∧
          Agree (t.Related (.kept start hP hQ)) (.lasting hP)
            (Batch.Marked .same (Region.whole start.weights.mask))
            ((t.learner.call learning).runOn ⟨state, context, batch⟩).2
            (((t.guarded fault).call learning).runOn ⟨state, context, batch⟩).2 := by
      cases learning with
      | false => exact halike.predict .same _ _ hstart
      | true => exact halike.learn Marks.teachable_same _ _ hstart
    exact ⟨hout.symm, hleft.node.optimizer.eq,
      hleft.node.map_groundedStates fun _ _ hdecoder _ => hdecoder.1,
      hleft.node.map_groundedStates fun _ _ _ hcounters => hcounters, hleft.context.1,
      hleft.input.eq⟩

/-- The relation of a chain to itself speaks of contexts by what is true of them only. -/
theorem Tower.Related.imp {B B' : Bond Float32 Float} {t : Tower Float32} {s s' : t.State Float}
    (h : t.Related B s s') (hnode : ∀ {o o'}, B.node o o' → B'.node o o')
    (hdecoder : ∀ {c c'}, B.decoder.rel c c' → B'.decoder.rel c c') : t.Related B' s s' := by
  induction t with
  | bandit _ => exact hnode h
  | grounded _ _ _ primary ih =>
    exact ⟨hdecoder h.decoderContext, h.counters, ih h.node⟩

theorem Chain.Related.setContext {P' : NarrowContext → Prop}
    (h : Related (.kept start hP hQ) stack hasher c c) (hP' : Context.Lasting P')
    (hc : P' c.context) :
    Related (.kept start hP' hQ) stack hasher c c := by
  cases h with
  | intro hstate _ =>
    refine ⟨?_, rfl, hc⟩
    cases stack with
    | line l => exact hstate
    | tower t => exact Tower.Related.imp hstate id id

end

/-! ## What is written into statistics -/

namespace Context

variable {start c : NarrowContext}

/-- Bounds around zero that are at least as wide as those of another context. -/
structure SpansBeyond (start c : NarrowContext) : Prop where
  spans : c.Spans
  widens : start.Widens c

theorem SpansBeyond.withStats (h : start.SpansBeyond c) {stats : Stats Float32 Float}
    (hmin : stats.minLabel = c.stats.minLabel) (hmax : stats.maxLabel = c.stats.maxLabel) :
    start.SpansBeyond { c with stats } :=
  ⟨⟨hmin ▸ h.spans.minLabel, hmax ▸ h.spans.maxLabel⟩,
    ⟨hmin ▸ h.widens.minLabel, hmax ▸ h.widens.maxLabel⟩⟩

theorem SpansBeyond.coverLabel (h : start.SpansBeyond c) (label : Float32) :
    start.SpansBeyond (c.coverLabel label) := by
  obtain ⟨hspans, hwidens⟩ := h.spans.coverLabel label
  exact ⟨hspans, le_of_le_of_le hwidens.minLabel h.widens.minLabel,
    le_of_le_of_le h.widens.maxLabel hwidens.maxLabel⟩

theorem SpansBeyond.recordLoss (h : start.SpansBeyond c) (holdout : Bool)
    (loss weight label : Float32) :
    start.SpansBeyond { c with stats := c.stats.recordLoss holdout loss weight label } := by
  cases holdout with
  | false => exact h.withStats rfl rfl
  | true => exact h.withStats rfl rfl

theorem SpansBeyond.endPass (h : start.SpansBeyond c) (o : Optimizer Float32 Float) :
    start.SpansBeyond (o.endPass { c with currentPass := c.currentPass + 1 }).2 := by
  have hpass : start.SpansBeyond { c with currentPass := c.currentPass + 1 } :=
    ⟨⟨h.spans.minLabel, h.spans.maxLabel⟩, ⟨h.widens.minLabel, h.widens.maxLabel⟩⟩
  unfold Optimizer.endPass
  split
  · exact hpass
  · obtain ⟨hmin, hmax⟩ := c.stats.labels_closeHoldoutWindow (c.currentPass + 1) o.stalls
    have hclosed := hpass.withStats hmin hmax
    exact ⟨⟨hclosed.spans.minLabel, hclosed.spans.maxLabel⟩,
      ⟨hclosed.widens.minLabel, hclosed.widens.maxLabel⟩⟩

theorem lasting_spansBeyond (start : NarrowContext) : Lasting start.SpansBeyond where
  coverLabel _ label h := h.coverLabel label
  recordLoss _ holdout loss weight label h := h.recordLoss holdout loss weight label
  recordExample _ _ h := h.withStats rfl rfl
  dump _ h := h.withStats rfl rfl

theorem lasting_measures {start : NarrowContext} (hloss : start.loss = .logistic) :
    Lasting start.Measures where
  coverLabel _ label h := h.coverLabel hloss label
  recordLoss _ holdout loss weight label h := h.recordLoss holdout loss weight label
  recordExample _ _ h := ⟨h.loss, h.interactions, h.minLabel, h.maxLabel⟩
  dump _ h := ⟨h.loss, h.interactions, h.minLabel, h.maxLabel⟩

end Context

/-! ## Workspaces -/

/-- The contexts of a chain: its own, and that of the decoder if there is one. -/
def Chain.contexts {R W : Type} (c : Chain R W) : List (Context R W) :=
  c.context :: (c.grounded?.map GroundedState.decoderContext).toList

section

variable {start : Optimizer Float32 Float} {P P' Q : NarrowContext → Prop}
  {hP : Context.Lasting P} {hP' : Context.Lasting P'} {hQ : Context.Lasting Q}
  {stack : Stack Float32} {hasher : FeatureHasher} {c c' : Chain Float32 Float}

/-- What holds of the context of a chain and of those of decoders holds of all contexts. -/
theorem Chain.Related.forall_contexts (h : Related (.kept start hP hQ) stack hasher c c)
    {T : NarrowContext → Prop} (hchain : ∀ {d}, P d → T d) (hdecoder : ∀ {d}, Q d → T d) :
    ∀ context ∈ c.contexts, T context := by
  obtain ⟨hstate, hcontext⟩ := h
  refine List.forall_mem_cons.mpr ⟨hchain hcontext.2, ?_⟩
  cases stack with
  | line _ => exact nofun
  | tower t =>
    cases t with
    | bandit _ => exact nofun
    | grounded _ _ _ _ => exact List.forall_mem_singleton.mpr (hdecoder hstate.decoderContext.2)

/-- Two chains with one stack have the same kinds of contexts. -/
theorem Chain.Related.forall₂_contexts (h : Related (.kept start hP hQ) stack hasher c c)
    (h' : Related (.kept start hP' hQ) stack hasher c' c')
    {T : NarrowContext → NarrowContext → Prop} (hchain : T c.context c'.context)
    (hdecoder : ∀ {d d'}, Q d → Q d' → T d d') : List.Forall₂ T c.contexts c'.contexts := by
  obtain ⟨hstate, -⟩ := h
  obtain ⟨hstate', -⟩ := h'
  refine .cons hchain ?_
  cases stack with
  | line _ => exact .nil
  | tower t =>
    cases t with
    | bandit _ => exact .nil
    | grounded _ _ _ _ =>
      exact .cons (hdecoder hstate.decoderContext.2 hstate'.decoderContext.2) .nil

end

namespace Context

variable {start c c' : NarrowContext}

theorem Spans.of_measures (hstart : start.Spans) (h : start.Measures c) : c.Spans :=
  ⟨h.minLabel ▸ hstart.minLabel, h.maxLabel ▸ hstart.maxLabel⟩

theorem Spans.widens_of_measures (hstart : start.Spans) (h : start.Measures c)
    (h' : start.Measures c') : c.Widens c' := by
  obtain ⟨hmin, hmax⟩ := (hstart.of_measures h).widens_self
  refine ⟨?_, ?_⟩
  · rw [h'.minLabel, ← h.minLabel]
    exact hmin
  · rw [h'.maxLabel, ← h.maxLabel]
    exact hmax

theorem Spans.ends (h : c.Spans) :
    Scalar.isNaN c.stats.minLabel = false ∧ Scalar.isNaN c.stats.maxLabel = false ∧
      c.stats.minLabel ≤ 0 ∧ 0 ≤ c.stats.maxLabel := by
  obtain ⟨hmin, hmax⟩ := not_isNaN_of_le h.ordered
  exact ⟨Bool.eq_false_iff.mpr (mt isNaN_iff.mp hmin), Bool.eq_false_iff.mpr (mt isNaN_iff.mp hmax),
    h.minLabel_le, h.le_maxLabel⟩

end Context

namespace Workspace

/-- The workspaces that `w₀` becomes by calls, by ends of passes, and by models of other workspaces
that it becomes. -/
inductive Served (w₀ : Workspace Float32 Float) : Workspace Float32 Float → Prop
  | start : Served w₀ w₀
  | step {w} (hw : Served w₀ w) (step : Step Float32) : Served w₀ (w.step step)
  | load {w w'} (hw : Served w₀ w) (hw' : Served w₀ w') :
    Served w₀ (w.load .binary w'.model).2

variable {c : Config Float32} {w₀ w : Workspace Float32 Float}

/-- In all workspaces that a new one becomes the bounds are at least as wide as they were. -/
theorem served_related (hnew : Workspace.new c = .ok w₀) :
    ∃ (p : c.Parts Float) (decoder : NarrowContext) (hloss : decoder.loss = .logistic)
      (hasher : FeatureHasher), decoder.Spans ∧ w₀.chain.stack.Scored ∧ ∀ {w}, Served w₀ w →
        Logged (.kept p.optimizer (Context.lasting_spansBeyond w₀.chain.context)
          (Context.lasting_measures hloss)) w₀.chain.stack hasher w w := by
  have hfresh := fresh_of_new hnew
  obtain ⟨p, decoder, _, hasher, ⟨hloss, hdecoder⟩, hstack, hrelated⟩ := hfresh.related
  have hcontext : p.context = w₀.chain.context :=
    Except.ok.inj (p.context_eq.symm.trans hfresh.context_eq)
  have hspans : w₀.chain.context.Spans := by
    rw [← hcontext]
    exact Context.spans_initial (Config.stats_of_initialContext p.context_eq) p.context
  have hbeyond : w₀.chain.context.SpansBeyond p.context := by
    rw [hcontext]
    exact ⟨hspans, hspans.widens_self⟩
  have hstart := hrelated (.kept p.optimizer (Context.lasting_spansBeyond w₀.chain.context)
    (Context.lasting_measures hloss)) ⟨rfl, .refl _⟩ ⟨rfl, hbeyond⟩ ⟨rfl, rfl, rfl, rfl, rfl⟩
  refine ⟨p, decoder, hloss, hasher, Context.spans_initial hdecoder decoder, ?_, fun hw => ?_⟩
  · rw [hstart.stack_eq.1]
    exact hstack
  · rw [hstart.stack_eq.1]
    induction hw with
    | start => exact hfresh.logged hstart
    | step _ step ih =>
      exact step_keeps (fun h => h.endPass_kept fun o _ hc => hc.endPass o) .logged hstack ih step
    | @load w w' _ _ ih ih' =>
      obtain ⟨left, hload, hleft, -⟩ := ih'.chain.load_saved p.mask_lt
        (fun _ _ hc _ => ⟨⟨hc.spans.minLabel, hc.spans.maxLabel⟩,
          ⟨hc.widens.minLabel, hc.widens.maxLabel⟩⟩) ih.chain
      have hchain : (w.load .binary w'.model).2 = { w with chain := left } := by
        simp only [Workspace.load, model, hload]
      rw [hchain]
      exact WorkspaceRel.logged.onChain ih hleft

/-- In a workspace that has served anything the bounds of all contexts are numbers around zero, and
whatever it serves from there on, they only widen. Every call goes as it does with guards, whatever
these fail with: each prediction of the optimizer is a number within the bounds of its moment, and
what the squared loss and its derivative are taken of is within them. -/
theorem predictions_bounded (hnew : Workspace.new c = .ok w₀) (hw : Served w₀ w) :
    (∀ context ∈ w.chain.contexts, Scalar.isNaN context.stats.minLabel = false ∧
      Scalar.isNaN context.stats.maxLabel = false ∧ context.stats.minLabel ≤ 0 ∧
        0 ≤ context.stats.maxLabel) ∧
    (∀ past : List (Step Float32),
      List.Forall₂ Context.Widens w.chain.contexts (w.after past).chain.contexts) ∧
    ∀ fault, w.chain.Unhindered fault := by
  obtain ⟨p, decoder, hloss, hasher, hdecoder, hscored, hserved⟩ := served_related hnew
  have hrelated := hserved hw
  have hspans {d : NarrowContext} (hd : decoder.Measures d) : d.Spans := hdecoder.of_measures hd
  refine ⟨?_, fun past => ?_, fun fault => ?_⟩
  · exact hrelated.chain.forall_contexts (fun hd => hd.spans.ends) fun hd => (hspans hd).ends
  · -- from here on the bounds are those of `w` or beyond
    have hself := hrelated.chain.context.2.spans
    have hstart := hrelated.chain.setContext (Context.lasting_spansBeyond w.chain.context)
      ⟨hself, hself.widens_self⟩
    have hafter := after_keeps
      (fun h => h.endPass_kept (P := w.chain.context.SpansBeyond) fun o _ hd => hd.endPass o)
      .logged hscored ⟨hstart, hrelated.journal, hrelated.reachable⟩ past
    exact hstart.forall₂_contexts hafter.chain hafter.chain.context.2.widens
      fun hd hd' => hdecoder.widens_of_measures hd hd'
  · exact hrelated.chain.unhindered ((fresh_of_new hnew).judged) (fun hd => hd.spans)
      (fun hd => ⟨hspans hd, hd.loss.trans hloss⟩) fault

/-- A workspace with default settings that has learned from a batch, closed a pass and taken the
model of another one, which has learned from two batches. -/
theorem predictions_bounded_default :
    let w₀ := Config.defaultWorkspace
    let lesson : Step Float32 := .call (.learnBatch (clickBatch w₀.chain.hasher))
    let w := ((w₀.after [lesson, .endPass]).load .binary (w₀.after [lesson, lesson]).model).2
    (Workspace.new Config.defaultGrounded = .ok w₀ ∧ Served w₀ w) ∧
      (∀ context ∈ w.chain.contexts, Scalar.isNaN context.stats.minLabel = false ∧
        Scalar.isNaN context.stats.maxLabel = false ∧ context.stats.minLabel ≤ 0 ∧
          0 ≤ context.stats.maxLabel) ∧
      (∀ past : List (Step Float32),
        List.Forall₂ Context.Widens w.chain.contexts (w.after past).chain.contexts) ∧
      ∀ fault, w.chain.Unhindered fault := by
  intro w₀ lesson w
  have hserved : Served w₀ w :=
    .load (.step (.step .start lesson) .endPass) (.step (.step .start lesson) lesson)
  exact ⟨⟨Config.new_defaultGrounded, hserved⟩,
    predictions_bounded Config.new_defaultGrounded hserved⟩

end Workspace

end OnlineLearning
