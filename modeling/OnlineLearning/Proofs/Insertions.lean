import OnlineLearning.Proofs.Predictions
import OnlineLearning.Proofs.Reached

/-!
# Runs with calls put in

Predictions of unlabeled examples, predictions of batches, sensitivities and models that are written
only look. A run into which such calls are put goes on as it would have gone without them, but that
a prediction is counted as an example, and that a model with resume holds the counts.

* `Context.recount` changes the counts of a context, `Workspace.Recounted` relates workspaces that
  differ in them;
* `Workspace.Look` are the calls that may be put in, `Workspace.Cue` is what comes next in a run;
* `Workspace.Recounted.look` and `Workspace.Recounted.react` are the steps of the two runs;
* `Workspace.looks_unnoticed`: the echoes of a run's own events and the state that it ends in are
  the same with and without the calls put in, but for the counts;
* `Workspace.not_looks_unnoticed`: models that hold the counts do show them.
-/

namespace OnlineLearning

/-! ## Counts -/

section

variable {R W : Type} [Scalar R] [Number W] [Widening R W]

namespace Stats

omit [Scalar R] [Number W] [Widening R W] in
/-- Statistics with other counts of examples and features. -/
def recount (s : Stats R W) (examples features : UInt64) : Stats R W :=
  { s with exampleNumber := examples, totalFeatures := features }

omit [Scalar R] in
theorem recordLoss_recount (s : Stats R W) (examples features : UInt64) (holdout : Bool)
    (loss weight label : R) :
    (s.recount examples features).recordLoss holdout loss weight label =
      (s.recordLoss holdout loss weight label).recount examples features := by
  cases holdout <;> rfl

theorem closeHoldoutWindow_recount (s : Stats R W) (examples features pass : UInt64)
    (stalls : UInt32) :
    let closed := s.closeHoldoutWindow pass stalls
    (s.recount examples features).closeHoldoutWindow pass stalls =
      (closed.1, closed.2.1, closed.2.2.recount examples features) := by
  have hloss : (s.recount examples features).passLoss = s.passLoss := rfl
  have hbest : (s.recount examples features).holdoutBestLoss = s.holdoutBestLoss := rfl
  unfold closeHoldoutWindow
  rw [hloss, hbest]
  dsimp only
  split
  · rfl
  · split <;> rfl

end Stats

namespace Context

omit [Scalar R] [Number W] [Widening R W] in
/-- A context with other counts of examples and features. -/
def recount (c : Context R W) (examples features : UInt64) : Context R W :=
  { c with stats := c.stats.recount examples features }

omit [Number W] [Widening R W] in
theorem coverLabel_recount (c : Context R W) (examples features : UInt64) (label : R) :
    (c.recount examples features).coverLabel label =
      (c.coverLabel label).recount examples features := by
  have hloss : (c.recount examples features).loss = c.loss := rfl
  unfold coverLabel
  rw [hloss]
  split <;> rfl

omit [Scalar R] [Number W] [Widening R W] in
/-- Contexts of one configuration that differ in nothing but the counts. -/
def Recounted (start c c' : Context R W) : Prop :=
  start.Configured c ∧ ∃ examples features, c' = c.recount examples features

variable {start c c' : Context R W}

omit [Scalar R] [Number W] [Widening R W] in
theorem Recounted.withStats (h : start.Recounted c c') (stats : Stats R W) :
    start.Recounted { c with stats } { c' with stats } := by
  obtain ⟨h, _, _, rfl⟩ := h
  exact ⟨h.withStats stats, stats.exampleNumber, stats.totalFeatures, rfl⟩

omit [Scalar R] [Number W] [Widening R W] in
/-- Counts may change on either side. -/
theorem Recounted.recount (h : start.Recounted c c')
    (examples features examples' features' : UInt64) :
    start.Recounted (c.recount examples features) (c'.recount examples' features') := by
  obtain ⟨h, _, _, rfl⟩ := h
  exact ⟨h.withStats _, examples', features', rfl⟩

omit [Scalar R] [Number W] [Widening R W] in
theorem Recounted.recount_right (h : start.Recounted c c') (examples features : UInt64) :
    start.Recounted c (c'.recount examples features) := by
  obtain ⟨h, _, _, rfl⟩ := h
  exact ⟨h, examples, features, rfl⟩

end Context

/-- The relation of contexts that differ in nothing but the counts. -/
def ContextRel.recounted (start : Context R W) : ContextRel R W where
  rel := start.Recounted
  loss := by
    rintro _ _ ⟨-, _, _, rfl⟩
    rfl
  interactions := by
    rintro _ _ ⟨-, _, _, rfl⟩
    rfl
  minLabel := by
    rintro _ _ ⟨-, _, _, rfl⟩
    rfl
  maxLabel := by
    rintro _ _ ⟨-, _, _, rfl⟩
    rfl
  coverLabel label := by
    rintro ⟨h, examples, features, rfl⟩
    exact ⟨h.coverLabel label, examples, features, Context.coverLabel_recount _ _ _ label⟩
  recordLoss {c _} holdout loss weight label := by
    rintro ⟨h, examples, features, rfl⟩
    exact ⟨h.withStats _, examples, features, congrArg (fun stats => { c with stats })
      (c.stats.recordLoss_recount examples features holdout loss weight label)⟩

namespace Optimizer

theorem endPass_recount (o : Optimizer R W) (c : Context R W) (examples features : UInt64) :
    o.endPass (c.recount examples features) =
      ((o.endPass c).1, (o.endPass c).2.recount examples features) := by
  have hstats : (c.recount examples features).stats = c.stats.recount examples features := rfl
  have hoff : (c.recount examples features).holdoutOff = c.holdoutOff := rfl
  unfold endPass
  rw [hoff]
  split
  · rfl
  · rw [hstats, Stats.closeHoldoutWindow_recount]
    rfl

/-- Counts play no part in the end of a pass. -/
theorem endPass_recounted (o : Optimizer R W) {start c c' : Context R W}
    (h : start.Recounted c c') :
    let pass := o.endPass { c with currentPass := c.currentPass + 1 }
    let pass' := o.endPass { c' with currentPass := c'.currentPass + 1 }
    pass'.1 = pass.1 ∧ start.Recounted pass.2 pass'.2 := by
  intro pass pass'
  obtain ⟨hconfigured, examples, features, rfl⟩ := h
  have hpass : pass' = (pass.1, pass.2.recount examples features) :=
    o.endPass_recount { c with currentPass := c.currentPass + 1 } examples features
  rw [hpass]
  exact ⟨rfl, hconfigured.endPass o, examples, features, rfl⟩

end Optimizer

end

/-! ## Calls -/

section

variable {R W σ τ : Type} [Scalar R] [Number W] [Widening R W] {mask : UInt64} {N : σ → τ → Prop}
  {C : ContextRel R W} {r : Region mask}

theorem LineLearner.Alike.call {l : LineLearner R W σ} {l' : LineLearner R W τ}
    (h : l.Alike N C r (fun _ => True) l') (learning : Bool) :
    NodeM.Alike (Agree N C (Example.Marked .same r)) (Agree N C (Example.Marked .same r))
      (l.call learning) (l'.call learning) := by
  cases learning with
  | false => exact h.predict .same
  | true => exact h.learn.weaken (fun _ _ hframes => ⟨hframes, trivial⟩) fun _ _ hleft => hleft

theorem Learner.Alike.call {l : Learner R W σ (Batch R)} {l' : Learner R W τ (Batch R)}
    (h : l.Alike N C r l') (learning : Bool) :
    NodeM.Alike (Agree N C (Batch.Marked .same r)) (Agree N C (Batch.Marked .same r))
      (l.call learning) (l'.call learning) := by
  cases learning with
  | false => exact h.predict .same
  | true => exact h.learn Marks.teachable_same

end

/-! ## Chains -/

variable {mask : UInt64} {start : NarrowContext} {stack : Stack Float32} {hasher : FeatureHasher}

namespace Chain

/-- Chains of one stack in one state, but for the counts and the examples for reuse. -/
inductive Recounted (mask : UInt64) (start : NarrowContext) (stack : Stack Float32)
    (hasher : FeatureHasher) : Chain Float32 Float → Chain Float32 Float → Prop
  | intro {state state' : stack.State Float} {context context' : NarrowContext}
      (hstate : stack.Related (.steady mask start) state state')
      (hcontext : start.Recounted context context') :
    Recounted mask start stack hasher ⟨stack, state, context, hasher⟩
      ⟨stack, state', context', hasher⟩

variable {c c' : Chain Float32 Float}

theorem Recounted.of_steady (h : Related (.steady mask start) stack hasher c c) :
    Recounted mask start stack hasher c c := by
  obtain ⟨hstate, hcontext⟩ := h
  exact ⟨hstate, hcontext.2, _, _, rfl⟩

theorem Recounted.context (h : Recounted mask start stack hasher c c') :
    start.Recounted c.context c'.context := by
  obtain ⟨-, hcontext⟩ := h
  exact hcontext

theorem Recounted.optimizer (h : Recounted mask start stack hasher c c') :
    c'.optimizer = c.optimizer := by
  obtain ⟨hstate, -⟩ := h
  cases stack with
  | line l => exact Same.eq hstate
  | tower t => exact (Tower.Related.optimizer hstate).eq

theorem Recounted.map_grounded? (h : Recounted mask start stack hasher c c') {β : Type}
    {f : GroundedState Float32 Float → β} (hf : ∀ g g', g'.decoderContext = g.decoderContext →
      g'.counters = g.counters → f g' = f g) : c'.grounded?.map f = c.grounded?.map f := by
  obtain ⟨hstate, -⟩ := h
  cases stack with
  | line l => rfl
  | tower t =>
    have hhead := congrArg List.head?
      (Tower.Related.map_groundedStates hstate fun g g' hdecoder => hf g g' hdecoder.symm)
    rwa [List.head?_map, List.head?_map] at hhead

theorem Recounted.endPass (h : Recounted mask start stack hasher c c') :
    Recounted mask start stack hasher c.endPass c'.endPass := by
  obtain @⟨state, state', context, context', hstate, hcontext⟩ := h
  cases stack with
  | line l =>
    have hnode : Same (fun o => o.weights.mask = mask) state state' := hstate
    obtain ⟨hout, hleft⟩ := Optimizer.endPass_recounted state hcontext
    have hend := endPass_line l state context hasher
    have hend' := endPass_line l state' context' hasher
    rw [hend, hend', hnode.eq]
    exact ⟨⟨hout, (Optimizer.mask_endPass _ _).trans hnode.holds⟩, hleft⟩
  | tower t =>
    have hnode := Tower.Related.optimizer hstate
    obtain ⟨hout, hleft⟩ := (t.optimizer state).endPass_recounted hcontext
    have hend := endPass_tower t state context hasher
    have hend' := endPass_tower t state' context' hasher
    rw [hend, hend', hnode.eq]
    exact ⟨Tower.Related.setOptimizer hstate id
      ⟨hout, (Optimizer.mask_endPass _ _).trans hnode.holds⟩, hleft⟩

theorem Recounted.load (h : Recounted mask start stack hasher c c') (format : ModelFormat)
    (buffer : ModelBuffer) :
    let run := c.load format buffer
    let run' := c'.load format buffer
    run'.1 = run.1 ∧ Recounted mask start stack hasher run.2.2 run'.2.2 := by
  obtain @⟨state, state', context, context', hstate, hcontext⟩ := h
  have hload := Optimizer.load_keepsMask mask (C := .recounted start)
    (fun stats hc => hc.withStats stats) format
  cases stack with
  | line l =>
    obtain ⟨hout, -, hleft⟩ := hload buffer (state, context) (state', context') ⟨hstate, hcontext⟩
    exact ⟨hout, hleft.1, hleft.2⟩
  | tower t =>
    obtain ⟨hout, -, hleft⟩ := Tower.load_alike_in (B := .steady mask start) hload t buffer
      (state, context) (state', context') ⟨hstate, hcontext⟩
    exact ⟨hout, hleft.1, hleft.2⟩

/-- The fields of a model are those of one chain, under any context that has the same fields. -/
theorem Recounted.fields_eq (h : Recounted mask start stack hasher c c') {context : NarrowContext}
    (hfields : ∀ o : Optimizer Float32 Float, o.fields c'.context = o.fields context) :
    c'.fields = ({ c with context } : Chain Float32 Float).fields := by
  obtain @⟨state, state', _, context', hstate, -⟩ := h
  cases stack with
  | line l =>
    have hnode : Same (fun o => o.weights.mask = mask) state state' := hstate
    change Optimizer.fields state' context' = _
    rw [hnode.eq]
    exact hfields state
  | tower t =>
    refine Tower.Related.fields_eq hstate fun hnode => ?_
    rw [hnode.eq]
    exact hfields _

end Chain

namespace Workspace

/-! ## Echoes and states -/

/-- Echoes that are the same, but for models with resume: there the chain that is saved may have
other counts. -/
inductive Echo.Recounted (resume : Bool) : Echo → Echo → Prop
  | same (echo : Echo) : Recounted resume echo echo
  | model (hresume : resume = true) (c : Chain Float32 Float) (format : ModelFormat)
      (examples features : UInt64) :
    Recounted resume (.model (c.save format))
      (.model (({ c with context := c.context.recount examples features } :
        Chain Float32 Float).save format))

/-- Without resume a model does not hold the counts. -/
theorem Echo.recounted_save {c c' : Chain Float32 Float}
    (h : Chain.Recounted mask start stack hasher c c') (format : ModelFormat) :
    Echo.Recounted start.saveResume (.model (c.save format)) (.model (c'.save format)) := by
  have hecho (context : NarrowContext) (hfields : ∀ o : Optimizer Float32 Float,
        o.fields c'.context = o.fields context) :
      Echo.model (c'.save format) =
        .model (({ c with context } : Chain Float32 Float).save format) :=
    congrArg (fun fields => Echo.model (ModelBuffer.empty.write format fields))
      (h.fields_eq hfields)
  obtain ⟨hconfigured, examples, features, heq⟩ := h.context
  cases hresume : start.saveResume with
  | true =>
    rw [hecho c'.context fun _ => rfl, heq]
    exact .model rfl c format examples features
  | false =>
    have hoff : c.context.saveResume = false := hconfigured.saveResume.trans hresume
    rw [hecho c.context fun o => ?_]
    · exact .same _
    · rw [heq]
      unfold Optimizer.fields
      have hoff' : (c.context.recount examples features).saveResume = false := hoff
      rw [hoff, hoff']
      rfl

/-- Workspaces in one state, but for the counts and the examples for reuse. -/
structure SameButCounts (w w' : Workspace Float32 Float) : Prop where
  optimizer : w'.chain.optimizer = w.chain.optimizer
  context : ∃ examples features, w'.chain.context = w.chain.context.recount examples features
  decoderContext : w'.chain.grounded?.map GroundedState.decoderContext =
    w.chain.grounded?.map GroundedState.decoderContext
  counters : w'.chain.grounded?.map GroundedState.counters =
    w.chain.grounded?.map GroundedState.counters
  journal : w'.journal = w.journal

/-- Workspaces without a journal on chains that differ in nothing but counts. -/
structure Recounted (mask : UInt64) (start : NarrowContext) (stack : Stack Float32)
    (hasher : FeatureHasher) (w w' : Workspace Float32 Float) : Prop where
  chain : Chain.Recounted mask start stack hasher w.chain w'.chain
  journal : w.journal = none
  journal' : w'.journal = none

variable {w w' : Workspace Float32 Float}

theorem Recounted.sameButCounts (h : Recounted mask start stack hasher w w') :
    SameButCounts w w' where
  optimizer := h.chain.optimizer
  context := h.chain.context.2
  decoderContext := h.chain.map_grounded? fun _ _ hdecoder _ => hdecoder
  counters := h.chain.map_grounded? fun _ _ _ hcounters => hcounters
  journal := h.journal'.trans h.journal.symm

/-! ## Calls of a run -/

/-- Without a journal counting an example changes the counts only. -/
def SameTally (start : NarrowContext)
    (t t' : Except LearnerError Unit × NarrowContext × Option (Journal Float32 Float)) : Prop :=
  t'.1 = t.1 ∧ start.Recounted t.2.1 t'.2.1 ∧ t.2.2 = none ∧ t'.2.2 = none

section

variable {context context' : NarrowContext} (h : start.Recounted context context')
include h

theorem sameTally_exampleTally (ec : Example Float32) :
    SameTally start (exampleTally context none ec) (exampleTally context' none ec) :=
  ⟨rfl, h.recount _ _ _ _, rfl, rfl⟩

theorem sameTally_batchTally (batch : Batch Float32) :
    SameTally start (batchTally context none batch) (batchTally context' none batch) :=
  ⟨rfl, h.recount _ _ _ _, rfl, rfl⟩

theorem sameTally_counted {ι : Type} {input : ι}
    {count : NarrowContext → Option (Journal Float32 Float) → ι →
      Except LearnerError Unit × NarrowContext × Option (Journal Float32 Float)}
    (hcount : SameTally start (count context none input) (count context' none input))
    (outcome : Except LearnerError Unit) :
    SameTally start (counted count outcome context none input)
      (counted count outcome context' none input) := by
  cases outcome with
  | error e => exact ⟨rfl, h, rfl, rfl⟩
  | ok _ => exact hcount

end

/-- Two calls that act alike, counted without a journal, leave contexts that differ in nothing but the
counts. -/
theorem sameTally_call {σ τ ι : Type} {N : σ → τ → Prop} {J : ι → ι → Prop}
    {call : NodeM Float32 Float σ ι Unit} {call' : NodeM Float32 Float τ ι Unit}
    {count : NarrowContext → Option (Journal Float32 Float) → ι →
      Except LearnerError Unit × NarrowContext × Option (Journal Float32 Float)}
    (hcall : NodeM.Alike (Agree N (.recounted start) J) (Agree N (.recounted start) J) call call')
    (hsame : ∀ {input input'}, J input input' → input' = input)
    (hcount : ∀ {context context'}, start.Recounted context context' → ∀ input,
      SameTally start (count context none input) (count context' none input))
    (f : Frame Float32 Float σ ι) (f' : Frame Float32 Float τ ι)
    (hf : Agree N (.recounted start) J f f') :
    let run := call.runOn f
    let run' := call'.runOn f'
    run'.2.input = run.2.input ∧ N run.2.node run'.2.node ∧
      SameTally start (counted count run.1 run.2.context none run.2.input)
        (counted count run'.1 run'.2.context none run'.2.input) := by
  intro run run'
  obtain ⟨hout, hnode, hcontext, hinput⟩ := hcall f f' hf
  have hinput : run'.2.input = run.2.input := hsame hinput
  have hout : run'.1 = run.1 := hout.symm
  refine ⟨hinput, hnode, ?_⟩
  rw [hinput, hout]
  exact sameTally_counted hcontext (hcount hcontext run.2.input) run.1

theorem Recounted.callLine (hstack : stack.Scored) (h : Recounted mask start stack hasher w w')
    (learning : Bool) (ec : Example Float32) :
    let run := (callLine learning).runOn w ec
    let run' := (callLine learning).runOn w' ec
    run'.1 = run.1 ∧ run'.2.2 = run.2.2 ∧ Recounted mask start stack hasher run.2.1 run'.2.1 := by
  intro run run'
  obtain ⟨config, _, _⟩ := w
  obtain ⟨config', _, _⟩ := w'
  obtain ⟨@⟨state, state', context, context', hstate, hcontext⟩, rfl, rfl⟩ := h
  cases stack with
  | tower t =>
    have hrun : run = _ := runOn_callLine_tower learning config t state context hasher none ec
    have hrun' : run' = _ := runOn_callLine_tower learning config' t state' context' hasher none ec
    rw [hrun, hrun']
    exact ⟨rfl, rfl, ⟨hstate, hcontext⟩, rfl, rfl⟩
  | line l =>
    have hrun : run = _ := runOn_callLine learning config l state context hasher none ec
    have hrun' : run' = _ := runOn_callLine learning config' l state' context' hasher none ec
    have hoff : released context' learning ec = released context learning ec := by
      obtain ⟨-, _, _, rfl⟩ := hcontext
      rfl
    have hline := l.learner_alike (Optimizer.learner_keepsMask mask (C := .recounted start)) hstack
    rw [hoff] at hrun'
    obtain ⟨hinput, hnode, hout, hleft, hjournal, hjournal'⟩ :=
      sameTally_call (hline.call learning) Example.Marked.eq sameTally_exampleTally
        ⟨state, context, released context learning ec⟩
        ⟨state', context', released context learning ec⟩
        ⟨hstate, hcontext, .refl (Region.holds_whole _)⟩
    rw [hrun, hrun']
    exact ⟨hout, hinput, ⟨hnode, hleft⟩, hjournal, hjournal'⟩

theorem Recounted.callBatch (hstack : stack.Scored) (h : Recounted mask start stack hasher w w')
    (learning : Bool) (batch : Batch Float32) :
    let run := (callBatch learning).runOn w batch
    let run' := (callBatch learning).runOn w' batch
    run'.1 = run.1 ∧ run'.2.2 = run.2.2 ∧ Recounted mask start stack hasher run.2.1 run'.2.1 := by
  intro run run'
  obtain ⟨config, _, _⟩ := w
  obtain ⟨config', _, _⟩ := w'
  obtain ⟨@⟨state, state', context, context', hstate, hcontext⟩, rfl, rfl⟩ := h
  cases stack with
  | line l =>
    have hrun : run = _ := runOn_callBatch_line learning config l state context hasher none batch
    have hrun' : run' = _ :=
      runOn_callBatch_line learning config' l state' context' hasher none batch
    rw [hrun, hrun']
    exact ⟨rfl, rfl, ⟨hstate, hcontext⟩, rfl, rfl⟩
  | tower t =>
    have hrun : run = _ := runOn_callBatch learning config t state context hasher none batch
    have hrun' : run' = _ := runOn_callBatch learning config' t state' context' hasher none batch
    have hlearns : learns context' batch learning = learns context batch learning := by
      obtain ⟨-, _, _, rfl⟩ := hcontext
      rfl
    have htower := t.learner_alike_in (B := .steady mask start)
      (Optimizer.learner_keepsMask mask (C := .recounted start)) hstack
    rw [hlearns] at hrun'
    obtain ⟨hinput, hnode, hout, hleft, hjournal, hjournal'⟩ :=
      sameTally_call (htower.call (learns context batch learning)) Batch.Marked.eq
        sameTally_batchTally ⟨state, context, batch⟩ ⟨state', context', batch⟩
        ⟨hstate, hcontext, .refl (Region.holdsAll_whole _)⟩
    rw [hrun, hrun']
    exact ⟨hout, hinput, ⟨hnode, hleft⟩, hjournal, hjournal'⟩

theorem Recounted.answer (hstack : stack.Scored) (h : Recounted mask start stack hasher w w')
    (request : Request Float32) :
    (w'.answer request).1 = (w.answer request).1 ∧
      Recounted mask start stack hasher (w.answer request).2 (w'.answer request).2 := by
  have hline (learning : Bool) (ec : Example Float32) := h.callLine hstack learning ec
  have hbatch (learning : Bool) (batch : Batch Float32) := h.callBatch hstack learning batch
  cases request with
  | predict ec =>
    obtain ⟨hout, hinput, hleft⟩ := hline false ec
    exact ⟨congrArg₂ Answer.line hout hinput, hleft⟩
  | learn ec =>
    obtain ⟨hout, hinput, hleft⟩ := hline true ec
    exact ⟨congrArg₂ Answer.line hout hinput, hleft⟩
  | predictBatch batch =>
    obtain ⟨hout, hinput, hleft⟩ := hbatch false batch
    exact ⟨congrArg₂ Answer.batch hout hinput, hleft⟩
  | learnBatch batch =>
    obtain ⟨hout, hinput, hleft⟩ := hbatch true batch
    exact ⟨congrArg₂ Answer.batch hout hinput, hleft⟩
  | sensitivity ec =>
    obtain ⟨config, _, _⟩ := w
    obtain ⟨config', _, _⟩ := w'
    obtain ⟨⟨hstate, hcontext⟩, rfl, rfl⟩ := h
    cases stack with
    | tower t => exact ⟨rfl, ⟨hstate, hcontext⟩, rfl, rfl⟩
    | line l =>
      have hline :=
        l.learner_alike (Optimizer.learner_keepsMask mask (C := .recounted start)) hstack
      have hsame := hline.sensitivity hstate hcontext (.refl (Region.holds_whole ec))
      exact ⟨congrArg (fun out => Answer.sensitivity (.ok out) ec) hsame, ⟨hstate, hcontext⟩, rfl,
        rfl⟩

/-- Workspaces that differ in nothing but the counts react alike. -/
theorem Recounted.react (hstack : stack.Scored) (h : Recounted mask start stack hasher w w')
    (event : Event) :
    Echo.Recounted start.saveResume (w.react event).1 (w'.react event).1 ∧
      Recounted mask start stack hasher (w.react event).2 (w'.react event).2 := by
  cases event with
  | call request =>
    obtain ⟨hanswer, hleft⟩ := h.answer hstack request
    have hecho : (w'.react (.call request)).1 = (w.react (.call request)).1 :=
      congrArg Echo.answer hanswer
    exact ⟨hecho ▸ .same _, hleft⟩
  | endPass =>
    have hleft := h.chain.endPass
    have hdone : w'.chain.endPass.context.done = w.chain.endPass.context.done := by
      obtain ⟨-, _, _, heq⟩ := hleft.context
      rw [heq]
      rfl
    have hecho : (w'.react .endPass).1 = (w.react .endPass).1 := congrArg Echo.done hdone
    exact ⟨hecho ▸ .same _, hleft, h.journal, h.journal'⟩
  | save format => exact ⟨Echo.recounted_save h.chain format, h⟩
  | load format bytes =>
    obtain ⟨hout, hleft⟩ := h.chain.load format (.ofBytes bytes)
    have hecho : (w'.react (.load format bytes)).1 = (w.react (.load format bytes)).1 :=
      congrArg Echo.loaded hout
    exact ⟨hecho ▸ .same _, hleft, h.journal, h.journal'⟩

/-! ## Calls that are put in -/

/-- A call that only looks. -/
inductive Look where
  | predict (ec : Example Float32) (unlabeled : ec.label = .simple none)
  | sensitivity (ec : Example Float32)
  | predictBatch (batch : Batch Float32)
  | save (format : ModelFormat)

def Look.event : Look → Event
  | predict ec _ => .call (.predict ec)
  | sensitivity ec => .call (.sensitivity ec)
  | predictBatch batch => .call (.predictBatch batch)
  | save format => .save format

/-- Without a journal counting an input changes the counts only, if it is done at all. -/
theorem counted_recounts {ι : Type} (count : NarrowContext → Option (Journal Float32 Float) → ι →
      Except LearnerError Unit × NarrowContext × Option (Journal Float32 Float))
    (context : NarrowContext) (input : ι)
    (hcount : ∃ examples features, (count context none input).2 =
      (context.recount examples features, none)) (outcome : Except LearnerError Unit) :
    ∃ examples features, (counted count outcome context none input).2 =
      (context.recount examples features, none) := by
  cases outcome with
  | error e => exact ⟨context.stats.exampleNumber, context.stats.totalFeatures, rfl⟩
  | ok _ => exact hcount

section

variable (config : Config Float32) (context : NarrowContext) (hasher : FeatureHasher)

theorem predict_recounts (l : Line) (o : Optimizer Float32 Float) {ec : Example Float32}
    (hlabel : ec.label = .simple none) :
    ∃ examples features, (predict.runOn ⟨config, ⟨.line l, o, context, hasher⟩, none⟩ ec).2.1 =
      ⟨config, ⟨.line l, o, context.recount examples features, hasher⟩, none⟩ := by
  obtain ⟨hnode, hcontext⟩ := l.learner_observes ⟨o, context, ec⟩ hlabel
  have hrun := runOn_callLine false config l o context hasher none ec
  change predict.runOn _ _ = _ at hrun
  rw [hrun]
  change (l.learner.predict.runOn ⟨o, context, ec⟩).2.node = o at hnode
  have hcall : (l.learner.call false).runOn ⟨o, context, released context false ec⟩ =
    l.learner.predict.runOn ⟨o, context, ec⟩ := rfl
  rw [hcall]
  generalize l.learner.predict.runOn ⟨o, context, ec⟩ = called at hnode hcontext
  obtain ⟨outcome, _, _, input⟩ := called
  cases hnode
  cases hcontext
  obtain ⟨examples, features, hleft⟩ :=
    counted_recounts exampleTally context input ⟨_, _, rfl⟩ outcome
  refine ⟨examples, features, ?_⟩
  dsimp only
  rw [hleft]

theorem predictBatch_recounts (t : Tower Float32) (s : t.State Float) (batch : Batch Float32) :
    ∃ left examples features, t.Untouched s left ∧
      (predictBatch.runOn ⟨config, ⟨.tower t, s, context, hasher⟩, none⟩ batch).2.1 =
        ⟨config, ⟨.tower t, left, context.recount examples features, hasher⟩, none⟩ := by
  obtain ⟨hnode, hcontext⟩ := t.predict_untouched ⟨s, context, batch⟩
  have hrun := runOn_callBatch false config t s context hasher none batch
  change predictBatch.runOn _ _ = _ at hrun
  rw [hrun]
  have hcall : (t.learner.call (learns context batch false)).runOn ⟨s, context, batch⟩ =
    t.learner.predict.runOn ⟨s, context, batch⟩ := rfl
  rw [hcall]
  generalize t.learner.predict.runOn ⟨s, context, batch⟩ = called at hnode hcontext
  obtain ⟨outcome, left, _, input⟩ := called
  cases hcontext
  obtain ⟨examples, features, hleft⟩ :=
    counted_recounts batchTally context input ⟨_, _, rfl⟩ outcome
  refine ⟨left, examples, features, hnode, ?_⟩
  dsimp only
  rw [hleft]

end

/-- A call that only looks leaves a workspace that differs in nothing but the counts. -/
theorem Recounted.look (h : Recounted mask start stack hasher w w') (look : Look) :
    Recounted mask start stack hasher w (w'.react look.event).2 := by
  obtain ⟨config, _, _⟩ := w
  obtain ⟨config', _, _⟩ := w'
  obtain ⟨@⟨state, state', context, context', hstate, hcontext⟩, rfl, rfl⟩ := h
  have hkept := (⟨⟨hstate, hcontext⟩, rfl, rfl⟩ : Recounted mask start stack hasher
    ⟨config, ⟨stack, state, context, hasher⟩, none⟩
    ⟨config', ⟨stack, state', context', hasher⟩, none⟩)
  cases look with
  | sensitivity ec => cases stack <;> exact hkept
  | save format => exact hkept
  | predict ec hlabel =>
    change Recounted _ _ _ _ _ (predict.runOn _ ec).2.1
    cases stack with
    | tower t => exact hkept
    | line l =>
      obtain ⟨examples, features, hleft⟩ :=
        predict_recounts config' context' hasher l state' hlabel
      rw [hleft]
      exact ⟨⟨hstate, hcontext.recount_right examples features⟩, rfl, rfl⟩
  | predictBatch batch =>
    change Recounted _ _ _ _ _ (predictBatch.runOn _ batch).2.1
    cases stack with
    | line l => exact hkept
    | tower t =>
      obtain ⟨left, examples, features, huntouched, hleft⟩ :=
        predictBatch_recounts config' context' hasher t state' batch
      rw [hleft]
      exact ⟨⟨Tower.Related.untouched hstate huntouched,
        hcontext.recount_right examples features⟩, rfl, rfl⟩

/-! ## Runs -/

/-- What comes next in a run with calls put in: an event of its own, or such a call. -/
inductive Cue where
  | own (event : Event)
  | look (call : Look)

def Cue.event : Cue → Event
  | own event => event
  | look call => call.event

/-- The events of a run without the calls put in. -/
def ownEvents (cues : List Cue) : List Event :=
  cues.filterMap fun
    | .own event => some event
    | .look _ => none

/-- Of the echoes of a run with calls put in those of its own events. -/
def ownEchoes : List Cue → List Echo → List Echo
  | .own _ :: cues, echo :: echoes => echo :: ownEchoes cues echoes
  | .look _ :: cues, _ :: echoes => ownEchoes cues echoes
  | _, _ => []

theorem Recounted.echoes (hstack : stack.Scored) (h : Recounted mask start stack hasher w w')
    (cues : List Cue) :
    let plain := w.echoes (ownEvents cues)
    let looked := w'.echoes (cues.map Cue.event)
    List.Forall₂ (Echo.Recounted start.saveResume) plain.1 (ownEchoes cues looked.1) ∧
      Recounted mask start stack hasher plain.2 looked.2 := by
  induction cues generalizing w w' with
  | nil => exact ⟨.nil, h⟩
  | cons cue rest ih =>
    cases cue with
    | own event =>
      obtain ⟨hecho, hleft⟩ := h.react hstack event
      obtain ⟨hrest, hend⟩ := ih hleft
      exact ⟨.cons hecho hrest, hend⟩
    | look call => exact ih (h.look call)

/-- A run of a new workspace without a journal, and the same run with calls put in that only look:
predictions of unlabeled examples, predictions of batches, sensitivities and models that are
written. What the run's own events come back with is the same, but that models with resume hold the
counts of examples and features as they are then. In the end optimizer, decoder context and counters
of grounded nodes are the same, and the context is but for these two counts. -/
theorem looks_unnoticed {c : Config Float32} (hlog : c.run.progressLog = "")
    {w₀ : Workspace Float32 Float} (hnew : Workspace.new c = .ok w₀) (cues : List Cue) :
    let plain := w₀.echoes (ownEvents cues)
    let looked := w₀.echoes (cues.map Cue.event)
    List.Forall₂ (Echo.Recounted c.run.saveResume) plain.1 (ownEchoes cues looked.1) ∧
      SameButCounts plain.2 looked.2 := by
  have hfresh := fresh_of_new hnew
  have hjournal := hfresh.journal_eq_none hlog
  obtain ⟨mask, hasher, hstack, hself⟩ := hfresh.steady
  have hstart : Recounted mask w₀.chain.context w₀.chain.stack hasher w₀ w₀ :=
    ⟨.of_steady hself, hjournal, hjournal⟩
  obtain ⟨hechoes, hend⟩ := hstart.echoes hstack cues
  rw [← Config.saveResume_of_initialContext hfresh.context_eq]
  exact ⟨hechoes, hend.sameButCounts⟩

/-- A grounded workspace that learns from a batch and saves its model, with a prediction put in. -/
theorem looks_unnoticed_before_save :
    let w := Config.defaultWorkspace
    let batch : Batch Float32 := [.single (.bandit [⟨1, 1, 1⟩]) false]
    let plain := w.echoes [.call (.learnBatch batch), .save .binary]
    let looked := w.echoes
      [.call (.predictBatch batch), .call (.learnBatch batch), .save .binary]
    (Config.defaultGrounded.run.progressLog = "" ∧ Workspace.new Config.defaultGrounded = .ok w) ∧
      List.Forall₂ (Echo.Recounted true) plain.1 looked.1.tail ∧
      SameButCounts plain.2 looked.2 :=
  ⟨⟨rfl, Config.new_defaultGrounded⟩,
    looks_unnoticed (c := Config.defaultGrounded) rfl Config.new_defaultGrounded
      [.look (.predictBatch [.single (.bandit [⟨1, 1, 1⟩]) false]),
        .own (.call (.learnBatch [.single (.bandit [⟨1, 1, 1⟩]) false])), .own (.save .binary)]⟩

/-- A model with resume shows that a batch was predicted. -/
theorem not_looks_unnoticed :
    ¬ ∀ (c : Config Float32) (w₀ : Workspace Float32 Float), c.run.progressLog = "" →
      Workspace.new c = .ok w₀ → ∀ cues : List Cue,
        ownEchoes cues (w₀.echoes (cues.map Cue.event)).1 = (w₀.echoes (ownEvents cues)).1 := by
  intro h
  have hsame := h Config.defaultGrounded Config.defaultWorkspace rfl Config.new_defaultGrounded
    [.look (.predictBatch [.single (.simple none) false]), .own (.save .binary)]
  have hbytes := congrArg (fun echoes => echoes.map fun
    | Echo.model buffer => buffer.bytes
    | _ => []) hsame
  revert hbytes
  decide +kernel

end Workspace

end OnlineLearning
