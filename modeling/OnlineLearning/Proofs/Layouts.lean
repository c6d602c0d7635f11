import OnlineLearning.Proofs.Rows
import OnlineLearning.Proofs.Starts

/-!
# Layouts

A dense table has a group for every index, a sparse one has those that were touched. Nothing but the
count of touched groups tells them apart: an absent group counts as a zero group, and zero groups
are left out where all groups are listed.

* `WeightTable.Operation` are the operations on a table, `WeightTable.Reply` what they come back with;
* `WeightTable.perform_eq`: tables with the same groups reply alike;
* `Rows.perform_eq`: rows reply as the dense table that they spread out does;
* `Workspace.new_withSparse` says how a new workspace depends on the layout;
* `Workspace.Event` is what a workspace goes through, `Workspace.Echo` what it comes back with;
* `layouts_indistinguishable`: neither tables nor workspaces show their layout.
-/

namespace OnlineLearning

/-! ## Tables -/

namespace WeightTable

variable {width : Nat}

/-- The operations on a table. -/
inductive Operation (width : Nat) where
  /-- Finds a group, zero if there is none, and changes it. -/
  | write (index : UInt64) (change : Vector Float32 width → Vector Float32 width)
  | group (index : UInt64)
  | param (index : UInt64)
  | nextNonZero (first stop : UInt64)
  | nonZeroIndices
  | list
  | clear
  | save (format : ModelFormat) (resume : Bool)
  | load (format : ModelFormat) (resume : Bool) (bytes : List UInt8)

/-- What an operation comes back with. -/
inductive Reply (width : Nat) where
  | none
  | group (g : Option (Vector Float32 width))
  | param (x : Float32)
  | index (i : Option UInt64)
  | indices (is : List UInt64)
  | groups (gs : List (UInt64 × Vector Float32 width))
  | model (buffer : ModelBuffer)
  | loaded (outcome : Except ModelError Unit) (buffer : ModelBuffer)

/-- The reply to an operation, and the table that it leaves. -/
def perform (t : WeightTable Float32 width) :
    Operation width → Reply width × WeightTable Float32 width
  | .write index change => (.group (some (t.group index)), t.modify index change)
  | .group index => (.group (t.group? index), t)
  | .param index => (.param (t.param index), t)
  | .nextNonZero first stop => (.index (t.nextNonZero? first stop), t)
  | .nonZeroIndices => (.indices t.nonZeroIndices, t)
  | .list => (.groups t.toList, t)
  | .clear => (.none, t.clear)
  | .save format resume => (.model (ModelBuffer.empty.write format (t.fields resume)), t)
  | .load format resume bytes =>
    let run := (load format resume).runOn (.ofBytes bytes) t
    (.loaded run.1 run.2.1, run.2.2)

/-- The replies to operations that follow each other. -/
def replies {σ : Type} (perform : σ → Operation width → Reply width × σ) (s : σ) :
    List (Operation width) → List (Reply width)
  | [] => []
  | operation :: rest =>
    (perform s operation).1 :: replies perform (perform s operation).2 rest

/-- A reply in which a group that is not there counts as a zero group, and groups that are zero are
not listed. -/
def Reply.settled : Reply width → Reply width
  | .group g => .group (some (g.getD zeroGroup))
  | .groups gs => .groups (gs.filter fun e => isNonZero e.2)
  | reply => reply

theorem getD_group? (t : WeightTable Float32 width) (i : UInt64) :
    (t.group? i).getD zeroGroup = t.group i := by
  unfold group?
  split
  · rfl
  · rw [group, Std.ExtTreeMap.getD_eq_getD_getElem?]

/-- Tables with the same groups give replies that are the same but for the layout, and have the same
groups afterwards. -/
theorem perform_eq {t t' : WeightTable Float32 width} {bits : Nat}
    (h : SameGroups (indexMask bits) t t') (operation : Operation width) :
    (t'.perform operation).1.settled = (t.perform operation).1.settled ∧
      SameGroups (indexMask bits) (t.perform operation).2 (t'.perform operation).2 := by
  have hmask : t'.mask = indexMask bits := h.agree.mask.trans h.mask_eq
  have hindices : t'.nonZeroIndices = t.nonZeroIndices := by
    unfold nonZeroIndices
    rw [h.nonZeroGroups_eq]
  cases operation with
  | write index change =>
    have hgroup := h.group_eq index
    exact ⟨congrArg (fun g => Reply.group (some g)) hgroup, h.modify index change⟩
  | group index =>
    have hgroup : (t'.group? index).getD zeroGroup = (t.group? index).getD zeroGroup := by
      rw [getD_group?, getD_group?, h.group_eq]
    exact ⟨congrArg (fun g => Reply.group (some g)) hgroup, h⟩
  | param index => exact ⟨congrArg Reply.param (h.agree.param trivial), h⟩
  | nextNonZero first stop =>
    have hnext : t'.nextNonZero? first stop = t.nextNonZero? first stop := by
      unfold nextNonZero? rows
      rw [hindices, h.agree.mask]
    exact ⟨congrArg Reply.index hnext, h⟩
  | nonZeroIndices => exact ⟨congrArg Reply.indices hindices, h⟩
  | list =>
    have hlist : (t'.toList.filter fun e => isNonZero e.2) =
        t.toList.filter fun e => isNonZero e.2 := by
      rw [filter_toList h.mask_eq, filter_toList hmask, h.nonZeroGroups_eq]
    exact ⟨congrArg Reply.groups hlist, h⟩
  | clear => exact ⟨rfl, h.clear⟩
  | save format resume =>
    have hfields := h.fields_eq resume
    exact ⟨congrArg (fun fields => Reply.model (ModelBuffer.empty.write format fields)) hfields, h⟩
  | load format resume bytes =>
    obtain ⟨hout, hbuffer, hleft⟩ := load_alike format resume (.ofBytes bytes) t t' h
    exact ⟨congrArg₂ Reply.loaded hout hbuffer, hleft⟩

/-- What replies alike to every operation and stays related replies alike to any operations. -/
theorem replies_eq {σ τ : Type} {N : σ → τ → Prop}
    {perform : σ → Operation width → Reply width × σ}
    {perform' : τ → Operation width → Reply width × τ}
    (hstep : ∀ {s s'} operation, N s s' →
      (perform' s' operation).1.settled = (perform s operation).1.settled ∧
        N (perform s operation).2 (perform' s' operation).2)
    {s : σ} {s' : τ} (h : N s s') (operations : List (Operation width)) :
    (replies perform' s' operations).map Reply.settled =
      (replies perform s operations).map Reply.settled := by
  induction operations generalizing s s' with
  | nil => rfl
  | cons operation rest ih =>
    obtain ⟨hreply, hleft⟩ := hstep operation h
    exact congrArg₂ List.cons hreply (ih hleft)

theorem sameGroups_empty (bits : Nat) (layout layout' : Layout) :
    SameGroups (indexMask bits) (empty bits layout : WeightTable Float32 width)
      (empty bits layout') :=
  ⟨rfl, rfl, fun i _ => by rw [group_empty, group_empty]⟩

end WeightTable

namespace Rows

open WeightTable

variable {width : Nat}

/-- The reply of rows to an operation, and the rows that it leaves. -/
def perform (r : Rows width) : Operation width → Reply width × Rows width
  | .write index change => (.group (some (r.group index)), r.modify index change)
  | .group index => (.group (some (r.group index)), r)
  | .param index => (.param (r.param index), r)
  | .nextNonZero first stop => (.index (r.nextNonZero? first stop), r)
  | .nonZeroIndices => (.indices (r.nonZeroGroups.map Prod.fst), r)
  | .list => (.groups r.toList, r)
  | .clear => (.none, r.clear)
  | .save format resume => (.model (ModelBuffer.empty.write format (r.fields resume)), r)
  | .load format resume bytes =>
    let run := (store.load format resume).runOn (.ofBytes bytes) r
    (.loaded run.1 run.2.1, run.2.2)

/-- Rows give the replies of the dense table that they spread out, and go on as it does. -/
theorem perform_eq {bits : Nat} {r : Rows width} {t : WeightTable Float32 width}
    (h : Spread bits r t) (operation : Operation width) :
    (t.perform operation).1 = (r.perform operation).1 ∧
      Spread bits (r.perform operation).2 (t.perform operation).2 := by
  cases operation with
  | write index change =>
    have hgroup := h.group index
    exact ⟨congrArg (fun g => Reply.group (some g)) hgroup.symm, h.modify index change⟩
  | group index =>
    have hgroup : t.group? index = some (r.group index) := by
      unfold WeightTable.group?
      rw [h.layout, h.group]
    exact ⟨congrArg Reply.group hgroup, h⟩
  | param index => exact ⟨congrArg Reply.param (h.param_eq index).symm, h⟩
  | nextNonZero first stop => exact ⟨congrArg Reply.index (h.nextNonZero?_eq first stop).symm, h⟩
  | nonZeroIndices =>
    have hindices : t.nonZeroIndices = r.nonZeroGroups.map Prod.fst := by
      rw [h.nonZeroGroups_eq]
      rfl
    exact ⟨congrArg Reply.indices hindices, h⟩
  | list => exact ⟨congrArg Reply.groups h.toList_eq.symm, h⟩
  | clear => exact ⟨rfl, h.clear⟩
  | save format resume =>
    have hfields := h.fields_eq resume
    exact ⟨congrArg (fun fields => Reply.model (ModelBuffer.empty.write format fields))
      hfields.symm, h⟩
  | load format resume bytes =>
    obtain ⟨hout, hbuffer, hleft⟩ := load_alike format resume (.ofBytes bytes) r t h
    exact ⟨congrArg₂ Reply.loaded hout hbuffer, hleft⟩

end Rows

/-! ## Optimizers -/

namespace Optimizer

variable {mask : UInt64} {C : ContextRel Float32 Float} {p : Float32 → Prop}
  {o o' : Optimizer Float32 Float}

theorem Relaid.twins (h : Relaid mask o o') : Twins (Region.whole mask) o o' := by
  obtain ⟨t, rfl, ht⟩ := h
  exact ⟨ht.mask_eq, t, o.stalls, rfl, ht.agree⟩

theorem Twins.relaid (h : Twins (Region.whole mask) o o') (hstalls : o'.stalls = o.stalls) :
    Relaid mask o o' := by
  obtain ⟨hmask, t, stalls, rfl, ht⟩ := h
  cases hstalls
  exact ⟨t, rfl, hmask, ht⟩

theorem Relaid.stalls_eq (h : Relaid mask o o') : o'.stalls = o.stalls := by
  obtain ⟨t, rfl, -⟩ := h
  rfl

theorem stalls_learn (f : Frame Float32 Float (Optimizer Float32 Float) (Example Float32)) :
    ((learn : NodeM Float32 Float _ _ Unit).runOn f).2.node.stalls = f.node.stalls := by
  have hseen : (f.node.learningPrediction f.input.weight
      (f.input.visits f.context.interactions)).1.stalls = f.node.stalls := by
    unfold learningPrediction
    dsimp only
    split <;> rfl
  rw [runOn_learn]
  dsimp only
  split
  · exact hseen
  · exact hseen

/-- Calls do not notice how a table is laid out. -/
theorem learner_relaid :
    (learner : LineLearner Float32 Float _).Alike (Relaid mask) C (Region.whole mask) p learner := by
  refine ⟨predict_alike fun h hec terms => dot_eq h.twins hec terms, fun f f' ⟨hf, _⟩ => ?_,
    fun h hc hec => sensitivity_eq h.twins hc hec⟩
  obtain ⟨hout, hleft⟩ := learn_alike f f' ⟨hf.node.twins, hf.context, hf.input⟩
  have hstalls : (learn.runOn f').2.node.stalls = (learn.runOn f).2.node.stalls := by
    rw [stalls_learn, stalls_learn, hf.node.stalls_eq]
  exact ⟨hout, hleft.node.relaid hstalls, hleft.context, hleft.input⟩

theorem Relaid.endPass (h : Relaid mask o o') (c : NarrowContext) :
    Relaid mask (o.endPass c).1 (o'.endPass c).1 ∧ (o'.endPass c).2 = (o.endPass c).2 := by
  obtain ⟨t, rfl, ht⟩ := h
  unfold Optimizer.endPass
  split
  · exact ⟨⟨t, rfl, ht⟩, rfl⟩
  · exact ⟨⟨t, rfl, ht⟩, rfl⟩

theorem Relaid.sameNumbers (h : Relaid mask o o') : SameNumbers o o' := by
  obtain ⟨t, rfl, ht⟩ := h
  exact ⟨fun i => congrArg Vector.toList (ht.group_eq i), rfl, rfl, rfl, rfl⟩

end Optimizer

/-- The relation of optimizers that differ in how their tables are laid out, in one context. -/
def Bond.relaid (mask : UInt64) : Bond Float32 Float where
  mask
  node := Optimizer.Relaid mask
  primary := .eq
  decoder := .eq
  primary_alike := Optimizer.learner_relaid
  decoder_alike := Optimizer.learner_relaid
  stats h := h ▸ rfl
  holdoutOff h := h ▸ rfl
  count _ h := h ▸ rfl
  dump h := h ▸ rfl

/-! ## New workspaces -/

/-- A configuration with another choice of the layout. -/
def Config.withSparse (c : Config Float32) (sparse : Bool) : Config Float32 :=
  { c with weights := { c.weights with sparse } }

/-- An optimizer with another layout of its table. -/
def Optimizer.withSparse (o : Optimizer Float32 Float) (sparse : Bool) : Optimizer Float32 Float :=
  { o with weights := { o.weights with layout := if sparse then .sparse else .dense } }

namespace Tower

@[simp] theorem optimizer_initial (t : Tower Float32) (decoder : NarrowContext)
    (o : Optimizer Float32 Float) : t.optimizer (t.initial decoder o) = o := by
  induction t with
  | bandit _ => rfl
  | grounded _ _ _ primary ih => exact ih

@[simp] theorem setOptimizer_initial (t : Tower Float32) (decoder : NarrowContext)
    (o o' : Optimizer Float32 Float) :
    t.setOptimizer o' (t.initial decoder o) = t.initial decoder o' := by
  induction t with
  | bandit _ => rfl
  | grounded _ _ _ primary ih => exact congrArg (Prod.mk _) ih

end Tower

namespace Chain

def withSparse (c : Chain Float32 Float) (sparse : Bool) : Chain Float32 Float :=
  c.setOptimizer (c.optimizer.withSparse sparse)

theorem withSparse_initial (stack : Stack Float32) (hasher : FeatureHasher)
    (context decoder : NarrowContext) (o : Optimizer Float32 Float) (sparse : Bool) :
    (⟨stack, Blueprint.initialState decoder (o.withSparse sparse) stack, context, hasher⟩ :
        Chain Float32 Float) =
      withSparse ⟨stack, Blueprint.initialState decoder o stack, context, hasher⟩ sparse := by
  cases stack with
  | line l => rfl
  | tower t =>
    have hoptimizer : t.optimizer (t.initial decoder o) = o := t.optimizer_initial decoder o
    have hset := t.setOptimizer_initial decoder o (o.withSparse sparse)
    change (⟨.tower t, t.initial decoder (o.withSparse sparse), context, hasher⟩ :
      Chain Float32 Float) = ⟨.tower t, t.setOptimizer
        ((t.optimizer (t.initial decoder o)).withSparse sparse) (t.initial decoder o), _, _⟩
    rw [hoptimizer, hset]

end Chain

theorem Config.newOptimizer_withSparse (c : Config Float32) (sparse : Bool) :
    ((c.withSparse sparse).newOptimizer : Except _ (Optimizer Float32 Float)) =
      (c.newOptimizer : Except _ (Optimizer Float32 Float)).map (·.withSparse sparse) := by
  have hmode : (c.withSparse sparse).optimizer.mode = c.optimizer.mode := rfl
  have hparams : (c.withSparse sparse).optimizer.params = c.optimizer.params := rfl
  unfold newOptimizer
  rw [hmode, hparams]
  cases c.optimizer.mode with
  | error e => rfl
  | ok mode =>
    cases c.optimizer.params with
    | error e => rfl
    | ok params => rfl

/-- Of a chain that is built the layout goes into the table of the optimizer, and nowhere else. -/
theorem Blueprint.build_withSparse (c : Config Float32) (sparse : Bool) :
    ((⟨c.withSparse sparse, none, none⟩ : Blueprint Float32).build none :
        Except _ (Chain Float32 Float)) =
      ((⟨c, none, none⟩ : Blueprint Float32).build none : Except _ (Chain Float32 Float)).map
        (·.withSparse sparse) := by
  have hvalid : (c.withSparse sparse).validate = c.validate := rfl
  have hcontext : ((c.withSparse sparse).initialContext : Except _ NarrowContext) =
    c.initialContext := rfl
  have hbits : (c.withSparse sparse).weights.bits = c.weights.bits := rfl
  have hfeedback : negativeFeedback (c.withSparse sparse) = negativeFeedback c := rfl
  have hdecoder : ((c.withSparse sparse).decoder.initialContext : Except _ NarrowContext) =
    c.decoder.initialContext := rfl
  have hstack : (⟨c.withSparse sparse, none, none⟩ : Blueprint Float32).stack =
      (⟨c, none, none⟩ : Blueprint Float32).stack := by
    rw [stack_eq, stack_eq]
    rfl
  unfold build
  dsimp only
  rw [hvalid, hcontext, hstack, c.newOptimizer_withSparse, hbits, hfeedback, hdecoder]
  cases c.validate with
  | error e => rfl
  | ok _ =>
    cases (c.initialContext : Except _ NarrowContext) with
    | error e => rfl
    | ok context =>
      cases (⟨c, none, none⟩ : Blueprint Float32).stack with
      | error e => rfl
      | ok stack =>
        cases (c.newOptimizer : Except _ (Optimizer Float32 Float)) with
        | error e => rfl
        | ok o =>
          simp only [bind, Except.bind, pure, Except.pure, Except.map]
          generalize FeatureHasher.ofBits c.weights.bits.toNat stack.paramsPerWeight = hasher
          -- from here on the configurations matter no more, but for the context of a decoder
          generalize setNegativeFeedback (negativeFeedback c hasher) stack = built
          have hbuilt (decoder : NarrowContext) := congrArg (Except.ok (ε := ConfigError))
            (Chain.withSparse_initial built hasher context decoder o sparse)
          split
          · cases (c.decoder.initialContext : Except _ NarrowContext) with
            | error e => rfl
            | ok decoder => exact hbuilt decoder
          · exact hbuilt context

namespace Workspace

def withSparse (w : Workspace Float32 Float) (sparse : Bool) : Workspace Float32 Float :=
  ⟨w.config.withSparse sparse, w.chain.withSparse sparse, w.journal⟩

theorem new_withSparse (c : Config Float32) (sparse : Bool) :
    (Workspace.new (c.withSparse sparse) : Except _ (Workspace Float32 Float)) =
      (Workspace.new c : Except _ (Workspace Float32 Float)).map (·.withSparse sparse) := by
  have hjournal : (newJournal (c.withSparse sparse) : Option (Journal Float32 Float)) =
    newJournal c := rfl
  unfold Workspace.new
  rw [Blueprint.build_withSparse, hjournal]
  cases (Blueprint.build ⟨c, none, none⟩ none : Except _ (Chain Float32 Float)) with
  | error e => rfl
  | ok chain => rfl

end Workspace

/-! ## Runs of workspaces -/

theorem Optimizer.relaid_withSparse {mask : UInt64} {o : Optimizer Float32 Float}
    (hmask : o.weights.mask = mask) (sparse : Bool) : Relaid mask o (o.withSparse sparse) :=
  ⟨{ o.weights with layout := if sparse then .sparse else .dense }, rfl, hmask, rfl,
    fun _ _ => rfl⟩

theorem Tower.Related.setOptimizer_right {B : Bond Float32 Float} {t : Tower Float32}
    {s s' : t.State Float} (h : t.Related B s s') {o : Optimizer Float32 Float}
    (ho : B.node (t.optimizer s) o) : t.Related B s (t.setOptimizer o s') := by
  induction t with
  | bandit _ => exact ho
  | grounded _ _ _ primary ih => exact ⟨h.decoderContext, h.counters, ih h.node ho⟩

theorem Chain.Related.setOptimizer_right {B : Bond Float32 Float} {stack : Stack Float32}
    {hasher : FeatureHasher} {c c' : Chain Float32 Float} (h : Related B stack hasher c c')
    {o : Optimizer Float32 Float} (ho : B.node c.optimizer o) :
    Related B stack hasher c (c'.setOptimizer o) := by
  obtain ⟨hstate, hcontext⟩ := h
  cases stack with
  | line l => exact ⟨ho, hcontext⟩
  | tower t => exact ⟨Tower.Related.setOptimizer_right hstate ho, hcontext⟩

namespace Workspace

/-- What a workspace goes through. -/
inductive Event where
  | call (request : Request Float32)
  | endPass
  | save (format : ModelFormat)
  | load (format : ModelFormat) (bytes : List UInt8)

/-- What an event comes back with. -/
inductive Echo where
  | answer (answer : Answer Float32)
  | done (done : Bool)
  | model (buffer : ModelBuffer)
  | loaded (outcome : Except ModelError Unit)

def react (w : Workspace Float32 Float) : Event → Echo × Workspace Float32 Float
  | .call request => (.answer (w.answer request).1, (w.answer request).2)
  | .endPass => (.done w.endPass.isDone, w.endPass)
  | .save format => (.model (w.chain.save format), w)
  | .load format bytes => (.loaded (w.load format bytes).1, (w.load format bytes).2)

/-- What events that follow each other come back with, and the workspace that they leave. -/
def echoes (w : Workspace Float32 Float) : List Event → List Echo × Workspace Float32 Float
  | [] => ([], w)
  | event :: rest =>
    let (echo, left) := w.react event
    let (later, left) := left.echoes rest
    (echo :: later, left)

variable {mask : UInt64} {stack : Stack Float32} {hasher : FeatureHasher}
  {w w' : Workspace Float32 Float}

theorem Logged.endPass_relaid (h : Logged (.relaid mask) stack hasher w w') :
    Logged (.relaid mask) stack hasher w.endPass w'.endPass := by
  have hcontext : w.chain.context = w'.chain.context := h.chain.context
  obtain ⟨hnode, hleft⟩ := Optimizer.Relaid.endPass h.chain.optimizer
    { w.chain.context with currentPass := w.chain.context.currentPass + 1 }
  refine ⟨h.chain.endPass id ?_, h.journal, h.reachable⟩
  dsimp only
  rw [← hcontext]
  exact ⟨hnode, hleft.symm⟩

theorem Logged.load_relaid (h : Logged (.relaid mask) stack hasher w w') (format : ModelFormat)
    (bytes : List UInt8) :
    (w'.load format bytes).1 = (w.load format bytes).1 ∧
      Logged (.relaid mask) stack hasher (w.load format bytes).2 (w'.load format bytes).2 := by
  obtain ⟨hout, -, hleft⟩ := h.chain.load (Optimizer.load_alike format) (.ofBytes bytes)
  exact ⟨hout, hleft, h.journal, h.reachable⟩

/-- Workspaces that differ in how their tables are laid out react alike, and go on to. -/
theorem Logged.react_relaid (hstack : stack.Scored) (h : Logged (.relaid mask) stack hasher w w')
    (event : Event) :
    (w'.react event).1 = (w.react event).1 ∧
      Logged (.relaid mask) stack hasher (w.react event).2 (w'.react event).2 := by
  cases event with
  | call request =>
    obtain ⟨hanswer, hleft⟩ := WorkspaceRel.answer_eq (S := .logged) hstack h request
    exact ⟨congrArg Echo.answer hanswer, hleft⟩
  | endPass =>
    have hleft := h.endPass_relaid
    have hcontext : w.endPass.chain.context = w'.endPass.chain.context := hleft.chain.context
    exact ⟨congrArg (fun context : NarrowContext => Echo.done context.done) hcontext.symm, hleft⟩
  | save format =>
    have hfields : w'.chain.fields = w.chain.fields :=
      h.chain.fields_eq fun ho hc => hc ▸ ho.fields_eq _
    exact ⟨congrArg (fun fields => Echo.model (ModelBuffer.empty.write format fields)) hfields, h⟩
  | load format bytes =>
    obtain ⟨hout, hleft⟩ := h.load_relaid format bytes
    exact ⟨congrArg Echo.loaded hout, hleft⟩

theorem Logged.echoes_relaid (hstack : stack.Scored) (h : Logged (.relaid mask) stack hasher w w')
    (events : List Event) :
    (w'.echoes events).1 = (w.echoes events).1 ∧
      Logged (.relaid mask) stack hasher (w.echoes events).2 (w'.echoes events).2 := by
  induction events generalizing w w' with
  | nil => exact ⟨rfl, h⟩
  | cons event rest ih =>
    obtain ⟨hecho, hleft⟩ := h.react_relaid hstack event
    obtain ⟨hrest, hend⟩ := ih hleft
    exact ⟨congrArg₂ List.cons hecho hrest, hend⟩

/-- A new workspace and the same with another layout. -/
theorem Fresh.relaid {c : Config Float32} (h : Fresh c w) (sparse : Bool) :
    ∃ (mask : UInt64) (stack : Stack Float32) (hasher : FeatureHasher), stack.Scored ∧
      Logged (.relaid mask) stack hasher w (w.withSparse sparse) := by
  obtain ⟨p, _, stack, hasher, -, hstack, hrelated⟩ := h.related
  have hself := hrelated (.relaid p.optimizer.weights.mask)
    ⟨p.optimizer.weights, rfl, rfl, rfl, fun _ _ => rfl⟩ rfl rfl
  have hmask : w.chain.optimizer.weights.mask = p.optimizer.weights.mask := by
    obtain ⟨_, -, ht⟩ := hself.optimizer
    exact ht.mask_eq
  exact ⟨_, stack, hasher, hstack,
    hself.setOptimizer_right (Optimizer.relaid_withSparse hmask sparse), rfl,
    (h.logged hself).reachable⟩

end Workspace

open WeightTable in
/-- Tables and workspaces do not show how they are laid out. Operations on rows and on a dense table
get the replies that they get on a sparse one, and workspaces that are made with and without a
sparse table echo everything alike, models and failures to load one included, and end up in the same
state. -/
theorem layouts_indistinguishable :
    (∀ (width bits : Nat) (operations : List (Operation width)),
      let sparse := (replies perform (empty bits .sparse) operations).map Reply.settled
      (replies Rows.perform (Rows.empty bits) operations).map Reply.settled = sparse ∧
        (replies perform (empty bits .dense) operations).map Reply.settled = sparse) ∧
    ∀ (c : Config Float32) (sparse : Bool),
      (∃ e, (Workspace.new c : Except _ (Workspace Float32 Float)) = .error e ∧
        (Workspace.new (c.withSparse sparse) : Except _ (Workspace Float32 Float)) = .error e) ∨
      ∃ w w' : Workspace Float32 Float,
        Workspace.new c = .ok w ∧ Workspace.new (c.withSparse sparse) = .ok w' ∧
          ∀ events, (w'.echoes events).1 = (w.echoes events).1 ∧
            Workspace.SameState (w.echoes events).2 (w'.echoes events).2 := by
  refine ⟨fun width bits operations => ?_, fun c sparse => ?_⟩
  · have hrows := replies_eq
      (fun operation h => (Rows.perform_eq h operation).imp_left (congrArg Reply.settled))
      (Rows.spread_empty bits) operations
    have hdense := replies_eq (fun operation h => perform_eq h operation)
      (sameGroups_empty bits .sparse .dense) operations
    exact ⟨hrows.symm.trans hdense, hdense⟩
  · rw [Workspace.new_withSparse]
    generalize hnew : (Workspace.new c : Except _ (Workspace Float32 Float)) = new
    cases new with
    | error e => exact .inl ⟨e, rfl, rfl⟩
    | ok w =>
      obtain ⟨mask, stack, hasher, hstack, hw⟩ := (Workspace.fresh_of_new hnew).relaid sparse
      refine .inr ⟨w, _, rfl, rfl, fun events => ?_⟩
      obtain ⟨hechoes, hleft⟩ := hw.echoes_relaid hstack events
      exact ⟨hechoes, hleft.sameState (fun ho => ho.sameNumbers) Eq.symm Eq.symm⟩

end OnlineLearning
