import OnlineLearning.Proofs.AlikeNodes
import OnlineLearning.Stack.Chain

/-!
# Stacks over optimizers that act alike

All lines of a stack end in one optimizer. If optimizers that are related act alike, under the
context of the chain as under that of a decoder, then so do stacks on them.

* `Bond` are the relations between optimizers and contexts that such calls keep;
* `Tower.Related`, `Stack.Related` and `Chain.Related` relate what stands on related optimizers;
* `Tower.learner_alike`: towers whose lines all have a scorer act alike;
* `Chain.runLine_alike` and `Chain.runBatch_alike` are the calls of chains.
-/

namespace OnlineLearning

open NodeM (Alike)

variable {R W σ τ : Type} [Scalar R] [Number W] [Widening R W] {mask : UInt64}
  {N : σ → τ → Prop} {C : ContextRel R W} {r : Region mask}

/-! ## Parts of larger nodes -/

/-- A learner on a part of larger nodes, which are related so that their parts are, also after they
were exchanged for related ones. -/
theorem onNode_alike {σ₁ τ₁ : Type} {K : σ₁ → τ₁ → Prop} {p : R → Prop} {l : LineLearner R W σ}
    {l' : LineLearner R W τ} (h : l.Alike N C r p l') {get : σ₁ → σ} {set : σ → σ₁ → σ₁}
    {get' : τ₁ → τ} {set' : τ → τ₁ → τ₁} (hget : ∀ s s', K s s' → N (get s) (get' s'))
    (hset : ∀ s s' n n', K s s' → N n n' → K (set n s) (set' n' s')) :
    (l.onNode get set).Alike K C r p (l'.onNode get' set') := by
  have hframe {M : Marks} {f : Frame R W σ₁ (Example R)} {f' : Frame R W τ₁ (Example R)}
      (hf : Agree K C (Example.Marked M r) f f') : Agree N C (Example.Marked M r)
        ⟨get f.node, f.context, f.input⟩ ⟨get' f'.node, f'.context, f'.input⟩ :=
    ⟨hget _ _ hf.node, hf.context, hf.input⟩
  refine ⟨fun M f f' hf => ?_, fun f f' ⟨hf, hp⟩ => ?_, fun hn hc hec =>
    h.sensitivity (hget _ _ hn) hc hec⟩
  · obtain ⟨hout, hleft⟩ := h.predict M _ _ (hframe hf)
    exact ⟨hout, hset _ _ _ _ hf.node hleft.node, hleft.context, hleft.input⟩
  · obtain ⟨hout, hleft⟩ := h.learn _ _ ⟨hframe hf, hp⟩
    exact ⟨hout, hset _ _ _ _ hf.node hleft.node, hleft.context, hleft.input⟩

/-! ## Bonds -/

/-- A relation between optimizers and relations between the contexts that they are called in,
primary ones and those of decoders. Calls keep them and do not tell apart what they relate, and
counting an example and starting a journal entry does not either. -/
structure Bond (R W : Type) [Scalar R] [Number W] [Widening R W] where
  mask : UInt64
  node : Optimizer R W → Optimizer R W → Prop
  primary : ContextRel R W
  decoder : ContextRel R W
  primary_alike : Optimizer.learner.Alike node primary (Region.whole mask) (0 < ·) Optimizer.learner
  decoder_alike : Optimizer.learner.Alike node decoder (Region.whole mask) (0 < ·) Optimizer.learner
  stats {c c'} : primary.rel c c' → c'.stats = c.stats
  holdoutOff {c c'} : primary.rel c c' → c'.holdoutOff = c.holdoutOff
  count {c c'} (features : Nat) : primary.rel c c' →
    primary.rel { c with stats := c.stats.recordExample features }
      { c' with stats := c'.stats.recordExample features }
  dump {c c'} : primary.rel c c' →
    primary.rel { c with stats := { c.stats with sumLossSinceLastDump := 0 } }
      { c' with stats := { c'.stats with sumLossSinceLastDump := 0 } }

theorem Line.learner_alike {N : Optimizer R W → Optimizer R W → Prop}
    (h : Optimizer.learner.Alike N C r (0 < ·) Optimizer.learner) {l : Line} (hl : l.links ≠ []) :
    l.learner.Alike N C r (fun _ => True) l.learner :=
  scorers_alike h hl

namespace Tower

/-- Whether all lines of a tower have scorers. -/
def Scored : Tower R → Prop
  | bandit l => l.links ≠ []
  | grounded _ _ decoder primary => decoder.links ≠ [] ∧ primary.Scored

/-- States of a tower on related optimizers. The counters are the same; examples for reuse are not
compared. -/
def Related (B : Bond R W) : (t : Tower R) → t.State W → t.State W → Prop
  | bandit _ => Bandit.Below B.node
  | grounded _ _ _ primary => Grounded.Related (primary.Related B) B.decoder

variable {B : Bond R W}

theorem Related.optimizer {t : Tower R} {s s' : t.State W} (h : t.Related B s s') :
    B.node (t.optimizer s) (t.optimizer s') := by
  induction t with
  | bandit _ => exact h
  | grounded _ _ _ primary ih => exact ih h.node

/-- Other optimizers below, which may be related otherwise than those before. -/
theorem Related.setOptimizer {B' : Bond R W} {t : Tower R} {s s' : t.State W} (h : t.Related B s s')
    (hdecoder : ∀ {c c'}, B.decoder.rel c c' → B'.decoder.rel c c') {o o' : Optimizer R W}
    (ho : B'.node o o') : t.Related B' (t.setOptimizer o s) (t.setOptimizer o' s') := by
  induction t with
  | bandit _ => exact ho
  | grounded _ _ _ primary ih => exact ⟨hdecoder h.decoderContext, h.counters, ih h.node⟩

/-- What is read off the contexts of decoders and the counters is the same. -/
theorem Related.map_groundedStates {t : Tower R} {s s' : t.State W} (h : t.Related B s s')
    {β : Type} {f : GroundedState R W → β} (hf : ∀ g g',
      B.decoder.rel g.decoderContext g'.decoderContext → g'.counters = g.counters → f g' = f g) :
    (t.groundedStates s').map f = (t.groundedStates s).map f := by
  induction t with
  | bandit _ => rfl
  | grounded _ _ _ primary ih =>
    exact congrArg₂ List.cons (hf _ _ h.decoderContext h.counters) (ih h.node)

/-- Towers on related optimizers act alike, in contexts in which these do. -/
theorem learner_alike_in (hC : Optimizer.learner.Alike B.node C (Region.whole B.mask) (0 < ·)
      Optimizer.learner) {t : Tower R} (ht : t.Scored) :
    (t.learner : Learner R W _ _).Alike (t.Related B) C (Region.whole B.mask) t.learner := by
  induction t with
  | bandit l => exact Bandit.learner_alike (l.learner_alike hC ht)
  | grounded settings offset decoder primary ih =>
    have hline := decoder.learner_alike B.decoder_alike ht.1
    have hdecoder := onNode_alike (K := primary.Related B) hline (fun _ _ h => h.optimizer)
      fun _ _ _ _ h ho => h.setOptimizer id ho
    exact Grounded.learner_alike (ih ht.2) hdecoder settings
      ⟨fun _ => trivial, fun _ => trivial⟩

theorem learner_alike {t : Tower R} (ht : t.Scored) :
    (t.learner : Learner R W _ _).Alike (t.Related B) B.primary (Region.whole B.mask)
      t.learner :=
  learner_alike_in B.primary_alike ht

end Tower

/-! ## Passes -/

/-- Scorers leave the end of a pass to the optimizer. -/
theorem Line.learner_endPass (l : Line) :
    (l.learner : LineLearner R W _).endPass = Optimizer.endPass := by
  unfold Line.learner
  induction l.links with
  | nil => rfl
  | cons _ _ ih => exact ih

/-- Nodes of a tower leave the end of a pass to the optimizer. -/
theorem Tower.learner_endPass (t : Tower R) (s : t.State W) (context : Context R W) :
    t.learner.endPass s context =
      (t.setOptimizer ((t.optimizer s).endPass context).1 s,
        ((t.optimizer s).endPass context).2) := by
  induction t with
  | bandit l =>
    change (((_, (l.learner.endPass s.2 context).1), (l.learner.endPass s.2 context).2) :
      (Example R × Optimizer R W) × _) = _
    rw [l.learner_endPass]
    rfl
  | grounded _ _ _ primary ih =>
    change (((_, (primary.learner.endPass s.2 context).1),
      (primary.learner.endPass s.2 context).2) : (GroundedState R W × primary.State W) × _) = _
    rw [ih]
    rfl

namespace Chain

theorem endPass_line (l : Line) (o : Optimizer R W) (context : Context R W)
    (hasher : FeatureHasher) :
    endPass ⟨.line l, o, context, hasher⟩ =
      let pass := o.endPass { context with currentPass := context.currentPass + 1 }
      ⟨.line l, pass.1, pass.2, hasher⟩ :=
  congrArg (fun pass : Optimizer R W × Context R W =>
      (⟨.line l, pass.1, pass.2, hasher⟩ : Chain R W))
    (congrFun (congrFun l.learner_endPass o) _)

theorem endPass_tower (t : Tower R) (s : t.State W) (context : Context R W)
    (hasher : FeatureHasher) :
    endPass ⟨.tower t, s, context, hasher⟩ =
      let pass := (t.optimizer s).endPass { context with currentPass := context.currentPass + 1 }
      ⟨.tower t, t.setOptimizer pass.1 s, pass.2, hasher⟩ :=
  congrArg (fun pass : t.State W × Context R W =>
      (⟨.tower t, pass.1, pass.2, hasher⟩ : Chain R W))
    (t.learner_endPass s _)

end Chain

omit [Number W] [Widening R W] [Scalar R] in
@[simp] theorem Tower.optimizer_setOptimizer (t : Tower R) (o : Optimizer R W) (s : t.State W) :
    t.optimizer (t.setOptimizer o s) = o := by
  induction t with
  | bandit _ => rfl
  | grounded _ _ _ primary ih => exact ih s.2

/-- The end of a pass is that of the optimizer. -/
theorem Chain.endPass_eq (c : Chain R W) :
    let pass := c.optimizer.endPass { c.context with currentPass := c.context.currentPass + 1 }
    c.endPass.optimizer = pass.1 ∧ c.endPass.context = pass.2 := by
  obtain ⟨l | t, state, context, hasher⟩ := c
  · have hend := endPass_line l state context hasher
    rw [hend]
    exact ⟨rfl, rfl⟩
  · have hend := endPass_tower t state context hasher
    rw [hend]
    exact ⟨t.optimizer_setOptimizer _ state, rfl⟩

/-! ## Chains -/

namespace Stack

/-- Whether all lines of a stack have scorers. -/
def Scored : Stack R → Prop
  | line l => l.links ≠ []
  | tower t => t.Scored

/-- States of a stack on related optimizers. -/
def Related (B : Bond R W) : (s : Stack R) → s.State W → s.State W → Prop
  | line _ => B.node
  | tower t => t.Related B

end Stack

namespace Chain

/-- Chains of one stack on related optimizers, in related contexts. -/
inductive Related (B : Bond R W) (stack : Stack R) (hasher : FeatureHasher) :
    Chain R W → Chain R W → Prop
  | intro {state state' : stack.State W} {context context' : Context R W}
      (state_related : stack.Related B state state')
      (context_related : B.primary.rel context context') :
    Related B stack hasher ⟨stack, state, context, hasher⟩ ⟨stack, state', context', hasher⟩

variable {B : Bond R W} {stack : Stack R} {hasher : FeatureHasher} {c c' : Chain R W}

theorem Related.stack_eq (h : Related B stack hasher c c') : c.stack = stack ∧ c'.stack = stack := by
  cases h
  exact ⟨rfl, rfl⟩

theorem Related.context (h : Related B stack hasher c c') : B.primary.rel c.context c'.context := by
  cases h
  assumption

theorem Related.optimizer (h : Related B stack hasher c c') : B.node c.optimizer c'.optimizer := by
  obtain ⟨hstate, -⟩ := h
  cases stack with
  | line l => exact hstate
  | tower t => exact Tower.Related.optimizer hstate

theorem Related.map_grounded? (h : Related B stack hasher c c') {β : Type}
    {f : GroundedState R W → β} (hf : ∀ g g',
      B.decoder.rel g.decoderContext g'.decoderContext → g'.counters = g.counters → f g' = f g) :
    c'.grounded?.map f = c.grounded?.map f := by
  obtain ⟨hstate, -⟩ := h
  cases stack with
  | line l => rfl
  | tower t =>
    have hhead := congrArg List.head? (Tower.Related.map_groundedStates hstate hf)
    rwa [List.head?_map, List.head?_map] at hhead

/-- The end of a pass, which may relate optimizers and contexts otherwise than they were before. -/
theorem Related.endPass {B' : Bond R W} (h : Related B stack hasher c c')
    (hdecoder : ∀ {c c'}, B.decoder.rel c c' → B'.decoder.rel c c')
    (hpass :
      let pass := c.optimizer.endPass { c.context with currentPass := c.context.currentPass + 1 }
      let pass' := c'.optimizer.endPass { c'.context with currentPass := c'.context.currentPass + 1 }
      B'.node pass.1 pass'.1 ∧ B'.primary.rel pass.2 pass'.2) :
    Related B' stack hasher c.endPass c'.endPass := by
  obtain ⟨hnode, hleft⟩ := hpass
  obtain @⟨state, state', context, context', hstate, -⟩ := h
  cases stack with
  | line l =>
    have hend := endPass_line l state context hasher
    have hend' := endPass_line l state' context' hasher
    rw [hend, hend']
    exact ⟨hnode, hleft⟩
  | tower t =>
    have hend := endPass_tower t state context hasher
    have hend' := endPass_tower t state' context' hasher
    rw [hend, hend']
    exact ⟨Tower.Related.setOptimizer hstate hdecoder hnode, hleft⟩

/-- A call that has one outcome on chains related by `K` and related inputs, which stay related. -/
def AlikeOn {ι α : Type} (K : Chain R W → Chain R W → Prop) (J : ι → ι → Prop)
    (call : CallM R W ι α) : Prop :=
  ∀ c c' input input', K c c' → J input input' →
    let run := (ExceptT.run call).run (c, input)
    let run' := (ExceptT.run call).run (c', input')
    run'.1 = run.1 ∧ K run.2.1 run'.2.1 ∧ J run.2.2 run'.2.2

variable {M : Marks}

/-- A call of the upmost node of a line; a tower refuses it. -/
theorem runLine_alike {α : Type}
    {call : LineLearner R W (Optimizer R W) → NodeM R W (Optimizer R W) (Example R) α}
    (h : ∀ {N : Optimizer R W → Optimizer R W → Prop} {C : ContextRel R W} {r : Region B.mask}
      {l : LineLearner R W (Optimizer R W)}, l.Alike N C r (fun _ => True) l →
        NodeM.Alike (Agree N C (Example.Marked M r)) (Agree N C (Example.Marked M r)) (call l)
          (call l))
    (hstack : stack.Scored) :
    AlikeOn (Related B stack hasher) (Example.Marked M (Region.whole B.mask)) (runLine call) := by
  rintro _ _ ec ec' ⟨hstate, hcontext⟩ hec
  cases stack with
  | tower t => exact ⟨rfl, ⟨hstate, hcontext⟩, hec⟩
  | line l =>
    obtain ⟨hout, hleft⟩ := h (l.learner_alike B.primary_alike hstack) ⟨_, _, ec⟩ ⟨_, _, ec'⟩
      ⟨hstate, hcontext, hec⟩
    exact ⟨hout.symm, ⟨hleft.node, hleft.context⟩, hleft.input⟩

theorem runLine_tower {α : Type} {t : Tower R} {J : Example R → Example R → Prop}
    (call : LineLearner R W (Optimizer R W) → NodeM R W (Optimizer R W) (Example R) α) :
    AlikeOn (Related B (.tower t) hasher) J (runLine call) := by
  rintro _ _ _ _ ⟨hstate, hcontext⟩ hec
  exact ⟨rfl, ⟨hstate, hcontext⟩, hec⟩

/-- A call of the upmost node of a tower; a line refuses it. -/
theorem runBatch_alike {α : Type}
    {call : {σ : Type} → Learner R W σ (Batch R) → NodeM R W σ (Batch R) α}
    (h : ∀ {σ : Type} {N : σ → σ → Prop} {C : ContextRel R W} {r : Region B.mask}
      {l : Learner R W σ (Batch R)}, l.Alike N C r l →
        NodeM.Alike (Agree N C (Batch.Marked M r)) (Agree N C (Batch.Marked M r)) (call l) (call l))
    (hstack : stack.Scored) :
    AlikeOn (Related B stack hasher) (Batch.Marked M (Region.whole B.mask)) (runBatch call) := by
  rintro _ _ batch batch' ⟨hstate, hcontext⟩ hbatch
  cases stack with
  | line l => exact ⟨rfl, ⟨hstate, hcontext⟩, hbatch⟩
  | tower t =>
    obtain ⟨hout, hleft⟩ := h (t.learner_alike hstack) ⟨_, _, batch⟩ ⟨_, _, batch'⟩
      ⟨hstate, hcontext, hbatch⟩
    exact ⟨hout.symm, ⟨hleft.node, hleft.context⟩, hleft.input⟩

end Chain

end OnlineLearning
