import OnlineLearning.Proofs.Inputs

/-!
# Calls that act alike

Two runs are compared call by call. Calls act alike when related frames give the same outcome and
related frames again; how the states of the nodes are related is left open, and the types of the
states may differ.

* `NodeM.Alike` is the relation between calls, with the rules by which it passes to compositions;
* `ContextRel` are the relations between contexts that no call breaks;
* `LineLearner.Alike` and `Learner.Alike` ask for calls that act alike on the examples of a problem.
  Scorers, bandit nodes and grounded nodes pass them on from the learners below to themselves.
-/

namespace OnlineLearning

variable {R W σ τ ι κ α β : Type}

/-! ## The relation between calls -/

/-- From frames related by `P` both calls have the same outcome, and they leave frames related by
`Q`. -/
def NodeM.Alike (P Q : Frame R W σ ι → Frame R W τ ι → Prop) (call : NodeM R W σ ι α)
    (call' : NodeM R W τ ι α) : Prop :=
  ∀ frame frame', P frame frame' →
    (call.runOn frame).1 = (call'.runOn frame').1 ∧ Q (call.runOn frame).2 (call'.runOn frame').2

namespace NodeM.Alike

variable {P P' Q Q' : Frame R W σ ι → Frame R W τ ι → Prop} {call : NodeM R W σ ι α}
  {call' : NodeM R W τ ι α}

theorem weaken (h : Alike P Q call call') (hpre : ∀ f f', P' f f' → P f f')
    (hpost : ∀ f f', Q f f' → Q' f f') : Alike P' Q' call call' := by
  intro frame frame' hframes
  obtain ⟨hout, hleft⟩ := h frame frame' (hpre _ _ hframes)
  exact ⟨hout, hpost _ _ hleft⟩

theorem of_pure (a : α) (h : ∀ f f', P f f' → Q f f') :
    Alike P Q (Pure.pure a : NodeM R W σ ι α) (Pure.pure a) :=
  fun _ _ hframes => ⟨rfl, h _ _ hframes⟩

theorem of_throw (e : LearnerError) (h : ∀ f f', P f f' → Q f f') :
    Alike P Q (MonadExcept.throw e : NodeM R W σ ι α) (MonadExcept.throw e) :=
  fun _ _ hframes => ⟨rfl, h _ _ hframes⟩

theorem of_modify {g : Frame R W σ ι → Frame R W σ ι} {g' : Frame R W τ ι → Frame R W τ ι}
    (h : ∀ f f', P f f' → Q (g f) (g' f')) :
    Alike P Q (modify g : NodeM R W σ ι PUnit) (modify g') :=
  fun _ _ hframes => ⟨rfl, h _ _ hframes⟩

/-- The second calls start where the first ones end. -/
theorem bind_of {next : α → NodeM R W σ ι β} {next' : α → NodeM R W τ ι β}
    (h : Alike P Q call call') (hfail : ∀ f f', Q f f' → Q' f f')
    (hnext : ∀ a, Alike Q Q' (next a) (next' a)) :
    Alike P Q' (call >>= next) (call' >>= next') := by
  intro frame frame' hframes
  obtain ⟨hout, hleft⟩ := h frame frame' hframes
  rw [runOn_bind, runOn_bind]
  generalize call.runOn frame = run at hout hleft ⊢
  generalize call'.runOn frame' = run' at hout hleft ⊢
  obtain ⟨outcome, left⟩ := run
  obtain ⟨_, left'⟩ := run'
  cases hout
  cases outcome with
  | error e => exact ⟨rfl, hfail _ _ hleft⟩
  | ok a => exact hnext a left left' hleft

theorem bind {next : α → NodeM R W σ ι β} {next' : α → NodeM R W τ ι β}
    (h : Alike P Q call call') (hnext : ∀ a, Alike Q Q (next a) (next' a)) :
    Alike P Q (call >>= next) (call' >>= next') :=
  bind_of h (fun _ _ hleft => hleft) hnext

/-- The frame that was read is the one that the call goes on from. -/
theorem get_bind {next : Frame R W σ ι → NodeM R W σ ι β} {next' : Frame R W τ ι → NodeM R W τ ι β}
    (h : ∀ f f', P f f' → Alike (fun g g' => g = f ∧ g' = f') Q (next f) (next' f')) :
    Alike P Q (get >>= next) (get >>= next') := by
  intro frame frame' hframes
  exact h frame frame' hframes frame frame' ⟨rfl, rfl⟩

theorem read_bind {next : Frame R W σ ι → NodeM R W σ ι β} {next' : Frame R W τ ι → NodeM R W τ ι β}
    (h : ∀ f f', P f f' → Alike P Q (next f) (next' f')) :
    Alike P Q (get >>= next) (get >>= next') :=
  fun frame frame' hframes => h frame frame' hframes frame frame' hframes

end NodeM.Alike

/-! ## Contexts and examples -/

/-- A relation between contexts in which labels are measured alike. It outlives every call. -/
structure ContextRel (R W : Type) [Scalar R] [Number W] [Widening R W] where
  rel : Context R W → Context R W → Prop
  loss {c c'} : rel c c' → c'.loss = c.loss
  interactions {c c'} : rel c c' → c'.interactions = c.interactions
  minLabel {c c'} : rel c c' → c'.stats.minLabel = c.stats.minLabel
  maxLabel {c c'} : rel c c' → c'.stats.maxLabel = c.stats.maxLabel
  coverLabel {c c'} (label : R) : rel c c' → rel (c.coverLabel label) (c'.coverLabel label)
  recordLoss {c c'} (holdout : Bool) (loss weight label : R) : rel c c' →
    rel { c with stats := c.stats.recordLoss holdout loss weight label }
      { c' with stats := c'.stats.recordLoss holdout loss weight label }

namespace ContextRel

variable [Scalar R] [Number W] [Widening R W]

/-- The relation of runs in one context. -/
def eq : ContextRel R W where
  rel := Eq
  loss h := h ▸ rfl
  interactions h := h ▸ rfl
  minLabel h := h ▸ rfl
  maxLabel h := h ▸ rfl
  coverLabel _ h := h ▸ rfl
  recordLoss _ _ _ _ h := h ▸ rfl

/-- The relation of runs in one context, of which `P` stays true. -/
def within (P : Context R W → Prop) (cover : ∀ c label, P c → P (c.coverLabel label))
    (record : ∀ c holdout loss weight label, P c →
      P { c with stats := c.stats.recordLoss holdout loss weight label }) : ContextRel R W where
  rel c c' := c' = c ∧ P c
  loss h := h.1 ▸ rfl
  interactions h := h.1 ▸ rfl
  minLabel h := h.1 ▸ rfl
  maxLabel h := h.1 ▸ rfl
  coverLabel label h := ⟨h.1 ▸ rfl, cover _ label h.2⟩
  recordLoss holdout loss weight label h := ⟨h.1 ▸ rfl, record _ holdout loss weight label h.2⟩

theorem lossOf_eq (C : ContextRel R W) {c c' : Context R W} (h : C.rel c c')
    (prediction label : R) : c'.lossOf prediction label = c.lossOf prediction label := by
  rw [Context.lossOf, Context.lossOf, C.loss h, C.minLabel h, C.maxLabel h]

theorem derivativeOf_eq (C : ContextRel R W) {c c' : Context R W} (h : C.rel c c')
    (prediction label : R) :
    c'.derivativeOf prediction label = c.derivativeOf prediction label := by
  rw [Context.derivativeOf, Context.derivativeOf, C.loss h, C.minLabel h, C.maxLabel h]

theorem bound_eq (C : ContextRel R W) {c c' : Context R W} (h : C.rel c c') (raw : R) :
    c'.bound raw = c.bound raw := by
  rw [Context.bound, Context.bound, C.minLabel h, C.maxLabel h]

end ContextRel

/-- Related nodes, contexts and inputs. -/
structure Agree [Scalar R] [Number W] [Widening R W] (N : σ → τ → Prop) (C : ContextRel R W)
    (J : ι → ι → Prop) (frame : Frame R W σ ι) (frame' : Frame R W τ ι) : Prop where
  node : N frame.node frame'.node
  context : C.rel frame.context frame'.context
  input : J frame.input frame'.input

/-- One node, of which `Inv` is true. Calls that act alike on it keep `Inv`. -/
structure Same (Inv : σ → Prop) (node node' : σ) : Prop where
  eq : node' = node
  holds : Inv node

section Learners

variable [Scalar R] [Number W] [Widening R W] {mask : UInt64} {N : σ → τ → Prop}
  {C : ContextRel R W} {J : ι → ι → Prop}

theorem NodeM.Alike.of_modifyInput {g : ι → ι} (hg : ∀ input input', J input input' →
    J (g input) (g input')) :
    NodeM.Alike (Agree N C J) (Agree N C J) (NodeM.modifyInput g : NodeM R W σ ι Unit)
      (NodeM.modifyInput g) :=
  of_modify fun _ _ h => ⟨h.node, h.context, hg _ _ h.input⟩

theorem NodeM.Alike.of_writeLine {M : Marks} {r : Region mask} {i : Nat}
    {g : Example R → Example R} (hg : Example.Writes g) :
    NodeM.Alike (Agree N C (Batch.Marked M r)) (Agree N C (Batch.Marked M r))
      (NodeM.modifyInput (·.modify i g) : NodeM R W σ _ Unit) (NodeM.modifyInput (·.modify i g)) :=
  of_modifyInput fun _ _ h => h.modify i fun _ _ hline => hline.write hg

theorem NodeM.Alike.of_modifyContext {g g' : Context R W → Context R W}
    (hg : ∀ c c', C.rel c c' → C.rel (g c) (g' c')) :
    NodeM.Alike (Agree N C J) (Agree N C J) (NodeM.modifyContext g : NodeM R W σ ι Unit)
      (NodeM.modifyContext g') :=
  of_modify fun _ _ h => ⟨h.node, hg _ _ h.context, h.input⟩

/-- A call that keeps what is true of a node, in one context and on one input, acts alike on this
node and itself. -/
theorem NodeM.Alike.of_keeps {Inv : σ → Prop} (hC : ∀ c c', C.rel c c' → c' = c)
    (hJ : ∀ input input', J input input' → input' = input) {p : ι → Prop} {call : NodeM R W σ ι α}
    (h : ∀ frame, Inv frame.node → C.rel frame.context frame.context →
      J frame.input frame.input → p frame.input → Inv (call.runOn frame).2.node ∧
        C.rel (call.runOn frame).2.context (call.runOn frame).2.context ∧
          J (call.runOn frame).2.input (call.runOn frame).2.input) :
    NodeM.Alike (fun f f' => Agree (Same Inv) C J f f' ∧ p f.input) (Agree (Same Inv) C J)
      call call := by
  rintro ⟨node, context, input⟩ ⟨node', context', input'⟩ ⟨⟨⟨heq, hnode⟩, hcontext, hinput⟩, hp⟩
  dsimp only at heq hcontext hinput
  subst heq
  obtain rfl := hC _ _ hcontext
  obtain rfl := hJ _ _ hinput
  obtain ⟨hnode', hcontext', hinput'⟩ := h _ hnode hcontext hinput hp
  exact ⟨rfl, ⟨rfl, hnode'⟩, hcontext', hinput'⟩

/-- Learners of single examples that act alike on the examples of a problem. Predictions do so
whatever the marks of the examples are; one example is learned by both, and they are asked to learn
examples of weights in `p` only. -/
structure LineLearner.Alike (N : σ → τ → Prop) (C : ContextRel R W) (r : Region mask)
    (p : R → Prop) (l : LineLearner R W σ) (l' : LineLearner R W τ) : Prop where
  predict (M : Marks) : NodeM.Alike (Agree N C (Example.Marked M r))
    (Agree N C (Example.Marked M r)) l.predict l'.predict
  learn : NodeM.Alike (fun f f' => Agree N C (Example.Marked .same r) f f' ∧ p f.input.weight)
    (Agree N C (Example.Marked .same r)) l.learn l'.learn
  sensitivity : ∀ {M n n' c c' ec ec'}, N n n' → C.rel c c' → Example.Marked M r ec ec' →
    l'.sensitivity n' c' ec' = l.sensitivity n c ec

/-- Learners of batches that act alike on the batches of a problem, whatever the marks of the lines
are if they predict, and of the lines that are not learned if they learn. -/
structure Learner.Alike (N : σ → τ → Prop) (C : ContextRel R W) (r : Region mask)
    (l : Learner R W σ (Batch R)) (l' : Learner R W τ (Batch R)) : Prop where
  predict (M : Marks) : NodeM.Alike (Agree N C (Batch.Marked M r)) (Agree N C (Batch.Marked M r))
    l.predict l'.predict
  learn {M : Marks} : M.Teachable → NodeM.Alike (Agree N C (Batch.Marked M r))
    (Agree N C (Batch.Marked M r)) l.learn l'.learn

end Learners

end OnlineLearning
