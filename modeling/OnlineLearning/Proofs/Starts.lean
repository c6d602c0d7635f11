import OnlineLearning.Proofs.AlikeWorkspace
import OnlineLearning.Proofs.Built
import OnlineLearning.Proofs.Groups

/-!
# New workspaces at the start of runs

* `Config.eq_of_initialContext`: what is known of the context of a new chain;
* `Workspace.Fresh.related`: a new chain is related to itself by all bonds that its parts keep;
* `Workspace.SameState`: workspaces that calls cannot tell apart, and of which all numbers are the
  same.
-/

namespace OnlineLearning

variable {R W : Type} [Scalar R] [Number W] [Widening R W]

/-! ## Contexts -/

namespace Config

variable {c : Config R} {context : Context R W}

omit [Widening R W] in
/-- Only the interactions of a new context depend on how the configuration is read. -/
theorem eq_of_initialContext (h : c.initialContext = .ok context) :
    context = { (Context.initial c.scorer.loss : Context R W) with
      interactions := context.interactions
      quiet := c.run.quiet
      saveResume := c.run.saveResume
      holdoutOff := c.run.holdoutOff
      checkHoldoutEvery := c.run.checkHoldoutEvery } := by
  obtain ⟨_, -, hcontext⟩ := bind_eq_ok.mp h
  cases hcontext
  rfl

omit [Widening R W] in
theorem loss_of_initialContext (h : c.initialContext = .ok context) :
    context.loss = c.scorer.loss := by
  rw [eq_of_initialContext h]
  rfl

omit [Widening R W] in
theorem stats_of_initialContext (h : c.initialContext = .ok context) :
    context.stats = Stats.initial c.scorer.loss := by
  rw [eq_of_initialContext h]
  rfl

omit [Widening R W] in
theorem saveResume_of_initialContext (h : c.initialContext = .ok context) :
    context.saveResume = c.run.saveResume := by
  rw [eq_of_initialContext h]

omit [Widening R W] in
theorem holdoutOff_of_initialContext (h : c.initialContext = .ok context) :
    context.holdoutOff = c.run.holdoutOff := by
  rw [eq_of_initialContext h]

end Config

/-! ## Chains -/

namespace Workspace

variable {c : Config R} {w : Workspace R W}

theorem Fresh.related (h : Fresh c w) :
    ∃ (p : c.Parts W) (decoder : Context R W) (stack : Stack R) (hasher : FeatureHasher),
      (decoder.loss = .logistic ∧ decoder.stats = Stats.initial .logistic) ∧ stack.Scored ∧
      ∀ B : Bond R W, B.node p.optimizer p.optimizer → B.primary.rel p.context p.context →
        B.decoder.rel decoder decoder → Chain.Related B stack hasher w.chain w.chain := by
  have hlinks (p : c.Parts W) : p.line.links ≠ [] := List.cons_ne_nil _ _
  cases h with
  | line p _ =>
    exact ⟨p, Context.initial .logistic, .line p.line, _, ⟨rfl, rfl⟩, hlinks p,
      fun B hnode hcontext _ => ⟨hnode, hcontext⟩⟩
  | bandit p _ _ =>
    exact ⟨p, Context.initial .logistic, .tower (.bandit p.line), _, ⟨rfl, rfl⟩, hlinks p,
      fun B hnode hcontext _ => ⟨hnode, hcontext⟩⟩
  | grounded p _ base decoder hloss hdecoder =>
    exact ⟨p, decoder, .tower (.grounded _ _ (base.push .logistic) (.bandit p.line)), _,
      ⟨(Config.loss_of_initialContext hdecoder).trans hloss,
        (Config.stats_of_initialContext hdecoder).trans (congrArg Stats.initial hloss)⟩,
      ⟨List.cons_ne_nil _ _, hlinks p⟩,
      fun B hnode hcontext hdecoder => ⟨⟨hdecoder, rfl, hnode⟩, hcontext⟩⟩

theorem Fresh.context_eq (h : Fresh c w) : c.initialContext = .ok w.chain.context := by
  cases h with
  | line p _ => exact p.context_eq
  | bandit p _ _ => exact p.context_eq
  | grounded p _ _ _ _ _ => exact p.context_eq

/-- A new workspace stands on one scorer, or on a tower. -/
theorem Fresh.stack_cases (h : Fresh c w) :
    (∃ mode link, w.chain.stack = .line ⟨mode, [link]⟩) ∨ ∃ t, w.chain.stack = .tower t := by
  cases h with
  | line p _ => exact .inl ⟨_, _, rfl⟩
  | bandit p _ _ => exact .inr ⟨_, rfl⟩
  | grounded p _ _ _ _ _ => exact .inr ⟨_, rfl⟩

/-! ## Journals -/

theorem Fresh.journal_eq (h : Fresh c w) : w.journal = newJournal c := by
  cases h <;> rfl

theorem Fresh.journal_eq_none (h : Fresh c w) (hlog : c.run.progressLog = "") :
    w.journal = none := by
  rw [h.journal_eq]
  unfold newJournal
  rw [hlog]
  rfl

/-- A new journal, if there is one, has a file that can be reached. -/
theorem Fresh.logged (h : Fresh c w) {B : Bond R W} {stack : Stack R} {hasher : FeatureHasher}
    (hchain : Chain.Related B stack hasher w.chain w.chain) : Logged B stack hasher w w := by
  refine ⟨hchain, rfl, fun journal hjournal => ?_⟩
  rw [h.journal_eq] at hjournal
  unfold newJournal at hjournal
  split at hjournal
  · cases hjournal
  · cases hjournal
    rfl

end Workspace

/-! ## States -/

/-- Optimizers with the same numbers. -/
structure Optimizer.SameNumbers (o o' : Optimizer R W) : Prop where
  channels : ∀ i, o'.channels i = o.channels i
  totalWeight : o'.totalWeight = o.totalWeight
  normalizedSumNorm : o'.normalizedSumNorm = o.normalizedSumNorm
  averageSquaredNorm : o'.averageSquaredNorm = o.averageSquaredNorm
  stalls : o'.stalls = o.stalls

/-- Workspaces in the same state, up to how the table is laid out and to the examples for reuse. -/
structure Workspace.SameState (w w' : Workspace R W) : Prop where
  optimizer : Optimizer.SameNumbers w.chain.optimizer w'.chain.optimizer
  context : w'.chain.context = w.chain.context
  decoderContext : w'.chain.grounded?.map GroundedState.decoderContext =
    w.chain.grounded?.map GroundedState.decoderContext
  counters : w'.chain.grounded?.map GroundedState.counters =
    w.chain.grounded?.map GroundedState.counters
  journal : w'.journal = w.journal

theorem Workspace.Logged.sameState {B : Bond R W} {stack : Stack R} {hasher : FeatureHasher}
    {w w' : Workspace R W} (h : Logged B stack hasher w w')
    (hnode : ∀ {o o'}, B.node o o' → Optimizer.SameNumbers o o')
    (hprimary : ∀ {c c'}, B.primary.rel c c' → c' = c)
    (hdecoder : ∀ {c c'}, B.decoder.rel c c' → c' = c) : SameState w w' where
  optimizer := hnode h.chain.optimizer
  context := hprimary h.chain.context
  decoderContext := h.chain.map_grounded? fun _ _ hc _ => hdecoder hc
  counters := h.chain.map_grounded? fun _ _ _ hcounters => hcounters
  journal := h.journal

end OnlineLearning
