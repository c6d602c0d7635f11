import OnlineLearning.Proofs.Handover
import OnlineLearning.Proofs.Reached

/-!
# Calls that are refused

A call fails for one of three reasons: the input is of the wrong kind for the stack, the example has
a label of the wrong form, or the batch is empty. All three are seen before anything is changed.

* `Learner.Takes`: no call with a batch that is not empty fails; `Tower.learner_takes`;
* `Request.refusal?` is the error that a stack refuses a request with, if it does;
* `Workspace.fails_iff_refused`: a call fails with the error that its request is refused with, or
  not at all, and a call that fails leaves the workspace as it was.
-/

namespace OnlineLearning

variable {R W σ : Type} [Scalar R] [Number W] [Widening R W]

/-! ## Batches -/

omit [Scalar R] [Number W] [Widening R W] in
/-- A learner that answers and learns every batch that is not empty. -/
structure Learner.Takes (l : Learner R W σ (Batch R)) : Prop where
  predict : ∀ f, f.input ≠ [] → (l.predict.runOn f).1 = .ok ()
  learn : ∀ f, f.input ≠ [] → (l.learn.runOn f).1 = .ok ()

namespace Bandit

variable {base : LineLearner R W σ}

omit [Number W] [Widening R W] in
theorem scoreLines_takes (h : base.Accepts) (shared : Option (Example R)) (action position : Nat)
    (lines : Batch R) (f : Frame R W (Example R × σ) (Batch R)) :
    ∃ scores, ((scoreLines base shared action position lines).runOn f).1 = .ok scores := by
  induction lines generalizing action position f with
  | nil => exact ⟨[], rfl⟩
  | cons ec rest ih =>
    rw [runOn_scoreLines_cons]
    split
    · have hscored := (h.predict ⟨f.node.2, f.context, merged shared ec⟩ none rfl).1
      generalize base.predict.runOn _ = run at hscored ⊢
      obtain ⟨outcome, left⟩ := run
      cases hscored
      obtain ⟨scores, hrest⟩ := ih (action + 1) (position + 1) ⟨(left.input, left.node),
        left.context, f.input.modify position ({ · with partialPrediction := left.input.scalar })⟩
      dsimp only
      rw [hrest]
      exact ⟨_, rfl⟩
    · exact ih action (position + 1) f

omit [Number W] [Widening R W] in
theorem predict_takes (h : base.Accepts) {f : Frame R W (Example R × σ) (Batch R)}
    (hne : f.input ≠ []) : ((predict base).runOn f).1 = .ok () := by
  obtain ⟨scores, hscore⟩ := scoreLines_takes h (shared? f.input) 0 0 f.input f
  rw [runOn_predict, if_neg (by simpa using hne)]
  generalize (scoreLines base (shared? f.input) 0 0 f.input).runOn f = run at hscore ⊢
  obtain ⟨outcome, left⟩ := run
  cases hscore
  rfl

omit [Number W] [Widening R W] in
/-- Regression examples have labels of the right form. -/
theorem learner_takes (h : base.Accepts) : (learner base).Takes := by
  refine ⟨fun f hne => predict_takes h hne, fun f hne => ?_⟩
  have hpredict := predict_takes h hne
  change ((learn base).runOn f).1 = _
  rw [runOn_learn]
  generalize (predict base).runOn f = run at hpredict ⊢
  obtain ⟨outcome, left⟩ := run
  cases hpredict
  dsimp only
  split
  · rfl
  · rename_i i action observed _
    have hlearn := (h.learn ⟨left.node.2, left.context,
      regression (shared? left.input) action observed⟩ observed.cost rfl).1
    generalize base.learn.runOn _ = run at hlearn ⊢
    obtain ⟨outcome, last⟩ := run
    cases hlearn
    rfl

end Bandit

namespace Grounded

omit [Number W] [Widening R W] in
/-- The decoder hands over as many lines as it was given. -/
theorem length_handover (s : GroundedSettings R) (offset : UInt64) (decoder : LineLearner R W σ)
    (decoderContext : Context R W) (node : σ) (batch : Batch R) :
    (handover s offset decoder decoderContext node batch).1.length = batch.length := by
  unfold handover
  split
  · rfl
  · exact List.length_modify _ _ _

omit [Number W] [Widening R W] in
theorem learner_takes {primary : Learner R W σ (Batch R)} (hprimary : primary.Takes)
    {decoder : LineLearner R W σ} (hdecoder : decoder.Accepts) (s : GroundedSettings R)
    (offset : UInt64) : (learner s offset primary decoder).Takes := by
  refine ⟨fun f hne => hprimary.predict ⟨f.node.2, f.context, f.input⟩ hne, ?_⟩
  rintro ⟨⟨state, node⟩, context, batch⟩ hne
  change ((learn s offset primary decoder).runOn _).1 = _
  cases hchosen : chosen? batch with
  | none =>
    rw [runOn_learn_of_none s offset primary decoder (state, node) context hne hchosen]
    exact hprimary.predict ⟨node, context, batch⟩ hne
  | some chosen =>
    rw [(learn_handover hdecoder s offset primary state node context hchosen).1]
    refine hprimary.learn _ fun hnil => hne ?_
    have hlength := length_handover s offset decoder state.decoderContext node batch
    dsimp only at hnil
    rw [hnil] at hlength
    exact List.length_eq_zero_iff.mp hlength.symm

end Grounded

namespace Tower

theorem learner_takes (t : Tower R) : (t.learner : Learner R W _ _).Takes := by
  induction t with
  | bandit l => exact Bandit.learner_takes l.learner_accepts
  | grounded s offset decoder primary ih =>
    exact Grounded.learner_takes ih (onNode_accepts decoder.learner_accepts _ _) s offset

/-- An empty batch is refused by the bandit node if it is predicted, and by the upmost node if it is
learned. -/
theorem runOn_nil (t : Tower R) (learning : Bool) (s : t.State W) (context : Context R W) :
    (t.learner.call learning).runOn ⟨s, context, []⟩ =
      (.error (.emptyBatch (if learning then t.name else Bandit.name)), ⟨s, context, []⟩) := by
  have hpredict : t.learner.predict.runOn ⟨s, context, []⟩ =
      (.error (.emptyBatch Bandit.name), ⟨s, context, []⟩) := by
    induction t with
    | bandit l => exact Bandit.runOn_predict_nil l.learner s context
    | grounded _ _ _ primary ih =>
      exact congrArg (fun run : Except LearnerError Unit × Frame R W (primary.State W) (Batch R) =>
        (run.1, (⟨(s.1, run.2.node), run.2.context, run.2.input⟩ : Frame R W _ (Batch R)))) (ih s.2)
  cases learning with
  | false => exact hpredict
  | true =>
    cases t with
    | bandit l => exact Bandit.runOn_learn_nil l.learner s context
    | grounded settings offset decoder primary =>
      exact Grounded.runOn_learn_nil settings offset primary.learner _ s context

end Tower

/-! ## Examples -/

namespace Line

/-- A line with a scorer takes every example with a label of the right form. -/
theorem call_accepts {l : Line} (hl : l.links ≠ []) (learning : Bool)
    {f : Frame R W (Optimizer R W) (Example R)} {target : Option R}
    (hlabel : f.input.label = .simple target) :
    ((l.learner.call learning).runOn f).1 = .ok () := by
  obtain ⟨mode, _ | ⟨link, rest⟩⟩ := l
  · exact absurd rfl hl
  · have hbelow := (⟨mode, rest⟩ : Line).learner_accepts (R := R)
    cases learning with
    | false => exact (Scorer.run_accepts hbelow link false f target hlabel).1
    | true => exact (Scorer.run_accepts hbelow link true f target hlabel).1

/-- The upmost scorer refuses other labels. -/
theorem runOn_call_bandit {l : Line} (hl : l.links ≠ []) (learning : Bool)
    {f : Frame R W (Optimizer R W) (Example R)} {costs : List (LoggedCost R)}
    (hlabel : f.input.label = .bandit costs) :
    (l.learner.call learning).runOn f = (.error (.labelMismatch l.name "simple"), f) := by
  obtain ⟨mode, _ | ⟨link, rest⟩⟩ := l
  · exact absurd rfl hl
  · have hrun : (Scorer.run link (⟨mode, rest⟩ : Line).learner learning).runOn f =
        (.error (.labelMismatch (Scorer.name link) "simple"), f) := by
      rw [Scorer.runOn_run, Scorer.runOn_runBelow, hlabel]
    cases learning with
    | false => exact hrun
    | true => exact hrun

end Line

/-! ## Requests -/

namespace Request

/-- Whether a request comes with a batch. -/
def isMultiline : Request R → Bool
  | predict _ | learn _ | sensitivity _ => false
  | predictBatch _ | learnBatch _ => true

/-- The error that a stack refuses a request with, if it does. -/
def refusal? (s : Stack R) (request : Request R) : Option LearnerError :=
  if request.isMultiline != s.isMultiline then
    some (.wrongArity (if s.isMultiline then "multi-line" else "single-line"))
  else
    match request with
    | predict ec | learn ec =>
      match ec.label with
      | .bandit _ => some (.labelMismatch s.name "simple")
      | .simple _ => none
    | sensitivity _ => none
    | predictBatch batch => if batch.isEmpty then some (.emptyBatch Bandit.name) else none
    | learnBatch batch => if batch.isEmpty then some (.emptyBatch s.name) else none

end Request

/-- The error of a call, if it failed. -/
def Answer.error? : Answer R → Option LearnerError
  | line (.error e) _ | sensitivity (.error e) _ | batch (.error e) _ => some e
  | _ => none

namespace Workspace

/-- A call that fails with the error, or does not fail if there is none; when it fails it leaves the
workspace as it was. -/
def Refuses (w : Workspace R W) (run : Answer R × Workspace R W) (refusal? : Option LearnerError) :
    Prop :=
  run.1.error? = refusal? ∧ (run.1.error? ≠ none → run.2 = w)

variable {config : Config R} {hasher : FeatureHasher} {context : Context R W}

theorem callLine_refuses {l : Line} (hl : l.links ≠ []) (learning : Bool) (o : Optimizer R W)
    (ec : Example R) :
    let w : Workspace R W := ⟨config, ⟨.line l, o, context, hasher⟩, none⟩
    let run := (callLine learning).runOn w ec
    w.Refuses (.line run.1 run.2.2, run.2.1) <|
      match ec.label with
      | .bandit _ => some (.labelMismatch l.name "simple")
      | .simple _ => none := by
  intro w run
  have hlabel := label_released context learning ec
  have hrun : run = _ := runOn_callLine learning config l o context hasher none ec
  generalize released context learning ec = seen at hlabel hrun
  cases hform : ec.label with
  | bandit costs =>
    rw [Line.runOn_call_bandit hl learning (hlabel.trans hform)] at hrun
    rw [hrun]
    exact ⟨rfl, fun _ => rfl⟩
  | simple target =>
    have hout := Line.call_accepts hl learning (f := ⟨o, context, seen⟩) (hlabel.trans hform)
    generalize (l.learner.call learning).runOn ⟨o, context, seen⟩ = called at hout hrun
    obtain ⟨outcome, left⟩ := called
    cases hout
    rw [hrun]
    exact ⟨rfl, fun h => absurd rfl h⟩

theorem callBatch_refuses (t : Tower R) (learning : Bool) (s : t.State W) (batch : Batch R) :
    let w : Workspace R W := ⟨config, ⟨.tower t, s, context, hasher⟩, none⟩
    let run := (callBatch learning).runOn w batch
    w.Refuses (.batch run.1 run.2.2, run.2.1) <|
      if batch.isEmpty then some (.emptyBatch (if learning then t.name else Bandit.name))
      else none := by
  intro w run
  have hrun : run = _ := runOn_callBatch learning config t s context hasher none batch
  cases batch with
  | nil =>
    -- an empty batch has no line that is held out
    have hlearns : learns context ([] : Batch R) learning = learning := by simp [learns]
    rw [hlearns, t.runOn_nil] at hrun
    rw [hrun]
    exact ⟨rfl, fun _ => rfl⟩
  | cons ec rest =>
    have hout : ((t.learner.call (learns context (ec :: rest) learning)).runOn
        ⟨s, context, ec :: rest⟩).1 = .ok () := by
      cases learns context (ec :: rest) learning with
      | false => exact t.learner_takes.predict _ (List.cons_ne_nil _ _)
      | true => exact t.learner_takes.learn _ (List.cons_ne_nil _ _)
    generalize (t.learner.call (learns context (ec :: rest) learning)).runOn
      ⟨s, context, ec :: rest⟩ = called at hout hrun
    obtain ⟨outcome, left⟩ := called
    cases hout
    rw [hrun]
    exact ⟨rfl, fun h => absurd rfl h⟩

theorem callLine_refuses_tower {journal : Option (Journal R W)} (t : Tower R) (learning : Bool)
    (s : t.State W) (ec : Example R) :
    let w : Workspace R W := ⟨config, ⟨.tower t, s, context, hasher⟩, journal⟩
    let run := (callLine learning).runOn w ec
    w.Refuses (.line run.1 run.2.2, run.2.1) (some (.wrongArity "multi-line")) := by
  intro w run
  have hrun : run = _ := runOn_callLine_tower learning config t s context hasher journal ec
  rw [hrun]
  exact ⟨rfl, fun _ => rfl⟩

theorem callBatch_refuses_line {journal : Option (Journal R W)} (l : Line) (learning : Bool)
    (o : Optimizer R W) (batch : Batch R) :
    let w : Workspace R W := ⟨config, ⟨.line l, o, context, hasher⟩, journal⟩
    let run := (callBatch learning).runOn w batch
    w.Refuses (.batch run.1 run.2.2, run.2.1) (some (.wrongArity "single-line")) := by
  intro w run
  have hrun : run = _ := runOn_callBatch_line learning config l o context hasher journal batch
  rw [hrun]
  exact ⟨rfl, fun _ => rfl⟩

/-- A workspace without a journal refuses what its stack refuses, and nothing else. -/
theorem answer_refuses {w : Workspace R W} (hstack : w.chain.stack.Scored)
    (hjournal : w.journal = none) (request : Request R) :
    w.Refuses (w.answer request) (request.refusal? w.chain.stack) := by
  obtain ⟨config, ⟨l | t, state, context, hasher⟩, journal⟩ := w
  · cases hjournal
    cases request with
    | predict ec => exact callLine_refuses hstack false state ec
    | learn ec => exact callLine_refuses hstack true state ec
    | sensitivity ec => exact ⟨rfl, fun h => absurd rfl h⟩
    | predictBatch batch => exact callBatch_refuses_line l false state batch
    | learnBatch batch => exact callBatch_refuses_line l true state batch
  · cases hjournal
    cases request with
    | predict ec => exact callLine_refuses_tower t false state ec
    | learn ec => exact callLine_refuses_tower t true state ec
    | sensitivity ec => exact ⟨rfl, fun _ => rfl⟩
    | predictBatch batch => exact callBatch_refuses t false state batch
    | learnBatch batch => exact callBatch_refuses t true state batch

/-- In every state that a workspace without a journal gets to, a call fails exactly when its input
is of the other kind, an example to predict or to learn has a bandit label, or a batch is empty, and
then with the error of this cause. Whenever a call fails, it leaves the workspace as it was. -/
theorem fails_iff_refused {c : Config Float32} (hlog : c.run.progressLog = "")
    {w₀ : Workspace Float32 Float} (hnew : Workspace.new c = .ok w₀) (events : List Event)
    (request : Request Float32) :
    let w := (w₀.echoes events).2
    (w.answer request).1.error? = request.refusal? w.chain.stack ∧
      ((w.answer request).1.error? ≠ none → (w.answer request).2 = w) := by
  obtain ⟨_, _, hstack, hself⟩ := reached hnew events
  refine answer_refuses ?_ (journal_reached hlog hnew events) request
  rw [hself.chain.stack_eq.1]
  exact hstack

/-- A grounded workspace that has learned from a batch and closed a pass, and then is given an empty
batch. -/
theorem fails_iff_refused_of_empty :
    let events := [.call (.learnBatch [.single (.bandit [⟨1, 1, 1⟩]) false]), .endPass]
    let w := (Config.defaultWorkspace.echoes events).2
    (Config.defaultGrounded.run.progressLog = "" ∧
      Workspace.new Config.defaultGrounded = .ok Config.defaultWorkspace) ∧
    (w.answer (.learnBatch [])).1.error? = some (.emptyBatch "interaction_ground") ∧
      (w.answer (.learnBatch [])).2 = w := by
  intro events w
  obtain ⟨herror, hleft⟩ :=
    fails_iff_refused (c := Config.defaultGrounded) rfl Config.new_defaultGrounded events
      (.learnBatch [])
  have hrefusal : Request.refusal? w.chain.stack (.learnBatch []) =
      some (.emptyBatch "interaction_ground") := by
    rw [stack_reached Config.new_defaultGrounded]
    decide +kernel
  have hempty := herror.trans hrefusal
  have hfails := hempty.trans_ne (Option.some_ne_none _)
  exact ⟨⟨rfl, Config.new_defaultGrounded⟩, hempty, hleft hfails⟩

end Workspace

end OnlineLearning
