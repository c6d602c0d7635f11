import OnlineLearning.Proofs.KnownCosts
import OnlineLearning.Proofs.Predictions
import OnlineLearning.Proofs.Refusals
import OnlineLearning.Proofs.Shadow

/-!
# The line that is learned

A grounded node rewrites the cost of the first line with an observed cost that is not feedback. The
bandit node below it looks for the first action with an observed cost and learns from that. If the
line of the grounded node is an action, the two agree, since the new cost counts as observed too;
if it is a shared line, they do not.

* `Bandit.lesson?` is the regression example of a batch, `Bandit.runOn_learn_lesson` says that a
  bandit node learns it and nothing else;
* `Bandit.lesson?_setObservedCost`: with the chosen line's cost rewritten it is that line's;
* `Workspace.handed` is what the decoder of a workspace leaves of a batch and of the optimizer;
* `Workspace.regresses_chosen_line`: a grounded workspace learns once from the line of which it
  rewrote the cost, and nothing from a batch in which no action has an observed cost, if that line
  is no shared line;
* `Workspace.not_regresses_action`: from a shared line the decoder learns.
-/

namespace OnlineLearning

variable {R W σ : Type} [Scalar R] [Number W] [Widening R W]

/-! ## Rewritten costs -/

namespace Example

theorem find?_replaceObserved {costs : List (LoggedCost R)} {observed : LoggedCost R} {cost : R}
    (h : costs.find? (·.isObserved) = some observed) (hcost : (cost != Scalar.largest) = true) :
    (replaceObserved cost costs).find? (·.isObserved) = some { observed with cost } := by
  induction costs with
  | nil => cases h
  | cons c rest ih =>
    unfold replaceObserved
    rw [List.find?_cons] at h
    by_cases hc : c.isObserved = true
    · have hprobability : 0 < c.probability := by
        simpa using (Bool.and_eq_true_iff.mp hc).2
      have hnew : ({ c with cost } : LoggedCost R).isObserved = true := by
        simpa [LoggedCost.isObserved, hprobability] using hcost
      rw [hc] at h
      cases h
      rw [if_pos hc, List.find?_cons, hnew]
    · rw [Bool.not_eq_true] at hc
      rw [hc] at h
      rw [if_neg (by simp [hc]), List.find?_cons, hc]
      exact ih h

/-- A cost that counts as known can be read where it was written. -/
theorem observed?_setObservedCost {ec : Example R} {observed : LoggedCost R} {cost : R}
    (h : ec.observed? = some observed) (hcost : (cost != Scalar.largest) = true) :
    (ec.setObservedCost cost).observed? = some { observed with cost } := by
  unfold observed? at h
  unfold setObservedCost
  cases hlabel : ec.label with
  | simple target =>
    rw [hlabel] at h
    cases h
  | bandit costs =>
    rw [hlabel] at h
    exact find?_replaceObserved h hcost

/-- An example without what calls of a bandit node write into it. -/
def unscored (ec : Example R) : Example R :=
  { ec with partialPrediction := 0, prediction := .scalar 0, loss := 0 }

end Example

/-! ## Lessons of a bandit node -/

namespace Bandit

/-- The regression example of a batch. -/
def lesson? (batch : Batch R) : Option (Example R) :=
  (chosen? batch).map fun (_, action, observed) => regression (shared? batch) action observed

theorem chosen?_unscored (batch : Batch R) :
    chosen? (batch.map Example.unscored) =
      (chosen? batch).map fun (i, action, observed) => (i, action.unscored, observed) := by
  unfold chosen?
  rw [List.zipIdx_map, List.findSome?_map, List.map_findSome?]
  refine congrArg (List.findSome? · batch.zipIdx) (funext fun (ec, i) => ?_)
  change (if isAction ec then ec.observed?.map fun c => (i, ec.unscored, c) else none) =
    Option.map _ (if isAction ec then ec.observed?.map fun c => (i, ec, c) else none)
  split
  · rw [Option.map_map]
    rfl
  · rfl

theorem shared?_unscored (batch : Batch R) :
    shared? (batch.map Example.unscored) = (shared? batch).map Example.unscored :=
  List.find?_map

theorem lesson?_unscored (batch : Batch R) :
    lesson? (batch.map Example.unscored) = lesson? batch := by
  unfold lesson?
  rw [chosen?_unscored, shared?_unscored, Option.map_map]
  refine congrArg (Option.map · (chosen? batch)) (funext fun (i, action, observed) => ?_)
  cases shared? batch <;> rfl

/-- What learning the example of a batch, if it has one, makes of node and context. -/
def taught (base : LineLearner R W σ) (node : σ) (context : Context R W) :
    Option (Example R) → σ × Context R W
  | none => (node, context)
  | some ec =>
    let left := (base.learn.runOn ⟨node, context, ec⟩).2
    (left.node, left.context)

section

variable {base : LineLearner R W σ} (hobserves : base.Observes) (haccepts : base.Accepts)
include hobserves haccepts

omit [Number W] [Widening R W] in
/-- A bandit node learns the regression example of a batch and no other. -/
theorem runOn_learn_lesson (f : Frame R W (Example R × σ) (Batch R)) :
    let left := ((learn base).runOn f).2
    (left.node.2, left.context) = taught base f.node.2 f.context (lesson? f.input) ∧
      left.input.map Example.unscored = f.input.map Example.unscored := by
  by_cases hne : f.input = []
  · obtain ⟨node, context, _ | _⟩ := f
    · rw [runOn_learn_nil]
      exact ⟨rfl, rfl⟩
    · cases hne
  have hout := predict_takes haccepts hne
  obtain ⟨hnode, hcontext⟩ := predict_observes hobserves f
  have hinput := map_predict (g := Example.unscored) (fun _ _ => rfl) (fun _ _ => rfl) base f
  -- The line is chosen after the prediction, which has written to the batch.
  have hlesson : lesson? ((predict base).runOn f).2.input = lesson? f.input := by
    rw [← lesson?_unscored, hinput, lesson?_unscored]
  rw [runOn_learn]
  generalize (predict base).runOn f = run at hout hnode hcontext hinput hlesson ⊢
  obtain ⟨outcome, node, context, batch⟩ := run
  cases hout
  dsimp only at hnode hcontext hinput hlesson ⊢
  rw [← hlesson, ← hnode, ← hcontext, ← hinput]
  unfold lesson?
  cases chosen? batch with
  | none => exact ⟨rfl, rfl⟩
  | some chosen =>
    obtain ⟨i, action, observed⟩ := chosen
    dsimp only [Option.map]
    unfold taught
    dsimp only
    generalize base.learn.runOn _ = run
    obtain ⟨outcome | outcome, left⟩ := run
    · exact ⟨rfl, rfl⟩
    · have hloss (ec : Example R) :
          Example.unscored { ec with loss := left.input.loss } = ec.unscored := rfl
      exact ⟨rfl, map_modify_of_eq hloss batch i⟩

end

/-! ## The chosen line -/

theorem chosen?_append {before after : Batch R} {line : Example R} {observed : LoggedCost R}
    (hbefore : ∀ ec ∈ before, isAction ec = true → ec.observed? = none)
    (haction : isAction line = true) (hobserved : line.observed? = some observed) :
    chosen? (before ++ line :: after) = some (before.length, line, observed) := by
  have hskip := chosen?_eq_none hbefore
  unfold chosen? at hskip ⊢
  rw [List.zipIdx_append, List.findSome?_append, hskip, List.zipIdx_cons, List.findSome?_cons]
  simp [haction, hobserved]

omit [Scalar R] in
/-- What an action is rewritten to does not hide the shared line. -/
theorem shared?_append {before after : Batch R} {line : Example R}
    (h : isAction line = true) : shared? (before ++ line :: after) = shared? (before ++ after) := by
  have hrole : (line.role == .shared) = false := by
    cases hrole : line.role <;> simp_all [isAction]
  unfold shared?
  rw [List.find?_append, List.find?_append, List.find?_cons, hrole]

/-- With a known cost the line that the grounded node has chosen is that of the bandit node: no
action before it has an observed cost. -/
theorem chosen?_setObservedCost {before after : Batch R} {line : Example R}
    {observed : LoggedCost R} (hbefore : ∀ ec ∈ before, Grounded.isCandidate ec = false)
    (haction : isAction line = true) (hobserved : line.observed? = some observed) {cost : R}
    (hcost : (cost != Scalar.largest) = true) :
    chosen? (before ++ line.setObservedCost cost :: after) =
      some (before.length, line.setObservedCost cost, { observed with cost }) := by
  refine chosen?_append
    (fun ec hec haction => observed?_of_not_candidate (hbefore ec hec) haction) ?_
    (Example.observed?_setObservedCost hobserved hcost)
  obtain ⟨label, hlabel⟩ := line.exists_setObservedCost_eq cost
  rw [hlabel]
  exact haction

theorem lesson?_of_not_chosen {batch : Batch R} (h : Grounded.chosen? batch = none) :
    lesson? batch = none := by
  have hlines : ∀ ec ∈ batch, Grounded.isCandidate ec = false := List.findIdx?_eq_none_iff.mp h
  unfold lesson?
  rw [chosen?_eq_none fun ec hec haction => observed?_of_not_candidate (hlines ec hec) haction]
  rfl

end Bandit

namespace Grounded

theorem exists_line_of_chosen? {batch : Batch R} {chosen : Nat} (h : chosen? batch = some chosen) :
    ∃ line, batch[chosen]? = some line ∧ line.hasObservedCost = true := by
  obtain ⟨before, line, after, rfl, rfl, -, hcandidate⟩ := exists_of_chosen? h
  exact ⟨line, by simp, (Bool.and_eq_true_iff.mp hcandidate).2⟩

/-- What the line of the grounded node is rewritten to is learned, if that line is an action. -/
theorem lesson?_setObservedCost {batch : Batch R} {chosen : Nat} {line : Example R}
    (hchosen : chosen? batch = some chosen) (hline : batch[chosen]? = some line)
    (haction : Bandit.isAction line = true) {cost : R} (hcost : (cost != Scalar.largest) = true) :
    ∃ observed, line.observed? = some observed ∧
      Bandit.lesson? (batch.modify chosen (·.setObservedCost cost)) =
        some (Bandit.regression (Bandit.shared? batch) line { observed with cost }) := by
  obtain ⟨before, other, after, rfl, rfl, hbefore, hcandidate⟩ := exists_of_chosen? hchosen
  obtain rfl : other = line := by simpa using hline
  obtain ⟨observed, hobserved⟩ : ∃ observed, other.observed? = some observed :=
    Option.isSome_iff_exists.mp (Bool.and_eq_true_iff.mp hcandidate).2
  refine ⟨observed, hobserved, ?_⟩
  rw [modify_at_length]
  unfold Bandit.lesson?
  rw [Bandit.chosen?_setObservedCost hbefore haction hobserved hcost,
    Bandit.shared?_append haction]
  obtain ⟨label, hlabel⟩ := other.exists_setObservedCost_eq cost
  have hrewritten : Bandit.isAction { other with label } = true := haction
  rw [hlabel, Bandit.shared?_append hrewritten]
  rfl

section

variable {base : LineLearner R W σ} (hobserves : base.Observes) (haccepts : base.Accepts)
  {decoder : LineLearner R W (Example R × σ)} (hdecoder : decoder.Accepts)
include hobserves haccepts hdecoder

omit [Number W] [Widening R W] in
/-- Over a bandit node, what is learned after the decoder is the regression example of the batch
that the decoder left. -/
theorem runOn_learn_lesson (s : GroundedSettings R) (offset : UInt64) (state : GroundedState R W)
    (node : Example R × σ) (context : Context R W) (batch : Batch R) :
    let hand := handover s offset decoder state.decoderContext node batch
    let left := ((learn s offset (Bandit.learner base) decoder).runOn
      ⟨(state, node), context, batch⟩).2
    (left.node.2.2, left.context) =
        Bandit.taught base hand.2.2 context (Bandit.lesson? hand.1) ∧
      left.input.map Example.unscored = hand.1.map Example.unscored := by
  intro hand left
  cases hchosen : chosen? batch with
  | some chosen =>
    obtain ⟨-, hnode, hcontext, hinput⟩ :=
      learn_handover hdecoder s offset (Bandit.learner base) state node context hchosen
    obtain ⟨htaught, hlines⟩ :=
      Bandit.runOn_learn_lesson hobserves haccepts ⟨hand.2, context, hand.1⟩
    change left.node.2 = _ at hnode
    change left.context = _ at hcontext
    change left.input = _ at hinput
    rw [hnode, hcontext, hinput]
    exact ⟨htaught, hlines⟩
  | none =>
    have hhand : hand = (batch, node) := by
      simp only [hand, handover, hchosen]
    rw [hhand, Bandit.lesson?_of_not_chosen hchosen]
    by_cases hne : batch = []
    · subst hne
      have hleft : left = ⟨(state, node), context, []⟩ := congrArg Prod.snd
        (runOn_learn_nil s offset (Bandit.learner base) decoder (state, node) context)
      rw [hleft]
      exact ⟨rfl, rfl⟩
    · have hleft : left = _ := congrArg Prod.snd (runOn_learn_of_none s offset
        (Bandit.learner base) decoder (state, node) context hne hchosen)
      obtain ⟨hnode, hcontext⟩ := Bandit.predict_observes hobserves ⟨node, context, batch⟩
      have hlines := Bandit.map_predict (g := Example.unscored) (fun _ _ => rfl) (fun _ _ => rfl)
        base ⟨node, context, batch⟩
      rw [hleft]
      exact ⟨Prod.ext hnode hcontext, hlines⟩

end

/-- What the cost of a chosen line may be rewritten to. -/
def costs (s : GroundedSettings R) (negative : Bool) : List R := [0, extremeCost s negative]

omit [Number W] [Widening R W] in
theorem groundedCost_mem_costs (s : GroundedSettings R) (psi : R) (negative : Bool) :
    groundedCost s psi negative ∈ costs s negative := by
  unfold groundedCost
  split
  · exact List.mem_pair.mpr (.inr rfl)
  · exact List.mem_pair.mpr (.inl rfl)

theorem ne_largest_of_mem_costs {s : GroundedSettings Float32} (hprior : 0 < s.unlabeledPrior)
    {negative : Bool} {cost : Float32} (h : cost ∈ costs s negative) :
    (cost != Scalar.largest) = true := by
  rcases List.mem_pair.mp h with rfl | rfl
  · decide +kernel
  · exact extremeCost_known hprior negative

/-- If the loss is in range, the cost is nothing, a gain of one, or the loss taken from the gain. -/
theorem mem_of_mem_costs {s : GroundedSettings Float32}
    (hfinite : Scalar.isFinite (1 + 1 / s.unlabeledPrior) = true) {negative : Bool}
    {cost : Float32} (h : cost ∈ costs s negative) :
    cost ∈ [0, -1, -1 + (1 + 1 / s.unlabeledPrior)] := by
  rcases List.mem_pair.mp h with rfl | rfl
  · exact List.mem_cons_self
  · rw [extremeCost_eq hfinite]
    cases negative <;> simp

end Grounded

/-! ## Workspaces -/

namespace Workspace

/-- What the decoder of a workspace leaves of a batch that is learned, and of the optimizer. -/
def handed (w : Workspace R W) (batch : Batch R) : Batch R × Optimizer R W :=
  match w.chain with
  | ⟨.tower (.grounded s offset decoder primary), (state, node), _, _⟩ =>
    let decoder := decoder.learner.onNode primary.optimizer fun o => primary.setOptimizer o
    let hand := Grounded.handover s offset decoder state.decoderContext node batch
    (hand.1, primary.optimizer hand.2)
  | c => (batch, c.optimizer)

/-- A batch of which the cost of the line at `chosen` was rewritten to `cost` and nothing else, and
from which `l`, the line of learners below the bandit node, has learned once: the line at `chosen`,
with `cost` as its target. -/
structure Regressed (l : Line) (w : Workspace R W) (batch : Batch R) (chosen : Nat)
    (line : Example R) (observed : LoggedCost R) (cost : R) : Prop where
  line_eq : batch[chosen]? = some line
  observed_eq : line.observed? = some observed
  batch_eq : (learnBatch.runOn w batch).2.2.map Example.unscored =
    (batch.modify chosen (·.setObservedCost cost)).map Example.unscored
  optimizer_eq : (learnBatch.runOn w batch).2.1.chain.optimizer =
    (l.learner.learn.runOn ⟨(w.handed batch).2, w.chain.context,
      Bandit.regression (Bandit.shared? batch) line { observed with cost }⟩).2.node

section

variable {s : GroundedSettings R} {decoder l : Line} {w : Workspace R W}
  (hstack : w.chain.stack = .tower (.grounded s 1 decoder (.bandit l)))
include hstack

/-- A grounded workspace learns, after the decoder, the regression example of the batch that the
decoder left. -/
theorem learnBatch_lesson {batch : Batch R} (hlearns : learns w.chain.context batch true = true) :
    let hand := w.handed batch
    let run := learnBatch.runOn w batch
    run.2.1.chain.optimizer =
        (Bandit.taught l.learner hand.2 w.chain.context (Bandit.lesson? hand.1)).1 ∧
      run.2.2.map Example.unscored = hand.1.map Example.unscored := by
  obtain ⟨config, ⟨stack, state, context, hasher⟩, journal⟩ := w
  subst hstack
  obtain ⟨state, node⟩ := state
  have hrun := runOn_callBatch true config (.grounded s 1 decoder (.bandit l)) (state, node)
    context hasher journal batch
  change learnBatch.runOn _ batch = _ at hrun
  obtain ⟨htaught, hlines⟩ := Grounded.runOn_learn_lesson l.learner_observes l.learner_accepts
    (onNode_accepts decoder.learner_accepts _ _) s 1 state node context batch
  dsimp only at hlearns
  rw [hlearns] at hrun
  rw [hrun]
  exact ⟨congrArg Prod.fst htaught, hlines⟩

theorem handed_of_not_chosen {batch : Batch R} (h : Grounded.chosen? batch = none) :
    w.handed batch = (batch, w.chain.optimizer) := by
  obtain ⟨config, ⟨stack, state, context, hasher⟩, journal⟩ := w
  subst hstack
  obtain ⟨state, node⟩ := state
  unfold handed Grounded.handover
  dsimp only
  rw [h]
  rfl

theorem handed_of_chosen {batch : Batch R} {chosen : Nat}
    (h : Grounded.chosen? batch = some chosen) :
    ∃ cost ∈ Grounded.costs s (Grounded.isNegative s (Grounded.feedback? batch)),
      (w.handed batch).1 = batch.modify chosen (·.setObservedCost cost) := by
  obtain ⟨config, ⟨stack, state, context, hasher⟩, journal⟩ := w
  subst hstack
  obtain ⟨state, node⟩ := state
  obtain ⟨confident, hhand⟩ := Grounded.handover_of_chosen s 1
    (Grounded.decoderLearner decoder l) state.decoderContext node h
  refine ⟨_, ?_, hhand⟩
  cases confident <;> simp [Grounded.costs]

/-- Without a chosen line nothing is learned. -/
theorem optimizer_of_not_chosen {batch : Batch R} (h : Grounded.chosen? batch = none) :
    (learnBatch.runOn w batch).2.1.chain.optimizer = w.chain.optimizer := by
  cases hlearns : learns w.chain.context batch true with
  | true =>
    rw [(learnBatch_lesson hstack hlearns).1, handed_of_not_chosen hstack h,
      Bandit.lesson?_of_not_chosen h]
    rfl
  | false =>
    obtain ⟨config, ⟨stack, state, context, hasher⟩, journal⟩ := w
    subst hstack
    have hrun := runOn_callBatch true config (.grounded s 1 decoder (.bandit l)) state context
      hasher journal batch
    change learnBatch.runOn _ batch = _ at hrun
    dsimp only at hlearns
    rw [hlearns] at hrun
    rw [hrun]
    exact (Tower.predict_untouched (.grounded s 1 decoder (.bandit l))
      ⟨state, context, batch⟩).1.optimizer

end

/-- From a batch of which the cost of an action is rewritten, a grounded workspace learns that
action and the new cost. -/
theorem learnBatch_regressed {s : GroundedSettings Float32} (hprior : 0 < s.unlabeledPrior)
    {decoder l : Line} {w : Workspace Float32 Float}
    (hstack : w.chain.stack = .tower (.grounded s 1 decoder (.bandit l)))
    {batch : Batch Float32} (hlearns : learns w.chain.context batch true = true) {chosen : Nat}
    {line : Example Float32} (hchosen : Grounded.chosen? batch = some chosen)
    (hline : batch[chosen]? = some line) (haction : Bandit.isAction line = true) :
    ∃ observed,
      ∃ cost ∈ Grounded.costs s (Grounded.isNegative s (Grounded.feedback? batch)),
        w.Regressed l batch chosen line observed cost := by
  obtain ⟨cost, hcost, hhand⟩ := handed_of_chosen hstack hchosen
  obtain ⟨observed, hobserved, hlesson⟩ := Grounded.lesson?_setObservedCost hchosen hline haction
    (Grounded.ne_largest_of_mem_costs hprior hcost)
  obtain ⟨hoptimizer, hlines⟩ := learnBatch_lesson hstack hlearns
  rw [hhand] at hlines
  rw [hhand, hlesson] at hoptimizer
  exact ⟨observed, cost, hcost, hline, hobserved, hlines, hoptimizer⟩

theorem Fresh.grounded_eq {c : Config R} {w : Workspace R W} (h : Fresh c w)
    (hc : c.grounded.enabled = true) :
    0 < (Config.Parts.settings c).unlabeledPrior ∧ ∃ decoder l : Line, w.chain.stack =
      .tower (.grounded (Config.Parts.settings c) 1 decoder (.bandit l)) := by
  cases h with
  | line p h => simp [Config.hasBandit, hc] at h
  | bandit p _ h => simp [hc] at h
  | grounded p _ base decoderContext _ _ =>
    exact ⟨(p.checked.grounded hc).unlabeledPrior.1, _, _, rfl⟩

/-- A grounded workspace, in every state that it gets to, and a batch in which the first line with
an observed cost that is not feedback is an action, if there is such a line. If the batch is
learned, the cost of this action is rewritten, to nothing, a gain of one or what the loss leaves of
it, and after the decoder the workspace learns once: this action, with the new cost as target. If no
action has an observed cost, nothing is learned at all. -/
theorem regresses_chosen_line {c : Config Float32} (hc : c.grounded.enabled = true)
    {w₀ : Workspace Float32 Float} (hnew : Workspace.new c = .ok w₀) (events : List Event)
    {batch : Batch Float32} (haction : ∀ chosen line, Grounded.chosen? batch = some chosen →
      batch[chosen]? = some line → Bandit.isAction line = true) :
    let w := (w₀.echoes events).2
    let s := Config.Parts.settings c
    ∃ decoder l : Line, w.chain.stack = .tower (.grounded s 1 decoder (.bandit l)) ∧
      (learns w.chain.context batch true = true →
        ∀ chosen, Grounded.chosen? batch = some chosen →
          ∃ line observed cost, Bandit.isAction line = true ∧
            w.Regressed l batch chosen line observed cost ∧
            cost ∈ Grounded.costs s (Grounded.isNegative s (Grounded.feedback? batch)) ∧
            (Scalar.isFinite (1 + 1 / s.unlabeledPrior) = true →
              cost ∈ [0, -1, -1 + (1 + 1 / s.unlabeledPrior)])) ∧
      ((∀ line ∈ batch, Bandit.isAction line = true → line.observed? = none) →
        (learnBatch.runOn w batch).2.1.chain.optimizer = w.chain.optimizer) := by
  intro w s
  obtain ⟨hprior, decoder, l, hstack⟩ := (fresh_of_new hnew).grounded_eq hc
  rw [← stack_reached hnew events] at hstack
  refine ⟨decoder, l, hstack, fun hlearns chosen hchosen => ?_,
    fun hnone => optimizer_of_not_chosen hstack ?_⟩
  · obtain ⟨line, hline, -⟩ := Grounded.exists_line_of_chosen? hchosen
    have hline' := haction chosen line hchosen hline
    obtain ⟨observed, cost, hcost, hregressed⟩ :=
      learnBatch_regressed hprior hstack hlearns hchosen hline hline'
    exact ⟨line, observed, cost, hline', hregressed, hcost,
      fun hfinite => Grounded.mem_of_mem_costs hfinite hcost⟩
  · refine Option.eq_none_iff_forall_ne_some.mpr fun chosen hchosen => ?_
    obtain ⟨line, hline, hobserved⟩ := Grounded.exists_line_of_chosen? hchosen
    have hunknown := hnone line (List.mem_of_getElem? hline) (haction chosen line hchosen hline)
    rw [Example.hasObservedCost, hunknown] at hobserved
    cases hobserved

omit [Scalar R] [Number W] [Widening R W] in
theorem learns_of_not_held (context : Context R W) {batch : Batch R}
    (h : batch.any (·.holdout) = false) : learns context batch true = true := by
  simp [learns, h]

/-- A default workspace after a pass, and a batch with a shared line and an action with an observed
cost. -/
theorem regresses_chosen_line_of_click :
    let w := (Config.defaultWorkspace.echoes [.endPass]).2
    let shared : Example Float32 := { Example.single (.simple none) false with role := .shared }
    let action : Example Float32 := .single (.bandit [⟨1, 1, 1⟩]) false
    let batch := [shared, action]
    ((Config.defaultGrounded : Config Float32).grounded.enabled = true ∧
      Workspace.new Config.defaultGrounded = .ok Config.defaultWorkspace ∧
      Grounded.chosen? batch = some 1 ∧ Bandit.isAction action = true ∧
      learns w.chain.context batch true = true) ∧
    ∃ l observed, ∃ cost ∈ [(0 : Float32), -1, -1 + (1 + 1 / (1 / 2))],
      w.Regressed l batch 1 action observed cost := by
  intro w shared action batch
  have hchosen : Grounded.chosen? batch = some 1 := by decide +kernel
  have hlearns : learns w.chain.context batch true = true := learns_of_not_held _ rfl
  have haction (chosen : Nat) (line : Example Float32) (h : Grounded.chosen? batch = some chosen)
      (hline : batch[chosen]? = some line) : Bandit.isAction line = true := by
    cases Option.some.inj (hchosen.symm.trans h)
    cases hline
    rfl
  obtain ⟨_, l, -, hregressed, -⟩ := regresses_chosen_line (c := Config.defaultGrounded) rfl
    Config.new_defaultGrounded [.endPass] haction
  obtain ⟨line, observed, cost, -, hregressed, -, hcost⟩ := hregressed hlearns 1 hchosen
  cases hregressed.line_eq
  exact ⟨⟨rfl, Config.new_defaultGrounded, hchosen, rfl, hlearns⟩, l, observed, cost,
    hcost (by decide +kernel), hregressed⟩

/-- A batch of one shared line, with an observed cost. -/
def sharedBatch : Batch Float32 :=
  [{ Example.single (.bandit [⟨1, 1, 1⟩]) false with role := .shared }]

/-- Of a batch without actions the decoder alone learns. -/
theorem optimizer_sharedBatch :
    (learnBatch.runOn Config.defaultWorkspace sharedBatch).2.1.chain.optimizer =
      (Config.defaultWorkspace.handed sharedBatch).2 := by
  obtain ⟨-, decoder, l, hstack⟩ := (fresh_of_new Config.new_defaultGrounded).grounded_eq rfl
  have hchosen : Grounded.chosen? sharedBatch = some 0 := by decide +kernel
  obtain ⟨cost, -, hhand⟩ := handed_of_chosen hstack hchosen
  have hlesson : Bandit.lesson? (Config.defaultWorkspace.handed sharedBatch).1 = none := by
    rw [hhand]
    rfl
  rw [(learnBatch_lesson hstack (learns_of_not_held _ rfl)).1, hlesson]
  rfl

/-- From a batch with a cost on the shared line, and on no action, the decoder learns. -/
theorem not_regresses_action :
    ¬ ∀ (c : Config Float32) (w₀ : Workspace Float32 Float), c.grounded.enabled = true →
      Workspace.new c = .ok w₀ → ∀ batch : Batch Float32,
        (∀ line ∈ batch, Bandit.isAction line = true → line.observed? = none) →
        ∀ i, (learnBatch.runOn w₀ batch).2.1.chain.optimizer.channels i =
          w₀.chain.optimizer.channels i := by
  intro h
  have hsame := h Config.defaultGrounded Config.defaultWorkspace rfl Config.new_defaultGrounded
    sharedBatch (by simp [sharedBatch, Bandit.isAction]) 2
  -- What the decoder does does not depend on whether it is confident, and its group has seen a
  -- feature of magnitude one.
  rw [optimizer_sharedBatch] at hsame
  have hbits := congrArg (fun channels => (channels.getD 3 0).toBits) hsame
  revert hbits
  decide +kernel

end Workspace

end OnlineLearning
