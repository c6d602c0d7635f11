import OnlineLearning.Proofs.Built
import OnlineLearning.Proofs.Handover
import OnlineLearning.Proofs.Parity
import OnlineLearning.Proofs.WorkspaceCalls

/-!
# A bandit stack in the shadow of a grounded one

Decoder and primary policy of a grounded stack share an optimizer. The decoder stays out of the
groups of the primary policy, but it counts its examples into the totals of the optimizer, which the
primary policy divides its parameters by.

* `Workspace.handover` is what the primary policy is handed by the decoder: the batch with its cost
  rewritten, and the totals;
* `Workspace.Shadowed` pairs a grounded workspace with a bandit workspace that is handed the same;
* `Workspace.shadow_agrees`: the two have the same primary groups, statistics and predictions after
  every batch;
* `Workspace.not_undisturbed`: without the totals they do not.
-/

namespace OnlineLearning

variable {R W σ : Type} [Scalar R] [Number W] [Widening R W] {mask : UInt64}

/-! ## The pair of workspaces -/

/-- The sums over all examples of an optimizer, of whatever problem they were. -/
structure Totals (R W : Type) where
  totalWeight : W
  normalizedSumNorm : W
  averageSquaredNorm : R

namespace Optimizer

omit [Scalar R] [Number W] [Widening R W] in
def totals (o : Optimizer R W) : Totals R W :=
  ⟨o.totalWeight, o.normalizedSumNorm, o.averageSquaredNorm⟩

omit [Scalar R] [Number W] [Widening R W] in
def withTotals (o : Optimizer R W) (t : Totals R W) : Optimizer R W :=
  { o with
    totalWeight := t.totalWeight
    normalizedSumNorm := t.normalizedSumNorm
    averageSquaredNorm := t.averageSquaredNorm }

omit [Number W] [Widening R W] in
theorem Twins.withTotals {r : Region mask} {o o' : Optimizer R W} (h : Twins r o o') :
    Twins r o (o'.withTotals o.totals) := by
  obtain ⟨hmask, t, stalls, rfl, ht⟩ := h
  exact ⟨hmask, t, stalls, rfl, ht⟩

omit [Number W] [Widening R W] in
/-- The optimizer that the decoder left, and a twin of the one before that is given its totals. -/
theorem Twins.handed {o o₁ o' : Optimizer R W}
    (h : Twins (Region.even mask) o (o'.withTotals o.totals))
    {hmask : IsOdd mask} (hkept : Kept (Region.odd mask hmask) o o₁) :
    Twins (Region.even mask) o₁ (o'.withTotals o₁.totals) := by
  obtain ⟨-, t, stalls, heq, ht⟩ := h
  obtain ⟨hmask', t₁, _, _, _, rfl, ht₁⟩ := hkept
  refine ⟨hmask', t, stalls, congrArg (Optimizer.withTotals · _) heq, ht.mask.trans ht₁.mask.symm,
    fun i hi => ?_⟩
  have hi' : IsEven (i &&& o.weights.mask) := by
    rw [← ht₁.mask]
    exact hi
  exact (ht.group i hi').trans (ht₁.group i (not_isOdd.mpr hi')).symm

end Optimizer

namespace Workspace

def withTotals (w : Workspace R W) (t : Totals R W) : Workspace R W :=
  { w with chain := w.chain.setOptimizer (w.chain.optimizer.withTotals t) }

/-- What the primary policy of a workspace is handed by the decoder in a call: the batch and the
totals of the optimizer. -/
def handover (w : Workspace R W) (learning : Bool) (batch : Batch R) : Batch R × Totals R W :=
  match w.chain with
  | ⟨.tower (.grounded s offset decoder primary), (state, node), context, _⟩ =>
    if learns context batch learning then
      let decoder := decoder.learner.onNode primary.optimizer fun o => primary.setOptimizer o
      let (batch, node) := Grounded.handover s offset decoder state.decoderContext node batch
      (batch, (primary.optimizer node).totals)
    else (batch, (primary.optimizer node).totals)
  | c => (batch, c.optimizer.totals)

/-- A grounded workspace over a bandit node, and a bandit workspace with the same line, context and
journal, the optimizers of which agree on the even groups. -/
structure Paired (s : GroundedSettings R) (decoder primary : Line) (mask : UInt64)
    (w w' : Workspace R W) : Prop where
  exists_parts : ∃ (config config' : Config R) (state : GroundedState R W)
    (scratch scratch' : Example R) (o o' : Optimizer R W) (context : Context R W)
    (hasher hasher' : FeatureHasher) (journal : Option (Journal R W)),
    w = ⟨config, ⟨.tower (.grounded s 1 decoder (.bandit primary)), (state, scratch, o), context,
      hasher⟩, journal⟩ ∧
    w' = ⟨config', ⟨.tower (.bandit primary), (scratch', o'), context, hasher'⟩, journal⟩ ∧
    Optimizer.Twins (Region.even mask) o (o'.withTotals o.totals)

/-- The same outcome, but that an empty batch is refused in the name of another node. -/
inductive SameOutcome : Except LearnerError Unit → Except LearnerError Unit → Prop
  | same (outcome) : SameOutcome outcome outcome
  | refused : SameOutcome (.error (.emptyBatch Grounded.name)) (.error (.emptyBatch Bandit.name))

theorem SameOutcome.of_eq {outcome outcome' : Except LearnerError Unit} (h : outcome = outcome') :
    SameOutcome outcome outcome' :=
  h ▸ .same outcome

/-- What the calls of the two learners have in common. -/
structure SameCall
    (run : Except LearnerError Unit ×
      Frame R W (GroundedState R W × (Example R × Optimizer R W)) (Batch R))
    (run' : Except LearnerError Unit × Frame R W (Example R × Optimizer R W) (Batch R))
    (mask : UInt64) : Prop where
  outcome : SameOutcome run.1 run'.1
  context : run'.2.context = run.2.context
  input : run'.2.input = run.2.input
  twins : Optimizer.Twins (Region.even mask) run.2.node.2.2 run'.2.node.2

end Workspace

namespace Bandit

theorem twins_alike {primary : Line} (hprimary : primary.links ≠ []) :
    (learner primary.learner : Learner R W _ _).Alike
      (Below (Optimizer.Twins (Region.even mask))) .eq (Region.even mask)
      (learner primary.learner) :=
  learner_alike (scorers_alike Optimizer.learner_alike hprimary)

end Bandit

namespace Grounded

/-- The decoder of a tower, which reaches down to the optimizer. -/
def decoderLearner (decoder primary : Line) : LineLearner R W (Example R × Optimizer R W) :=
  decoder.learner.onNode (Tower.optimizer (.bandit primary : Tower R)) fun o =>
    Tower.setOptimizer o (.bandit primary : Tower R)

theorem decoderLearner_kept {decoder : Line} (primary : Line) (hdecoder : decoder.links ≠ [])
    {r : Region mask} (o : Optimizer R W) :
    (decoderLearner decoder primary).Alike (Same fun n => Optimizer.Kept r o n.2) .eq r
      (fun _ => True) (decoderLearner decoder primary) :=
  onNode_alike (scorers_alike (Optimizer.learner_kept o) hdecoder)
    (fun _ _ h => ⟨congrArg Prod.snd h.eq, h.holds⟩)
    fun _ _ _ _ h h' => ⟨by rw [h.eq, h'.eq], h'.holds⟩

end Grounded

namespace Workspace

theorem Shifts.even_odd (hmask : IsOdd mask) :
    Grounded.Shifts (Region.even mask) (Region.odd mask hmask) 1 :=
  ⟨fun h => h, fun h => by rw [h]; rfl⟩

variable {s : GroundedSettings R} {decoder primary : Line} {state : GroundedState R W}
  {scratch scratch' : Example R} {o o' : Optimizer R W} {context : Context R W} {batch : Batch R}

/-- Predictions of the two learners. -/
theorem predict_sameCall (hprimary : primary.links ≠ [])
    (htwins : Optimizer.Twins (Region.even mask) o o') (hbatch : (Region.even mask).HoldsAll batch) :
    SameCall ((Grounded.onPrimary (Bandit.learner primary.learner).predict).runOn
        ⟨(state, scratch, o), context, batch⟩)
      ((Bandit.predict primary.learner).runOn ⟨(scratch', o'), context, batch⟩) mask := by
  obtain ⟨hout, hleft⟩ := (Bandit.twins_alike hprimary).predict .same
    ⟨(scratch, o), context, batch⟩ ⟨(scratch', o'), context, batch⟩ ⟨htwins, rfl, .refl hbatch⟩
  exact ⟨.of_eq hout, hleft.context.symm, hleft.input.eq, hleft.node⟩

/-- Both learners learn from what the decoder hands over. -/
theorem learn_sameCall (hmask : IsOdd mask) (hdecoder : decoder.links ≠ [])
    (hprimary : primary.links ≠ [])
    (htwins : Optimizer.Twins (Region.even mask) o (o'.withTotals o.totals))
    (hbatch : (Region.even mask).HoldsAll batch) :
    let hand := Grounded.handover s 1 (Grounded.decoderLearner decoder primary)
      state.decoderContext (scratch, o) batch
    SameCall ((Grounded.learn s 1 (Bandit.learner primary.learner)
        (Grounded.decoderLearner decoder primary)).runOn ⟨(state, scratch, o), context, batch⟩)
      ((Bandit.learn primary.learner).runOn
        ⟨(scratch', o'.withTotals hand.2.2.totals), context, hand.1⟩) mask := by
  intro hand
  cases hchosen : Grounded.chosen? batch with
  | none =>
    have hhand : hand = (batch, (scratch, o)) := by
      simp only [hand, Grounded.handover, hchosen]
    by_cases hne : batch = []
    · subst hne
      have hgrounded := Grounded.runOn_learn_nil s 1 (Bandit.learner primary.learner)
        (Grounded.decoderLearner decoder primary) (state, scratch, o) context
      have hbandit := Bandit.runOn_learn_nil (primary.learner : LineLearner R W _)
        (scratch', o'.withTotals o.totals) context
      rw [hhand, hgrounded, hbandit]
      exact ⟨.refused, rfl, rfl, htwins⟩
    have hgrounded := Grounded.runOn_learn_of_none s 1 (Bandit.learner primary.learner)
      (Grounded.decoderLearner decoder primary) (state, scratch, o) context hne hchosen
    have hbandit := Bandit.runOn_learn_of_not_chosen (primary.learner : LineLearner R W _)
      (f := ⟨(scratch', o'.withTotals o.totals), context, batch⟩) hchosen
    rw [hhand, hgrounded, hbandit]
    exact predict_sameCall hprimary htwins hbatch
  | some chosen =>
    have haccepts : (Grounded.decoderLearner decoder primary : LineLearner R W _).Accepts :=
      onNode_accepts decoder.learner_accepts _ _
    obtain ⟨hout, hnode, hcontext, hinput⟩ := Grounded.learn_handover haccepts s 1
      (Bandit.learner primary.learner) state (scratch, o) context hchosen
    have hkept := Grounded.handover_keeps (Grounded.decoderLearner_kept primary hdecoder o) s
      (Shifts.even_odd hmask) state.decoderContext (scratch, o) ⟨htwins.mask, .refl o⟩ hbatch
    obtain ⟨hout', hleft⟩ := (Bandit.twins_alike hprimary).learn Marks.teachable_same
      ⟨hand.2, context, hand.1⟩ ⟨(scratch', o'.withTotals hand.2.2.totals), context, hand.1⟩
      ⟨htwins.handed hkept, rfl, .refl (Grounded.handover_holds _ _ _ _ _ hbatch)⟩
    refine ⟨.of_eq (hout.trans hout'), hleft.context.symm.trans hcontext.symm,
      hleft.input.eq.trans hinput.symm, ?_⟩
    rw [hnode]
    exact hleft.node

/-! ## A batch -/

variable (s state scratch scratch' context) in
/-- The calls that the two workspaces make of a batch and of what the decoder hands over. -/
theorem call_sameCall (hmask : IsOdd mask) (hdecoder : decoder.links ≠ [])
    (hprimary : primary.links ≠ [])
    (htwins : Optimizer.Twins (Region.even mask) o (o'.withTotals o.totals))
    (hbatch : (Region.even mask).HoldsAll batch) (learning : Bool) :
    let hand := if learning then (Grounded.handover s 1 (Grounded.decoderLearner decoder primary)
      state.decoderContext (scratch, o) batch) else (batch, scratch, o)
    SameCall (((Grounded.learner s 1 (Bandit.learner primary.learner)
        (Grounded.decoderLearner decoder primary)).call learning).runOn
          ⟨(state, scratch, o), context, batch⟩)
      (((Bandit.learner primary.learner).call learning).runOn
        ⟨(scratch', o'.withTotals hand.2.2.totals), context, hand.1⟩) mask := by
  cases learning with
  | false => exact predict_sameCall hprimary htwins hbatch
  | true => exact learn_sameCall hmask hdecoder hprimary htwins hbatch

variable (s decoder primary state scratch o context batch) in
/-- What the decoder hands over, and that the other workspace learns from it if this one does. -/
theorem handover_eq (config : Config R) (hasher : FeatureHasher) (journal : Option (Journal R W))
    (learning : Bool) :
    let hand := if learns context batch learning then (Grounded.handover s 1
      (Grounded.decoderLearner decoder primary) state.decoderContext (scratch, o) batch)
      else (batch, scratch, o)
    handover ⟨config, ⟨.tower (.grounded s 1 decoder (.bandit primary)), (state, scratch, o),
      context, hasher⟩, journal⟩ learning batch = (hand.1, hand.2.2.totals) ∧
    learns context hand.1 learning = learns context batch learning := by
  intro hand
  by_cases hlearns : learns context batch learning
  · have hhand : hand = Grounded.handover s 1 (Grounded.decoderLearner decoder primary)
        state.decoderContext (scratch, o) batch := if_pos hlearns
    refine ⟨?_, ?_⟩
    · rw [hhand]
      exact if_pos hlearns
    · rw [hhand, learns, Grounded.any_holdout_handover, learns]
  · have hhand : hand = (batch, scratch, o) := if_neg hlearns
    refine ⟨?_, ?_⟩
    · rw [hhand]
      exact if_neg hlearns
    · rw [hhand]

omit [Widening R W] in
/-- A failed call is not counted, and otherwise both workspaces count the same. -/
theorem counted_of_sameOutcome {outcome outcome' : Except LearnerError Unit}
    (h : SameOutcome outcome outcome') (context : Context R W) (journal : Option (Journal R W))
    (batch : Batch R) :
    (counted batchTally outcome' context journal batch).2 =
        (counted batchTally outcome context journal batch).2 ∧
      SameOutcome (counted batchTally outcome context journal batch).1
        (counted batchTally outcome' context journal batch).1 := by
  cases h with
  | same => exact ⟨rfl, .same _⟩
  | refused => exact ⟨rfl, .refused⟩

omit [Widening R W] in
/-- Counting leaves the workspaces a pair. -/
theorem paired_of_sameCall
    {run : Except LearnerError Unit ×
      Frame R W (GroundedState R W × (Example R × Optimizer R W)) (Batch R)}
    {run' : Except LearnerError Unit × Frame R W (Example R × Optimizer R W) (Batch R)}
    (h : SameCall run run' mask) (config config' : Config R) (hasher hasher' : FeatureHasher)
    (journal : Option (Journal R W)) :
    let c := counted batchTally run.1 run.2.context journal run.2.input
    let c' := counted batchTally run'.1 run'.2.context journal run'.2.input
    Paired s decoder primary mask
        ⟨config, ⟨.tower (.grounded s 1 decoder (.bandit primary)), run.2.node, c.2.1, hasher⟩, c.2.2⟩
        ⟨config', ⟨.tower (.bandit primary), run'.2.node, c'.2.1, hasher'⟩, c'.2.2⟩ ∧
      run'.2.input = run.2.input ∧ SameOutcome c.1 c'.1 := by
  obtain ⟨hcount, houtcome⟩ := counted_of_sameOutcome h.outcome run.2.context journal run.2.input
  dsimp only
  rw [h.context, h.input, hcount]
  exact ⟨⟨_, _, _, _, _, _, _, _, _, _, _, rfl, rfl, h.twins.withTotals⟩, rfl, houtcome⟩

theorem Paired.rewritten {w w' : Workspace R W} (h : Paired s decoder primary mask w w')
    (learning : Bool) : Grounded.Rewritten s batch (handover w learning batch).1 := by
  obtain ⟨_, _, state, scratch, _, o, _, context, _, _, _, rfl, rfl, -⟩ := h
  unfold handover
  dsimp only
  split
  · exact Grounded.handover_rewritten _ _ _ _ _ _
  · exact .same

/-- After a batch the workspaces are a pair again, and outcome and lines are the same. -/
theorem Paired.step {w w' : Workspace R W} (hmask : IsOdd mask) (hdecoder : decoder.links ≠ [])
    (hprimary : primary.links ≠ []) (h : Paired s decoder primary mask w w')
    (hbatch : (Region.even mask).HoldsAll batch) (learning : Bool) :
    let hand := handover w learning batch
    let run := (callBatch learning).runOn w batch
    let run' := (callBatch learning).runOn (w'.withTotals hand.2) hand.1
    Paired s decoder primary mask run.2.1 run'.2.1 ∧ run'.2.2 = run.2.2 ∧
      SameOutcome run.1 run'.1 := by
  obtain ⟨config, config', state, scratch, scratch', o, o', context, hasher, hasher', journal, rfl,
    rfl, htwins⟩ := h
  obtain ⟨hhand, hlearns⟩ := handover_eq s decoder primary state scratch o context batch config
    hasher journal learning
  have hsame := call_sameCall s state scratch scratch' context hmask hdecoder hprimary htwins hbatch
    (learns context batch learning)
  rw [hhand]
  dsimp only at hlearns hsame ⊢
  generalize (if learns context batch learning then (Grounded.handover s 1
    (Grounded.decoderLearner decoder primary) state.decoderContext (scratch, o) batch)
    else (batch, scratch, o)) = hand at hlearns hsame ⊢
  have hrun := runOn_callBatch learning config (.grounded s 1 decoder (.bandit primary))
    (state, scratch, o) context hasher journal batch
  have hrun' : (callBatch learning).runOn (withTotals ⟨config', ⟨.tower (.bandit primary),
      (scratch', o'), context, hasher'⟩, journal⟩ hand.2.2.totals) hand.1 = _ :=
    runOn_callBatch learning config' (.bandit primary) (scratch', o'.withTotals hand.2.2.totals)
      context hasher' journal hand.1
  rw [hlearns] at hrun'
  rw [hrun, hrun']
  exact paired_of_sameCall hsame config config' hasher hasher' journal

/-! ## Runs -/

/-- Whether a workspace is one that `w₀` may become by calls and loads: it has the same nodes,
hasher and mask. -/
structure SameShape (w₀ w : Workspace R W) : Prop where
  chain : ∃ state context, w.chain = ⟨w₀.chain.stack, state, context, w₀.chain.hasher⟩
  mask : w.chain.optimizer.weights.mask = w₀.chain.optimizer.weights.mask

/-- The workspace of the primary policy alone: without the node that stands on it. -/
def withoutDecoder (w : Workspace R W) : Workspace R W :=
  match w.chain with
  | ⟨.tower (.grounded _ _ _ primary), (_, state), context, hasher⟩ =>
    ⟨w.config.banditOnly, ⟨.tower primary, state, context, { hasher with multiplier := 1 }⟩,
      w.journal⟩
  | _ => w

/-- The pairs that runs with hashed batches lead to, also with calls that fail: a grounded
workspace, and another one that is handed its batches and, by `give`, its totals. -/
inductive Shadowed (give : Totals R W → Workspace R W → Workspace R W) (w₀ w₀' : Workspace R W) :
    Workspace R W → Workspace R W → Prop
  | start : Shadowed give w₀ w₀' w₀ w₀'
  | call {w w'} (learning : Bool) {batch : Batch R} (h : Shadowed give w₀ w₀' w w')
      (hbatch : w₀.chain.hasher.Hashed batch) :
    Shadowed give w₀ w₀' ((callBatch learning).runOn w batch).2.1
      ((callBatch learning).runOn (give (w.handover learning batch).2 w')
        (w.handover learning batch).1).2.1

/-- What two workspaces have in common if they have the same primary policy. -/
structure SamePrimary (w w' : Workspace R W) : Prop where
  channels : ∀ i, IsEven i → w'.chain.optimizer.channels i = w.chain.optimizer.channels i
  context : w'.chain.context = w.chain.context
  journal : w'.journal = w.journal

omit [Number W] [Widening R W] in
theorem Paired.samePrimary {w w' : Workspace R W} (h : Paired s decoder primary mask w w') :
    SamePrimary w w' := by
  obtain ⟨_, _, _, _, _, o, o', _, _, _, _, rfl, rfl, -, t, _, heq, ht⟩ := h
  refine ⟨fun i hi => ?_, rfl, rfl⟩
  have hchannels : (o'.withTotals o.totals).channels i = o.channels i := by
    rw [heq]
    exact congrArg Vector.toList (ht.group i (isEven_and _ hi))
  exact hchannels

omit [Number W] [Widening R W] in
/-- A grounded workspace and its primary policy alone start as a pair. -/
theorem SameShape.paired {config : Config R} {hasher : FeatureHasher}
    {journal : Option (Journal R W)} (hmask : o.weights.mask = mask) {start : Workspace R W}
    (h : SameShape ⟨config, ⟨.tower (.grounded s 1 decoder (.bandit primary)), (state, scratch, o),
      context, hasher⟩, journal⟩ start) :
    Paired s decoder primary mask start start.withoutDecoder := by
  obtain ⟨config', chain, journal'⟩ := start
  obtain ⟨⟨⟨state', scratch', o'⟩, context', hchain⟩, hmask'⟩ := h
  obtain rfl : chain = ⟨.tower (.grounded s 1 decoder (.bandit primary)), (state', scratch', o'),
    context', hasher⟩ := hchain
  have hmask' : o'.weights.mask = mask := Eq.trans hmask' hmask
  exact ⟨_, _, _, _, _, _, _, _, _, _, _, rfl, rfl, hmask', _, _, rfl, .refl _⟩

/-- Runs of a pair lead to pairs. -/
theorem Shadowed.paired {start start' : Workspace R W} {bits : Nat} (hmask : IsOdd mask)
    (hdecoder : decoder.links ≠ []) (hprimary : primary.links ≠ [])
    (hhasher : start.chain.hasher = .ofBits bits 2)
    (hstart : Paired s decoder primary mask start start') {w w' : Workspace R W}
    (h : Shadowed (fun t w => w.withTotals t) start start' w w') :
    Paired s decoder primary mask w w' := by
  induction h with
  | start => exact hstart
  | call learning _ hbatch ih =>
    rw [hhasher] at hbatch
    exact (ih.step hmask hdecoder hprimary hbatch.holdsAll learning).1

/-- The pair that a grounded configuration leads to, in whatever state. -/
theorem exists_paired {c : Config R} (hc : c.grounded.enabled = true) {w₀ start : Workspace R W}
    (hnew : Workspace.new c = .ok w₀) (hstart : SameShape w₀ start) :
    ∃ (decoder primary : Line) (mask : UInt64), IsOdd mask ∧ decoder.links ≠ [] ∧
      primary.links ≠ [] ∧ start.chain.hasher = .ofBits c.weights.bits.toNat 2 ∧
      Workspace.new c.banditOnly = .ok w₀.withoutDecoder ∧
      Paired (Config.Parts.settings c) decoder primary mask start start.withoutDecoder := by
  cases fresh_of_new hnew with
  | line p h => simp [Config.hasBandit, hc] at h
  | bandit p h h' => exact absurd (hc.symm.trans h') (by decide)
  | grounded p h base decoderContext hloss hcontext =>
    have hmask := isOdd_indexMask p.bits_range.1 p.bits_range.2
    refine ⟨base.push .logistic, p.line, _, hmask, List.cons_ne_nil _ _, List.cons_ne_nil _ _, ?_,
      new_banditOnly p, hstart.paired rfl⟩
    obtain ⟨⟨_, _, hchain⟩, -⟩ := hstart
    rw [hchain]
    rfl

/-- The primary policy of a grounded workspace does what it does alone when it is handed batches, in
which nothing but the cost of the chosen line is another one, and totals: groups, statistics and
journal are the same after every run on hashed batches, and so are what comes next, outcome and
lines with their predictions. -/
theorem shadow_agrees {c : Config R} (hc : c.grounded.enabled = true) {w₀ : Workspace R W}
    (hnew : Workspace.new c = .ok w₀) :
    Workspace.new c.banditOnly = .ok w₀.withoutDecoder ∧
      ∀ start, SameShape w₀ start →
        ∀ w w', Shadowed (fun t w => w.withTotals t) start start.withoutDecoder w w' →
          SamePrimary w w' ∧
            ∀ (learning : Bool) (batch : Batch R), w₀.chain.hasher.Hashed batch →
              let hand := w.handover learning batch
              let run := (callBatch learning).runOn w batch
              let run' := (callBatch learning).runOn (w'.withTotals hand.2) hand.1
              Grounded.Rewritten (Config.Parts.settings c) batch hand.1 ∧
                run'.2.2 = run.2.2 ∧ SameOutcome run.1 run'.1 := by
  have hsame : SameShape w₀ w₀ := ⟨⟨_, _, rfl⟩, rfl⟩
  obtain ⟨-, -, -, -, -, -, hhasher₀, hbandit, -⟩ := exists_paired hc hnew hsame
  refine ⟨hbandit, fun start hstart w w' hrun => ?_⟩
  obtain ⟨decoder, primary, mask, hmask, hdecoder, hprimary, hhasher, -, hstart⟩ :=
    exists_paired hc hnew hstart
  have hpaired := hrun.paired hmask hdecoder hprimary hhasher hstart
  refine ⟨hpaired.samePrimary, fun learning batch hbatch => ⟨hpaired.rewritten learning, ?_⟩⟩
  rw [hhasher₀] at hbatch
  exact (hpaired.step hmask hdecoder hprimary hbatch.holdsAll learning).2

/-! ## The totals -/

/-- The first batch of a default workspace. -/
theorem shadow_agrees_at_clickBatch :
    let w := Config.defaultWorkspace
    let batch := clickBatch w.chain.hasher
    let hand := w.handover true batch
    Workspace.new Config.defaultGrounded = .ok w ∧ SameShape w w ∧
      w.chain.hasher.Hashed batch ∧
      SamePrimary ((callBatch true).runOn w batch).2.1
        ((callBatch true).runOn (w.withoutDecoder.withTotals hand.2) hand.1).2.1 := by
  intro w batch hand
  have hshape : SameShape w w := ⟨⟨_, _, rfl⟩, rfl⟩
  have hbatch := hashed_clickBatch w.chain.hasher
  exact ⟨Config.new_defaultGrounded, hshape, hbatch,
    ((shadow_agrees rfl Config.new_defaultGrounded).2 w hshape _ _ (.call true .start hbatch)).1⟩

/-- The index of the feature in `clickBatch`. -/
def clickIndex : UInt64 := Config.defaultWorkspace.chain.hasher.hash "a" "x"

/-- A default workspace with one trained group. -/
def trained : Workspace Float32 Float :=
  let w := Config.defaultWorkspace
  let o := w.chain.optimizer
  let weights := o.weights.modify clickIndex fun g => g.map fun _ => 1
  { w with chain := w.chain.setOptimizer { o with weights } }

theorem load_chain (w : Workspace Float32 Float) (format : ModelFormat) (bytes : List UInt8) :
    ∃ state context, (w.load format bytes).2.chain =
      ⟨w.chain.stack, state, context, w.chain.hasher⟩ := by
  obtain ⟨config, ⟨stack, state, context, hasher⟩, journal⟩ := w
  cases stack <;> exact ⟨_, _, rfl⟩

def resumed : Workspace Float32 Float := (Config.defaultWorkspace.load .binary trained.model).2

theorem sameShape_resumed : SameShape Config.defaultWorkspace resumed := by
  refine ⟨?_, by decide +kernel⟩
  unfold resumed
  exact load_chain _ _ _

/-- The bits of the group at `clickIndex` after a batch. -/
def clickBits (w : Workspace Float32 Float) (batch : Batch Float32) : List UInt32 :=
  (((callBatch true).runOn w batch).2.1.chain.optimizer.channels clickIndex).map Float32.toBits

/-- Whatever becomes of the cost, the parameter depends on the totals: it is divided by them. -/
theorem clickBits_ne {batch : Batch Float32}
    (h : Grounded.Rewritten (Config.Parts.settings Config.defaultGrounded)
      (clickBatch resumed.chain.hasher) batch) :
    clickBits (resumed.withoutDecoder.withTotals
        (resumed.handover true (clickBatch resumed.chain.hasher)).2) batch ≠
      clickBits resumed.withoutDecoder batch := by
  cases h with
  | same => decide +kernel
  | @cost chosen confident h =>
    obtain rfl : 0 = chosen := by
      have hzero : Grounded.chosen? (clickBatch resumed.chain.hasher) = some 0 := by
        decide +kernel
      exact Option.some.inj (hzero.symm.trans h)
    cases confident <;> decide +kernel

/-- If the totals did not matter, a batch would leave the same group with and without them. -/
theorem clickBits_eq_of_undisturbed {start : Workspace Float32 Float}
    (hshape : SameShape Config.defaultWorkspace start)
    (h : ∀ w w', Shadowed (fun _ w => w) start start.withoutDecoder w w' → SamePrimary w w')
    {batch : Batch Float32} (hbatch : start.chain.hasher.Hashed batch) :
    let hand := start.handover true batch
    Grounded.Rewritten (Config.Parts.settings Config.defaultGrounded) batch hand.1 ∧
      clickBits (start.withoutDecoder.withTotals hand.2) hand.1 =
        clickBits start.withoutDecoder hand.1 := by
  obtain ⟨decoder, primary, mask, hmask, hdecoder, hprimary, hhasher, -, hstart⟩ :=
    exists_paired rfl Config.new_defaultGrounded hshape
  have hindex : IsEven clickIndex := by
    change clickIndex.toNat % 2 = 0
    decide +kernel
  have hparted := (h _ _ (.call true .start hbatch)).channels clickIndex hindex
  rw [hhasher] at hbatch
  have hpair := (hstart.step hmask hdecoder hprimary hbatch.holdsAll true).1
  have hagreed := hpair.samePrimary.channels clickIndex hindex
  refine ⟨hstart.rewritten true, ?_⟩
  exact congrArg (List.map Float32.toBits) (hagreed.trans hparted.symm)

/-- The decoder does disturb the primary policy: with the costs alone, and not the totals, a
workspace that goes on from a model and its primary policy alone part after one batch. -/
theorem not_undisturbed :
    Workspace.new Config.defaultGrounded = .ok Config.defaultWorkspace ∧
      (Config.defaultWorkspace.load .binary trained.model).1.isOk = true ∧
      resumed.chain.hasher.Hashed (clickBatch resumed.chain.hasher) ∧
      (∀ ec ∈ clickBatch resumed.chain.hasher, ec.hasObservedCost → Bandit.isAction ec) ∧
      ¬ ∀ w w', Shadowed (fun _ w => w) resumed resumed.withoutDecoder w w' → SamePrimary w w' := by
  refine ⟨Config.new_defaultGrounded, by decide +kernel, hashed_clickBatch _, by decide +kernel,
    fun h => ?_⟩
  obtain ⟨hrewritten, heq⟩ := clickBits_eq_of_undisturbed sameShape_resumed h (hashed_clickBatch _)
  exact clickBits_ne hrewritten heq

end Workspace

end OnlineLearning
