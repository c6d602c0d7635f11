import OnlineLearning.Proofs.Calls

/-!
# What a grounded node does with a batch

The node makes its examples in one that it holds for reuse, and it stands on a primary policy and
a decoder of which nothing is known: they may change the state they share, and they may fail.

* `Grounded.course` is what a decoder makes of examples that it learns one after another, up to the
  first on which it fails;
* `Grounded.protocol` is the whole exchange with decoder and primary policy over a batch with a
  chosen line, from the lines, the settings and the states alone;
* `Grounded.learn_protocol` says that `Grounded.learn` is this exchange, whatever the example for
  reuse held before, and that it is a prediction of the primary policy if no line was chosen.
-/

namespace OnlineLearning.Grounded

variable {R W σ : Type} [Scalar R]

/-! ## The exchange -/

/-- What a decoder leaves of a course: `learned` counts the examples before the one it failed on. -/
structure Course (R W σ : Type) where
  outcome : Except LearnerError Unit
  learned : Nat
  node : σ
  context : Context R W

omit [Scalar R] in
/-- Lets a decoder learn examples one after another, up to the first on which it fails. -/
def course (decoder : LineLearner R W σ) (node : σ) (context : Context R W) :
    List (Example R) → Course R W σ
  | [] => ⟨.ok (), 0, node, context⟩
  | ec :: rest =>
    match decoder.learn.runOn ⟨node, context, ec⟩ with
    | (.error e, left) => ⟨.error e, 0, left.node, left.context⟩
    | (.ok (), left) =>
      let later := course decoder left.node left.context rest
      { later with learned := later.learned + 1 }

/-- What a call leaves, but for the example that the node holds for reuse. -/
structure Aftermath (R W σ : Type) where
  outcome : Except LearnerError Unit
  counters : GroundedCounters
  decoderContext : Context R W
  node : σ
  context : Context R W
  batch : Batch R

omit [Scalar R] in
def aftermath (run : Except LearnerError Unit × Frame R W (GroundedState R W × σ) (Batch R)) :
    Aftermath R W σ where
  outcome := run.1
  counters := run.2.node.1.counters
  decoderContext := run.2.node.1.decoderContext
  node := run.2.node.2
  context := run.2.context
  batch := run.2.input

/-- The decoder examples of lines that are not feedback and were not chosen. -/
def otherExamples (s : GroundedSettings R) (offset : UInt64) (feedback : Option (Feature R))
    (lines : Batch R) : List (Example R) :=
  (lines.filter (·.role != .feedback)).map (decoderExample s offset feedback false)

/-- The exchange with the primary policy, once the decoder has scored `line` by `psi` and was
taught: the cost of the line is rewritten, and the policy learns from the batch. -/
def settlement (s : GroundedSettings R) (primary : Learner R W σ (Batch R))
    (feedback : Option (Feature R)) (psi : R) (counters : GroundedCounters)
    (decoderContext : Context R W) (node : σ) (context : Context R W) (before : Batch R)
    (line : Example R) (after : Batch R) : Aftermath R W σ :=
  let cost := groundedCost s psi (isNegative s feedback)
  let counters := { counters with
    extremeBatches := counters.extremeBatches + if 1 < psi * 2 then 1 else 0 }
  match primary.learn.runOn ⟨node, context, before ++ line.setObservedCost cost :: after⟩ with
  | (.error e, left) => ⟨.error e, counters, decoderContext, left.node, left.context, left.input⟩
  | (.ok (), left) =>
    ⟨.ok (), { counters with batchesLearned := counters.batchesLearned + 1 }, decoderContext,
      left.node, left.context, left.input⟩

/-- The exchange over the batch `before ++ line :: after`, in which `line` was chosen. The first
call that fails ends it. -/
def protocol (s : GroundedSettings R) (offset : UInt64) (primary : Learner R W σ (Batch R))
    (decoder : LineLearner R W σ) (counters : GroundedCounters) (decoderContext : Context R W)
    (node : σ) (context : Context R W) (before : Batch R) (line : Example R) (after : Batch R) :
    Aftermath R W σ :=
  let batch := before ++ line :: after
  let feedback := feedback? batch
  let positive := decoderExample s offset feedback true line
  match decoder.predict.runOn ⟨node, decoderContext, positive⟩ with
  | (.error e, left) => ⟨.error e, counters, left.context, left.node, context, batch⟩
  | (.ok (), scored) =>
    let taught := course decoder scored.node scored.context
      (otherExamples s offset feedback before ++ positive :: otherExamples s offset feedback after)
    let counters := { counters with
      decoderExamples := counters.decoderExamples + UInt64.ofNat taught.learned }
    match taught.outcome with
    | .error e => ⟨.error e, counters, taught.context, taught.node, context, batch⟩
    | .ok () =>
      settlement s primary feedback scored.input.scalar counters taught.context taught.node context
        before line after

/-! ## The chosen line and the feedback -/

/-- Whether a line would be chosen. -/
def isCandidate (line : Example R) : Bool := line.role != .feedback && line.hasObservedCost

theorem chosen?_eq_none {batch : Batch R} (h : ∀ line ∈ batch, isCandidate line = false) :
    chosen? batch = none :=
  List.findIdx?_eq_none_iff.mpr h

theorem chosen?_append {before after : Batch R} {line : Example R}
    (hbefore : ∀ earlier ∈ before, isCandidate earlier = false) (hline : isCandidate line = true) :
    chosen? (before ++ line :: after) = some before.length := by
  have hskip : before.findIdx? (isCandidate (R := R)) = none :=
    List.findIdx?_eq_none_iff.mpr hbefore
  change (before ++ line :: after).findIdx? (isCandidate (R := R)) = _
  rw [List.findIdx?_append, hskip, List.findIdx?_cons, hline]
  simp

omit [Scalar R] in
/-- The feedback is looked for in the last feedback line, and is its first feature. -/
theorem feedback?_append {before after : Batch R} {line : Example R} (hline : line.role = .feedback)
    (hafter : ∀ later ∈ after, later.role ≠ .feedback) :
    feedback? (before ++ line :: after) = line.namespaces.toList.head? := by
  have hskip : after.reverse.find? (·.role == .feedback) = none := by
    rw [List.find?_eq_none]
    intro later hmem
    simpa using hafter later (List.mem_reverse.mp hmem)
  simp [feedback?, List.find?_append, hskip, hline]

/-! ## Teaching -/

/-- The examples that the decoder learns from the lines from a position on. -/
def lessons (s : GroundedSettings R) (offset : UInt64) (feedback : Option (Feature R))
    (chosen : Nat) : (position : Nat) → Batch R → List (Example R)
  | _, [] => []
  | position, line :: rest =>
    let later := lessons s offset feedback chosen (position + 1) rest
    if line.role != .feedback then
      decoderExample s offset feedback (position == chosen) line :: later
    else later

theorem lessons_append (s : GroundedSettings R) (offset : UInt64) (feedback : Option (Feature R))
    (chosen position : Nat) (before after : Batch R) :
    lessons s offset feedback chosen position (before ++ after) =
      lessons s offset feedback chosen position before ++
        lessons s offset feedback chosen (position + before.length) after := by
  induction before generalizing position with
  | nil => rfl
  | cons line rest ih =>
    have hnext : position + (line :: rest).length = position + 1 + rest.length := by
      rw [List.length_cons]
      omega
    rw [hnext, List.cons_append, lessons, ih, lessons]
    split <;> rfl

/-- Lines other than the chosen one give negative examples. -/
theorem lessons_of_apart (s : GroundedSettings R) (offset : UInt64) (feedback : Option (Feature R))
    {chosen position : Nat} {lines : Batch R}
    (h : chosen < position ∨ position + lines.length ≤ chosen) :
    lessons s offset feedback chosen position lines = otherExamples s offset feedback lines := by
  induction lines generalizing position with
  | nil => rfl
  | cons line rest ih =>
    rw [List.length_cons] at h
    have hne : (position == chosen) = false := by
      rw [beq_eq_false_iff_ne]
      omega
    rw [lessons, hne, ih (by omega)]
    simp only [otherExamples, List.filter_cons]
    split <;> rfl

theorem lessons_of_chosen (s : GroundedSettings R) (offset : UInt64) (feedback : Option (Feature R))
    {before after : Batch R} {line : Example R} (hline : line.role ≠ .feedback) :
    lessons s offset feedback before.length 0 (before ++ line :: after) =
      otherExamples s offset feedback before ++
        decoderExample s offset feedback true line :: otherExamples s offset feedback after := by
  rw [lessons_append, lessons_of_apart s offset feedback (by simp), Nat.zero_add, lessons,
    lessons_of_apart s offset feedback (by simp)]
  simp [hline]

/-- Teaching is a course in the context of the decoder; only the example for reuse is changed
besides. -/
theorem aftermath_teach (s : GroundedSettings R) (offset : UInt64) (decoder : LineLearner R W σ)
    (feedback : Option (Feature R)) (chosen position : Nat) (lines : Batch R)
    (state : GroundedState R W) (node : σ) (context : Context R W) (batch : Batch R) :
    let taught := course decoder node state.decoderContext
      (lessons s offset feedback chosen position lines)
    aftermath ((teach s offset decoder feedback chosen position lines).runOn
        ⟨(state, node), context, batch⟩) =
      ⟨taught.outcome,
        { state.counters with
          decoderExamples := state.counters.decoderExamples + UInt64.ofNat taught.learned },
        taught.context, taught.node, context, batch⟩ := by
  induction lines generalizing position state node with
  | nil => simp [teach, lessons, course, aftermath]
  | cons line rest ih =>
    unfold teach lessons
    by_cases hrole : line.role = .feedback
    · simpa [hrole] using ih (position + 1) state node
    · simp only [bne_iff_ne, ne_eq, hrole, not_false_eq_true, if_true, NodeM.runOn_bind,
        runOn_onDecoder, fill_eq_decoderExample, course]
      generalize hrun : decoder.learn.runOn ⟨node, state.decoderContext,
        decoderExample s offset feedback (position == chosen) line⟩ = run
      obtain ⟨outcome | outcome, left⟩ := run
      · simp [Except.map, aftermath]
      · simp [Except.map, ih, UInt64.add_assoc, UInt64.add_comm]

/-! ## Learning -/

omit [Scalar R] in
theorem modify_at_length (before after : Batch R) (line : Example R) (f : Example R → Example R) :
    (before ++ line :: after).modify before.length f = before ++ f line :: after := by
  rw [List.modify_eq_take_cons_drop (by simp)]
  simp

theorem aftermath_settle (s : GroundedSettings R) (primary : Learner R W σ (Batch R))
    (feedback : Option (Feature R)) (psi : R) (state : GroundedState R W) (node : σ)
    (context : Context R W) (before : Batch R) (line : Example R) (after : Batch R) :
    aftermath ((settle s primary feedback before.length psi).runOn
        ⟨(state, node), context, before ++ line :: after⟩) =
      settlement s primary feedback psi state.counters state.decoderContext node context
        before line after := by
  unfold settle settlement
  generalize hrun : primary.learn.runOn ⟨node, context, before ++
    line.setObservedCost (groundedCost s psi (isNegative s feedback)) :: after⟩ = run
  obtain ⟨outcome | outcome, left⟩ := run <;> by_cases hpsi : 1 < psi * 2 <;>
    simp [NodeM.runOn_bind, modify_at_length, aftermath, hpsi, hrun]

theorem runOn_learn_nil (s : GroundedSettings R) (offset : UInt64)
    (primary : Learner R W σ (Batch R)) (decoder : LineLearner R W σ)
    (node : GroundedState R W × σ) (context : Context R W) :
    (learn s offset primary decoder).runOn ⟨node, context, []⟩ =
      (.error (.emptyBatch name), ⟨node, context, []⟩) := by
  simp [learn, NodeM.runOn_bind]

theorem runOn_learn_of_none (s : GroundedSettings R) (offset : UInt64)
    (primary : Learner R W σ (Batch R)) (decoder : LineLearner R W σ)
    (node : GroundedState R W × σ) (context : Context R W) {batch : Batch R}
    (hne : batch ≠ []) (hnone : chosen? batch = none) :
    (learn s offset primary decoder).runOn ⟨node, context, batch⟩ =
      (onPrimary primary.predict).runOn ⟨node, context, batch⟩ := by
  simp [learn, learnFrom, NodeM.runOn_bind, hne, hnone]

theorem runOn_learn_of_some (s : GroundedSettings R) (offset : UInt64)
    (primary : Learner R W σ (Batch R)) (decoder : LineLearner R W σ)
    (node : GroundedState R W × σ) (context : Context R W) {before after : Batch R}
    {line : Example R} (hchosen : chosen? (before ++ line :: after) = some before.length) :
    let feedback := feedback? (before ++ line :: after)
    (learn s offset primary decoder).runOn ⟨node, context, before ++ line :: after⟩ =
      (do
        let scored ← onDecoder (fill s offset feedback true line) decoder.predict
        teach s offset decoder feedback before.length 0 (before ++ line :: after)
        settle s primary feedback before.length scored.scalar : NodeM R W _ _ Unit).runOn
          ⟨node, context, before ++ line :: after⟩ := by
  simp [learn, learnFrom, NodeM.runOn_bind, hchosen]

/-- A call on a batch with a chosen line is the exchange. -/
theorem aftermath_learn_of_chosen (s : GroundedSettings R) (offset : UInt64)
    (primary : Learner R W σ (Batch R)) (decoder : LineLearner R W σ)
    (state : GroundedState R W) (node : σ) (context : Context R W) {before after : Batch R}
    {line : Example R} (hline : line.role ≠ .feedback)
    (hchosen : chosen? (before ++ line :: after) = some before.length) :
    aftermath ((learn s offset primary decoder).runOn
        ⟨(state, node), context, before ++ line :: after⟩) =
      protocol s offset primary decoder state.counters state.decoderContext node context
        before line after := by
  rw [runOn_learn_of_some s offset primary decoder (state, node) context hchosen]
  unfold protocol
  simp only [NodeM.runOn_bind, runOn_onDecoder, fill_eq_decoderExample]
  generalize decoder.predict.runOn ⟨node, state.decoderContext,
    decoderExample s offset (feedback? (before ++ line :: after)) true line⟩ = run
  obtain ⟨outcome | outcome, scored⟩ := run
  · simp [Except.map, aftermath]
  · have hteach := aftermath_teach s offset decoder (feedback? (before ++ line :: after))
      before.length 0 (before ++ line :: after)
      { state with decoderContext := scored.context, scratch := scored.input } scored.node context
      (before ++ line :: after)
    rw [lessons_of_chosen s offset _ hline] at hteach
    simp only [Except.map]
    -- What teaching leaves is known but for the example for reuse, which settling clears.
    generalize (teach s offset decoder _ before.length 0 _).runOn _ = run at hteach ⊢
    obtain ⟨taughtOutcome, ⟨⟨taughtState, taughtNode⟩, taughtContext, taughtBatch⟩⟩ := run
    simp only [aftermath, Aftermath.mk.injEq] at hteach
    obtain ⟨houtcome, hcounters, hdecoder, hnode, rfl, rfl⟩ := hteach
    rw [← houtcome, ← hcounters, ← hdecoder, ← hnode]
    cases taughtOutcome with
    | error e => rfl
    | ok _ => exact aftermath_settle ..

/-- What a grounded node does with a batch, for every decoder and primary policy, in every state. An
empty batch is refused. Without a chosen line the primary policy predicts and nothing else happens.
Otherwise the call is the exchange, which does not know what the example for reuse held. -/
theorem learn_protocol (s : GroundedSettings R) (offset : UInt64)
    (primary : Learner R W σ (Batch R)) (decoder : LineLearner R W σ) (state : GroundedState R W)
    (node : σ) (context : Context R W) (batch : Batch R) :
    let run := (learn s offset primary decoder).runOn ⟨(state, node), context, batch⟩
    (batch = [] ∧ run = (.error (.emptyBatch name), ⟨(state, node), context, batch⟩)) ∨
    (batch ≠ [] ∧ (∀ line ∈ batch, isCandidate line = false) ∧
      let predicted := primary.predict.runOn ⟨node, context, batch⟩
      run = (predicted.1,
        ⟨(state, predicted.2.node), predicted.2.context, predicted.2.input⟩)) ∨
    (∃ before line after, batch = before ++ line :: after ∧
      (∀ earlier ∈ before, isCandidate earlier = false) ∧ isCandidate line = true ∧
      aftermath run =
        protocol s offset primary decoder state.counters state.decoderContext node context
          before line after) := by
  intro run
  cases hfind : batch.find? (isCandidate (R := R)) with
  | none =>
    have hnone : ∀ line ∈ batch, isCandidate line = false := by
      simpa using hfind
    by_cases hne : batch = []
    · subst hne
      exact .inl ⟨rfl, runOn_learn_nil s offset primary decoder (state, node) context⟩
    · exact .inr (.inl ⟨hne, hnone,
        runOn_learn_of_none s offset primary decoder (state, node) context hne
          (chosen?_eq_none hnone)⟩)
  | some line =>
    obtain ⟨hline, before, after, rfl, hbefore⟩ := List.find?_eq_some_iff_append.mp hfind
    have hbefore' : ∀ earlier ∈ before, isCandidate earlier = false := by
      simpa using hbefore
    have hrole : line.role ≠ .feedback := by
      simp only [isCandidate, Bool.and_eq_true, bne_iff_ne] at hline
      exact hline.1
    exact .inr (.inr ⟨before, line, after, rfl, hbefore', hline,
      aftermath_learn_of_chosen s offset primary decoder state node context hrole
        (chosen?_append hbefore' hline)⟩)

end OnlineLearning.Grounded
