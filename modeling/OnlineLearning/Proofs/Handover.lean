import OnlineLearning.Proofs.AlikeStack
import OnlineLearning.Proofs.Outcomes

/-!
# What a decoder hands over

A grounded node learns from a batch in two parts: the decoder learns and rewrites a cost, and the
primary policy learns from the batch and the shared node that are left. If no cost was observed, the
primary policy is asked for a prediction, and that is what a bandit node does by itself.

* `Grounded.handover` is what the decoder leaves;
* `Grounded.learn_handover`: the rest is what the primary policy does of it;
* `Grounded.handover_keeps`: what the decoder keeps of the shared node is kept;
* `Grounded.handover_of_chosen`: what it does to the batch;
* `Bandit.map_predict`: what a prediction leaves of the lines of a batch;
* `Bandit.runOn_learn_of_not_chosen`: without an observed cost learning is predicting.
-/

namespace OnlineLearning

variable {R W σ : Type} [Scalar R] [Number W] [Widening R W] {mask : UInt64}

/-! ## What the decoder hands over -/

omit [Scalar R] in
theorem map_modify_of_eq {α : Type} {g : Example R → α} {f : Example R → Example R}
    (h : ∀ ec, g (f ec) = g ec) (batch : Batch R) (i : Nat) :
    (batch.modify i f).map g = batch.map g := by
  induction batch generalizing i with
  | nil => simp
  | cons ec rest ih =>
    cases i with
    | zero => simp [h]
    | succ i => simp [ih]

namespace Grounded

omit [Number W] [Widening R W] in
/-- The batch and the shared node that the decoder leaves to the primary policy. -/
def handover (s : GroundedSettings R) (offset : UInt64) (decoder : LineLearner R W σ)
    (decoderContext : Context R W) (node : σ) (batch : Batch R) : Batch R × σ :=
  match chosen? batch with
  | none => (batch, node)
  | some chosen =>
    let feedback := feedback? batch
    let positive := decoderExample s offset feedback true (batch.getD chosen Example.blank)
    let scored := (decoder.predict.runOn ⟨node, decoderContext, positive⟩).2
    let taught := course decoder scored.node scored.context
      (lessons s offset feedback chosen 0 batch)
    let cost := groundedCost s scored.input.scalar (isNegative s feedback)
    (batch.modify chosen (·.setObservedCost cost), taught.node)

omit [Number W] [Widening R W] in
theorem mem_lessons {s : GroundedSettings R} {offset : UInt64} {feedback : Option (Feature R)}
    {chosen position : Nat} {batch : Batch R} {ec : Example R}
    (h : ec ∈ lessons s offset feedback chosen position batch) :
    ∃ line ∈ batch, ∃ c, ec = decoderExample s offset feedback c line := by
  induction batch generalizing position with
  | nil => exact absurd h List.not_mem_nil
  | cons line rest ih =>
    have hlater (h : ec ∈ lessons s offset feedback chosen (position + 1) rest) :
        ∃ other ∈ line :: rest, ∃ c, ec = decoderExample s offset feedback c other := by
      obtain ⟨other, hmem, hec⟩ := ih h
      exact ⟨other, List.mem_cons_of_mem _ hmem, hec⟩
    rw [lessons] at h
    split at h
    · rcases List.mem_cons.mp h with rfl | h
      · exact ⟨line, List.mem_cons_self, _, rfl⟩
      · exact hlater h
    · exact hlater h

omit [Number W] [Widening R W] in
theorem exists_of_chosen? {batch : Batch R} {chosen : Nat} (h : chosen? batch = some chosen) :
    ∃ before line after, batch = before ++ line :: after ∧ chosen = before.length ∧
      (∀ earlier ∈ before, isCandidate earlier = false) ∧ isCandidate line = true := by
  cases hfind : batch.find? (isCandidate (R := R)) with
  | none =>
    rw [chosen?_eq_none (by simpa using hfind)] at h
    cases h
  | some line =>
    obtain ⟨hline, before, after, rfl, hbefore⟩ := List.find?_eq_some_iff_append.mp hfind
    have hbefore' : ∀ earlier ∈ before, isCandidate earlier = false := by
      simpa using hbefore
    rw [chosen?_append hbefore' hline] at h
    exact ⟨before, line, after, rfl, (Option.some.inj h).symm, hbefore', hline⟩

omit [Number W] [Widening R W] in
/-- With a decoder that does not fail, a grounded node does of a batch with a chosen line what its
primary policy does of what it is handed. -/
theorem learn_handover {decoder : LineLearner R W σ} (hdecoder : decoder.Accepts)
    (s : GroundedSettings R) (offset : UInt64) (primary : Learner R W σ (Batch R))
    (state : GroundedState R W) (node : σ) (context : Context R W) {batch : Batch R} {chosen : Nat}
    (hchosen : chosen? batch = some chosen) :
    let hand := handover s offset decoder state.decoderContext node batch
    let run := (learn s offset primary decoder).runOn ⟨(state, node), context, batch⟩
    let policy := primary.learn.runOn ⟨hand.2, context, hand.1⟩
    run.1 = policy.1 ∧ run.2.node.2 = policy.2.node ∧ run.2.context = policy.2.context ∧
      run.2.input = policy.2.input := by
  obtain ⟨before, line, after, rfl, rfl, hbefore, hline⟩ := exists_of_chosen? hchosen
  have hrole : line.role ≠ .feedback := by
    simp only [isCandidate, Bool.and_eq_true, bne_iff_ne] at hline
    exact hline.1
  have hget : (before ++ line :: after).getD before.length Example.blank = line := by simp
  have hrun := aftermath_learn_of_chosen s offset primary decoder state node context hrole hchosen
  have hpredict := (hdecoder.predict ⟨node, state.decoderContext,
    decoderExample s offset (feedback? (before ++ line :: after)) true line⟩ _ rfl).1
  unfold handover
  rw [hchosen]
  dsimp only
  rw [hget, modify_at_length, lessons_of_chosen s offset _ hrole]
  dsimp only [protocol] at hrun
  generalize decoder.predict.runOn ⟨node, state.decoderContext,
    decoderExample s offset (feedback? (before ++ line :: after)) true line⟩ = run
    at hrun hpredict ⊢
  obtain ⟨outcome, scored⟩ := run
  cases hpredict
  dsimp only at hrun ⊢
  have htaught := (course_of_accepts hdecoder scored.node scored.context
    (otherExamples s offset (feedback? (before ++ line :: after)) before ++
      decoderExample s offset (feedback? (before ++ line :: after)) true line ::
        otherExamples s offset (feedback? (before ++ line :: after)) after) ?_).1
  · rw [htaught] at hrun
    dsimp only [settlement] at hrun
    generalize primary.learn.runOn _ = policy at hrun ⊢
    obtain ⟨outcome | outcome, left⟩ := policy <;>
      exact ⟨congrArg Aftermath.outcome hrun, congrArg Aftermath.node hrun,
        congrArg Aftermath.context hrun, congrArg Aftermath.batch hrun⟩
  · intro ec hec
    simp only [otherExamples, List.mem_append, List.mem_cons, List.mem_map] at hec
    rcases hec with ⟨_, -, rfl⟩ | rfl | ⟨_, -, rfl⟩ <;> exact ⟨_, rfl⟩

theorem course_keeps {Inv : σ → Prop} {d : Region mask} {decoder : LineLearner R W σ}
    (h : decoder.Alike (Same Inv) .eq d (fun _ => True) decoder) {node : σ} (hnode : Inv node)
    (context : Context R W) {examples : List (Example R)} (hexamples : d.HoldsAll examples) :
    Inv (course decoder node context examples).node := by
  induction examples generalizing node context with
  | nil => exact hnode
  | cons ec rest ih =>
    obtain ⟨-, hleft⟩ := h.learn ⟨node, context, ec⟩ ⟨node, context, ec⟩
      ⟨⟨⟨rfl, hnode⟩, rfl, .refl (hexamples ec List.mem_cons_self)⟩, trivial⟩
    unfold course
    generalize decoder.learn.runOn ⟨node, context, ec⟩ = run at hleft ⊢
    obtain ⟨outcome | outcome, left⟩ := run
    · exact hleft.node.holds
    · exact ih hleft.node.holds left.context fun later hmem =>
        hexamples later (List.mem_cons_of_mem _ hmem)

/-- What the decoder keeps of the shared node, it hands over. -/
theorem handover_keeps {Inv : σ → Prop} {r d : Region mask} {decoder : LineLearner R W σ}
    (h : decoder.Alike (Same Inv) .eq d (fun _ => True) decoder) (s : GroundedSettings R)
    {offset : UInt64} (hshift : Shifts r d offset) (decoderContext : Context R W) (node : σ)
    (hnode : Inv node) {batch : Batch R} (hbatch : r.HoldsAll batch) :
    Inv (handover s offset decoder decoderContext node batch).2 := by
  unfold handover
  split
  · exact hnode
  · rename_i chosen hchosen
    obtain ⟨before, line, after, rfl, rfl, -, -⟩ := exists_of_chosen? hchosen
    have hfeedback := feature_feedback? hbatch
    have hline : r.Holds ((before ++ line :: after).getD before.length Example.blank) := by
      simpa using hbatch line (by simp)
    have hpositive := holds_decoderExample (d := d) (s := s) hshift hfeedback true hline
    obtain ⟨-, hscored⟩ := h.predict .same ⟨node, decoderContext, _⟩ ⟨node, decoderContext, _⟩
      ⟨⟨rfl, hnode⟩, rfl, .refl hpositive⟩
    refine course_keeps h hscored.node.holds _ fun ec hec => ?_
    obtain ⟨other, hother, c, rfl⟩ := mem_lessons hec
    exact holds_decoderExample hshift hfeedback c (hbatch other hother)

omit [Number W] [Widening R W] in
theorem handover_holds {r : Region mask} (s : GroundedSettings R) (offset : UInt64)
    (decoder : LineLearner R W σ) (decoderContext : Context R W) (node : σ) {batch : Batch R}
    (hbatch : r.HoldsAll batch) :
    r.HoldsAll (handover s offset decoder decoderContext node batch).1 := by
  unfold handover
  split
  · exact hbatch
  · exact Region.HoldsAll.modify hbatch _ fun _ hec => holds_setObservedCost hec _

omit [Number W] [Widening R W] in
/-- The cost of the chosen line is rewritten to nothing, or to what a confident decoder leaves. -/
theorem handover_of_chosen (s : GroundedSettings R) (offset : UInt64) (decoder : LineLearner R W σ)
    (decoderContext : Context R W) (node : σ) {batch : Batch R} {chosen : Nat}
    (h : chosen? batch = some chosen) :
    ∃ confident : Bool, (handover s offset decoder decoderContext node batch).1 =
      batch.modify chosen (·.setObservedCost
        (if confident then extremeCost s (isNegative s (feedback? batch)) else 0)) := by
  have hcost (psi : R) : groundedCost s psi (isNegative s (feedback? batch)) =
      if decide (1 < psi * 2) then extremeCost s (isNegative s (feedback? batch)) else 0 := by
    simp only [decide_eq_true_eq]
    rfl
  unfold handover
  rw [h]
  dsimp only
  rw [hcost]
  exact ⟨_, rfl⟩

/-- What a batch may be rewritten to: the cost of the chosen line may be another one, which depends
on whether the decoder is confident. -/
inductive Rewritten (s : GroundedSettings R) (batch : Batch R) : Batch R → Prop
  | same : Rewritten s batch batch
  | cost {chosen : Nat} (confident : Bool) (h : chosen? batch = some chosen) :
    Rewritten s batch (batch.modify chosen (·.setObservedCost
      (if confident then extremeCost s (isNegative s (feedback? batch)) else 0)))

omit [Number W] [Widening R W] in
theorem handover_rewritten (s : GroundedSettings R) (offset : UInt64) (decoder : LineLearner R W σ)
    (decoderContext : Context R W) (node : σ) (batch : Batch R) :
    Rewritten s batch (handover s offset decoder decoderContext node batch).1 := by
  cases hchosen : chosen? batch with
  | none =>
    have hhand : (handover s offset decoder decoderContext node batch).1 = batch := by
      simp only [handover, hchosen]
    rw [hhand]
    exact .same
  | some chosen =>
    obtain ⟨confident, hhand⟩ :=
      handover_of_chosen s offset decoder decoderContext node hchosen
    rw [hhand]
    exact .cost confident hchosen

omit [Number W] [Widening R W] in
/-- The decoder leaves the holdout marks alone. -/
theorem any_holdout_handover (s : GroundedSettings R) (offset : UInt64)
    (decoder : LineLearner R W σ) (decoderContext : Context R W) (node : σ) (batch : Batch R) :
    (handover s offset decoder decoderContext node batch).1.any (·.holdout) =
      batch.any (·.holdout) := by
  have hmap : (handover s offset decoder decoderContext node batch).1.map Example.holdout =
      batch.map Example.holdout := by
    unfold handover
    split
    · rfl
    · refine map_modify_of_eq (fun ec => ?_) batch _
      obtain ⟨label, hlabel⟩ := ec.exists_setObservedCost_eq _
      rw [hlabel]
  have hany := congrArg (List.any · id) hmap
  simpa [List.any_map] using hany

end Grounded

/-! ## Batches without observed costs -/

namespace Bandit

section

variable {α : Type} {g : Example R → α}
  (hscore : ∀ ec score, g { ec with partialPrediction := score } = g ec)
include hscore

omit [Number W] [Widening R W] in
theorem map_scoreLines (base : LineLearner R W σ) (shared : Option (Example R))
    (action position : Nat) (lines : Batch R) (f : Frame R W (Example R × σ) (Batch R)) :
    (((scoreLines base shared action position lines).runOn f).2.input).map g = f.input.map g := by
  induction lines generalizing action position f with
  | nil => rfl
  | cons ec rest ih =>
    rw [runOn_scoreLines_cons]
    split
    · generalize base.predict.runOn _ = run
      obtain ⟨outcome | outcome, left⟩ := run
      · rfl
      · exact (ih (action + 1) (position + 1) _).trans
          (map_modify_of_eq (fun ec => hscore ec left.input.scalar) f.input position)
    · exact ih action (position + 1) f

omit [Number W] [Widening R W] in
/-- A prediction writes scores and a ranking, and leaves the rest of the lines alone. -/
theorem map_predict (hranking : ∀ ec scores, g { ec with prediction := .ranking scores } = g ec)
    (base : LineLearner R W σ) (f : Frame R W (Example R × σ) (Batch R)) :
    (((predict base).runOn f).2.input).map g = f.input.map g := by
  rw [runOn_predict]
  split
  · rfl
  · have hlines := map_scoreLines hscore base (shared? f.input) 0 0 f.input f
    generalize (scoreLines base (shared? f.input) 0 0 f.input).runOn f = run at hlines ⊢
    obtain ⟨outcome | outcome, left⟩ := run
    · exact hlines
    · rw [← hlines]
      obtain ⟨node, context, _ | ⟨ec, rest⟩⟩ := left
      · rfl
      · exact congrArg (· :: rest.map g) (hranking ec _)

end

/-- What makes a line one to learn from. -/
def tag (ec : Example R) : Role × Label R := (ec.role, ec.label)

theorem chosen?_eq_none {batch : Batch R}
    (h : ∀ ec ∈ batch, isAction ec = true → ec.observed? = none) :
    chosen? batch = none := by
  refine List.findSome?_eq_none_iff.mpr fun ⟨ec, i⟩ hmem => ?_
  have hec := List.mem_of_getElem? (List.mk_mem_zipIdx_iff_getElem?.mp hmem)
  dsimp only
  split
  · rename_i haction
    rw [h ec hec haction]
    rfl
  · rfl

/-- Where a grounded node finds no chosen line, its bandit node finds none. -/
theorem observed?_of_not_candidate {ec : Example R} (h : Grounded.isCandidate ec = false)
    (haction : isAction ec = true) : ec.observed? = none := by
  have hrole : ec.role ≠ .feedback := by
    intro hrole
    simp [isAction, hrole] at haction
  simpa [Grounded.isCandidate, hrole, Example.hasObservedCost] using h

omit [Number W] [Widening R W] in
/-- Without an observed cost learning is predicting. -/
theorem runOn_learn_of_not_chosen (base : LineLearner R W σ)
    {f : Frame R W (Example R × σ) (Batch R)} (h : Grounded.chosen? f.input = none) :
    (learn base).runOn f = (predict base).runOn f := by
  have hlines : ∀ ec ∈ f.input, Grounded.isCandidate ec = false :=
    List.findIdx?_eq_none_iff.mp h
  have htag := map_predict (g := tag) (fun _ _ => rfl) (fun _ _ => rfl) base f
  rw [runOn_learn]
  generalize (predict base).runOn f = run at htag ⊢
  obtain ⟨outcome | outcome, left⟩ := run
  · rfl
  · have hnone : chosen? left.input = none := by
      refine chosen?_eq_none fun ec hec haction => ?_
      have hmem : tag ec ∈ f.input.map tag := htag ▸ List.mem_map_of_mem hec
      obtain ⟨old, hold, heq⟩ := List.mem_map.mp hmem
      obtain ⟨hrole, hlabel⟩ := Prod.mk.inj heq
      have hobserved := observed?_of_not_candidate (hlines old hold)
        (by simpa [isAction, hrole] using haction)
      simpa [Example.observed?, hlabel] using hobserved
    dsimp only
    rw [hnone]

end Bandit

end OnlineLearning
