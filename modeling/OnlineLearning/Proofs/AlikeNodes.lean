import OnlineLearning.Proofs.Alike

/-!
# Nodes over learners that act alike

Every node acts alike over learners that act alike, whatever it holds itself: scorers, bandit nodes
and grounded nodes, in this order. The examples for reuse need not be equal, since nothing of them
gets into a call.
-/

namespace OnlineLearning

open NodeM (Alike)

variable {R W σ τ : Type} [Scalar R] [Number W] [Widening R W] {mask : UInt64}
  {N : σ → τ → Prop} {C : ContextRel R W} {r : Region mask}

/-! ## Scorers -/

namespace Scorer

variable {M : Marks} {base : LineLearner R W σ} {base' : LineLearner R W τ}
  {J : Example R → Example R → Prop}

/-- Examples of which a scorer sees the same, and which stay so related when it writes into them. -/
structure Sees (J : Example R → Example R → Prop) : Prop where
  label {ec ec' : Example R} : J ec ec' → ec'.label = ec.label
  weight {ec ec' : Example R} : J ec ec' → ec'.weight = ec.weight
  scalar {ec ec' : Example R} : J ec ec' → ec'.scalar = ec.scalar
  loss {ec ec' : Example R} (loss : R) : J ec ec' → J { ec with loss } { ec' with loss }
  prediction {ec ec' : Example R} (prediction : Prediction R) : J ec ec' →
    J { ec with prediction } { ec' with prediction }

theorem sees_marked : Sees (R := R) (Example.Marked M r) where
  label := fun ⟨⟨_, _, h⟩, _⟩ => h ▸ rfl
  weight := fun ⟨⟨_, _, h⟩, _⟩ => h ▸ rfl
  scalar := fun ⟨⟨_, _, h⟩, _⟩ => h ▸ rfl
  loss loss := fun h => h.write (g := ({ · with loss })) fun _ => ⟨_, _, _, _, fun _ => rfl⟩
  prediction prediction := fun h =>
    h.write (g := ({ · with prediction })) fun _ => ⟨_, _, _, _, fun _ => rfl⟩

theorem holdout_marked
    (hM : ∀ trained mark mark', M trained mark mark' → mark' = mark) {ec ec' : Example R}
    (h : Example.Marked M r ec ec') : ec'.holdout = ec.holdout := by
  obtain ⟨⟨mark, hmark, heq⟩, -⟩ := h
  rw [heq]
  exact hM _ _ _ hmark

theorem account_alike (hJ : Sees J) {learning : Bool}
    (hheld : learning = true → ∀ {ec ec'}, J ec ec' → ec'.holdout = ec.holdout) (label : R) :
    Alike (Agree N C J) (Agree N C J)
      (account learning label : NodeM R W σ _ Unit) (account learning label) := by
  refine Alike.read_bind fun f f' h => ?_
  have hloss : f'.context.lossOf f'.input.scalar label = f.context.lossOf f.input.scalar label := by
    rw [C.lossOf_eq h.context, hJ.scalar h.input]
  dsimp only
  rw [hloss, hJ.weight h.input]
  split
  · refine Alike.bind (Alike.of_modifyInput fun _ _ => hJ.loss _) fun _ => ?_
    cases learning with
    | false => exact Alike.of_pure _ fun _ _ hg => hg
    | true =>
      rw [hheld rfl h.input]
      exact Alike.of_modifyContext fun _ _ hc => C.recordLoss _ _ _ _ hc
  · exact Alike.of_pure _ fun _ _ hg => hg

/-- A scorer lets the learner below learn examples of positive weight only. -/
theorem runBelow_alike (hJ : Sees J)
    (hpredict : Alike (Agree N C J) (Agree N C J) base.predict base'.predict) {learning : Bool}
    (hheld : learning = true → ∀ {ec ec'}, J ec ec' → ec'.holdout = ec.holdout)
    (hlearn : learning = true → Alike (fun f f' => Agree N C J f f' ∧ 0 < f.input.weight)
      (Agree N C J) base.learn base'.learn) (link : LinkFunction) :
    Alike (Agree N C J) (Agree N C J) (runBelow link base learning)
      (runBelow link base' learning) := by
  refine Alike.get_bind fun f f' hf => ?_
  have hstart : ∀ g g', g = f ∧ g' = f' → Agree N C J g g' := by
    rintro _ _ ⟨rfl, rfl⟩
    exact hf
  dsimp only
  rw [hJ.label hf.input]
  split
  · exact Alike.of_throw _ hstart
  · exact hpredict.weaken hstart fun _ _ hg => hg
  · rename_i label _
    have hcond : (learning && decide (0 < f'.input.weight) && !f'.input.holdout) =
        (learning && decide (0 < f.input.weight) && !f.input.holdout) := by
      cases learning with
      | false => rfl
      | true => rw [hJ.weight hf.input, hheld rfl hf.input]
    rw [hcond]
    refine Alike.bind_of (Q := fun g g' => Agree N C J g g' ∧ g.input = f.input)
      (Alike.of_modify ?_) (fun _ _ hg => hg.1) fun _ =>
        Alike.bind ?_ fun _ => account_alike hJ hheld _
    · rintro _ _ ⟨rfl, rfl⟩
      exact ⟨⟨hf.node, C.coverLabel label hf.context, hf.input⟩, rfl⟩
    · split
      · rename_i hif
        simp only [Bool.and_eq_true, decide_eq_true_eq] at hif
        exact (hlearn hif.1.1).weaken (fun g g' hg => ⟨hg.1, hg.2 ▸ hif.1.2⟩) fun _ _ hg => hg
      · exact hpredict.weaken (fun _ _ hg => hg.1) fun _ _ hg => hg

theorem publish_alike (hJ : Sees J) (link : LinkFunction) :
    Alike (Agree N C J) (Agree N C J)
      (publish link : NodeM R W σ _ Unit) (publish link : NodeM R W τ _ Unit) :=
  Alike.of_modifyInput fun ec ec' h => by
    rw [hJ.scalar h]
    exact hJ.prediction _ h

/-- Predictions of a scorer need nothing of the learner below but its predictions. -/
theorem predict_alike (hJ : Sees J)
    (h : Alike (Agree N C J) (Agree N C J) base.predict base'.predict) (link : LinkFunction) :
    Alike (Agree N C J) (Agree N C J) (learner link base).predict (learner link base').predict :=
  Alike.bind (runBelow_alike hJ h (fun hl => by cases hl) (fun hl => by cases hl) link)
    fun _ => publish_alike hJ link

/-- So do its lessons, where examples agree in their holdout marks. -/
theorem learn_alike (hJ : Sees J)
    (hheld : ∀ {ec ec'}, J ec ec' → ec'.holdout = ec.holdout)
    (hpredict : Alike (Agree N C J) (Agree N C J) base.predict base'.predict)
    (hlearn : Alike (fun f f' => Agree N C J f f' ∧ 0 < f.input.weight)
      (Agree N C J) base.learn base'.learn) (link : LinkFunction) :
    Alike (Agree N C J) (Agree N C J) (learner link base).learn (learner link base').learn :=
  Alike.bind (runBelow_alike hJ hpredict (fun _ => hheld) (fun _ => hlearn) link)
    fun _ => publish_alike hJ link

/-- A scorer lets the learner below learn examples of positive weight only, and may itself be asked
to learn all. -/
theorem learner_alike (h : base.Alike N C r (0 < ·) base') (link : LinkFunction) :
    (learner link base).Alike N C r (fun _ => True) (learner link base') := by
  have hlearn := learn_alike sees_marked (holdout_marked fun _ _ _ hmark => hmark)
    (h.predict .same) h.learn link
  exact ⟨fun M => predict_alike sees_marked (h.predict M) link,
    hlearn.weaken (fun _ _ hf => hf.1) fun _ _ hf => hf, h.sensitivity⟩

end Scorer

/-! ## Lines -/

theorem LineLearner.Alike.weaken {p q : R → Prop} {l : LineLearner R W σ} {l' : LineLearner R W τ}
    (h : l.Alike N C r p l') (hq : ∀ w, q w → p w) : l.Alike N C r q l' :=
  ⟨h.predict, h.learn.weaken (fun _ _ hf => ⟨hf.1, hq _ hf.2⟩) fun _ _ hf => hf, h.sensitivity⟩

/-- Scorers on learners that act alike, at least one of them. -/
theorem scorers_alike {base : LineLearner R W σ} {base' : LineLearner R W τ}
    (h : base.Alike N C r (0 < ·) base') {links : List LinkFunction} (hlinks : links ≠ []) :
    (links.foldr Scorer.learner base).Alike N C r (fun _ => True)
      (links.foldr Scorer.learner base') := by
  induction links with
  | nil => exact absurd rfl hlinks
  | cons link rest ih =>
    cases rest with
    | nil => exact Scorer.learner_alike h link
    | cons next rest =>
      exact Scorer.learner_alike ((ih (List.cons_ne_nil _ _)).weaken fun _ _ => trivial) link

/-! ## Bandit nodes -/

namespace Bandit

variable {M : Marks}

omit [Number W] [Widening R W] in
/-- Of the shared line only the features get into the examples of a bandit node. -/
theorem fill_congr {shared shared' : Option (Example R)}
    (h : shared'.map Example.namespaces = shared.map Example.namespaces) (action : Example R) :
    fill shared' action = fill shared action := by
  funext scratch
  rw [fill_eq_merged, fill_eq_merged]
  cases shared with
  | none =>
    rw [Option.map_eq_none_iff.mp h]
  | some s =>
    obtain ⟨s', rfl, hs⟩ := Option.map_eq_some_iff.mp h
    unfold merged
    dsimp only
    rw [hs]

omit [Number W] [Widening R W] in
theorem scoreLines_congr (base : LineLearner R W σ) {shared shared' : Option (Example R)}
    (h : shared'.map Example.namespaces = shared.map Example.namespaces) (action position : Nat)
    (lines : Batch R) :
    scoreLines base shared' action position lines =
      scoreLines base shared action position lines := by
  induction lines generalizing action position with
  | nil => rfl
  | cons ec rest ih =>
    unfold scoreLines
    rw [fill_congr h]
    simp only [ih]

omit [Number W] [Widening R W] in
theorem fillRegression_congr {shared shared' : Option (Example R)}
    (h : shared'.map Example.namespaces = shared.map Example.namespaces) (action : Example R)
    (observed : LoggedCost R) :
    fillRegression shared' action observed = fillRegression shared action observed := by
  funext scratch
  unfold fillRegression
  rw [fill_congr h]

omit [Number W] [Widening R W] in
theorem namespaces_shared? {batch batch' : Batch R} (h : Batch.Marked M r batch batch') :
    (shared? batch').map Example.namespaces = (shared? batch).map Example.namespaces := by
  rw [Option.map_eq_bind, Option.map_eq_bind]
  exact h.bind_find? (fun _ _ => rfl) fun _ _ => rfl

omit [Number W] [Widening R W] in
/-- Both choose the same line, which has the same mark in both. -/
theorem chosen?_marked (hM : M.Teachable) {batch batch' : Batch R}
    (h : Batch.Marked M r batch batch') : chosen? batch' = chosen? batch := by
  unfold chosen?
  generalize 0 = position
  induction h generalizing position with
  | nil => rfl
  | @cons ec ec' _ _ hline _ ih =>
    obtain ⟨⟨mark, hmark, rfl⟩, -⟩ := hline
    rw [List.zipIdx_cons, List.zipIdx_cons, List.findSome?_cons, List.findSome?_cons, ih]
    dsimp only
    have haction : isAction { ec with holdout := mark } = isAction ec := rfl
    have hobserved : { ec with holdout := mark }.observed? = ec.observed? := rfl
    rw [haction, hobserved]
    cases hi : isAction ec with
    | false => rfl
    | true =>
      cases ho : ec.observed? with
      | none => rfl
      | some observed =>
        have htrains : trains ec = true := by
          unfold trains Example.hasObservedCost
          rw [hi, ho]
          rfl
        rw [htrains] at hmark
        rw [hM.trained hmark]

/-- Nodes that hold an example for reuse are related by what they hold besides. -/
def Below (N : σ → τ → Prop) (s : Example R × σ) (s' : Example R × τ) : Prop := N s.2 s'.2

/-- A call on the scratch example, after which both go on from what became of it. -/
theorem onScratch_alike {ι : Type} {J : ι → ι → Prop} {call : NodeM R W σ (Example R) Unit}
    {call' : NodeM R W τ (Example R) Unit}
    (h : Alike (Agree N C (Example.Marked M r)) (Agree N C (Example.Marked M r)) call call')
    {fill fill' : Example R → Example R} {made made' : Example R}
    (hfill : ∀ scratch, fill scratch = made) (hfill' : ∀ scratch, fill' scratch = made')
    (hmade : Example.Marked M r made made') {β : Type}
    {next : Example R → NodeM R W (Example R × σ) ι β}
    {next' : Example R → NodeM R W (Example R × τ) ι β}
    (hnext : ∀ ec ec', Example.Marked M r ec ec' →
      Alike (Agree (Below N) C J) (Agree (Below N) C J) (next ec) (next' ec')) :
    Alike (Agree (Below N) C J) (Agree (Below N) C J) (NodeM.onScratch fill call >>= next)
      (NodeM.onScratch fill' call' >>= next') := by
  intro f f' hf
  obtain ⟨hout, hleft⟩ := h ⟨f.node.2, f.context, fill f.node.1⟩
    ⟨f'.node.2, f'.context, fill' f'.node.1⟩
    ⟨hf.node, hf.context, by rw [hfill, hfill']; exact hmade⟩
  rw [NodeM.runOn_bind, NodeM.runOn_bind, NodeM.runOn_onScratch, NodeM.runOn_onScratch]
  generalize call.runOn ⟨f.node.2, f.context, fill f.node.1⟩ = run at hout hleft ⊢
  generalize call'.runOn ⟨f'.node.2, f'.context, fill' f'.node.1⟩ = run' at hout hleft ⊢
  obtain ⟨outcome, left⟩ := run
  obtain ⟨_, left'⟩ := run'
  cases hout
  have hnode : Agree (Below N) C J ⟨(left.input, left.node), left.context, f.input⟩
      ⟨(left'.input, left'.node), left'.context, f'.input⟩ :=
    ⟨hleft.node, hleft.context, hf.input⟩
  cases outcome with
  | error e => exact ⟨rfl, hnode⟩
  | ok _ => exact hnext _ _ hleft.input _ _ hnode

omit [Number W] [Widening R W] in
theorem holds_merged {shared : Option (Example R)} {action : Example R}
    (hshared : ∀ s, shared = some s → r.Holds s) (haction : r.Holds action) :
    r.Holds (merged shared action) := by
  refine ⟨fun f hf => ?_, haction.offset⟩
  cases shared with
  | none => exact haction.feature f hf
  | some s =>
    rcases (Namespaces.mem_toList_union _ _ _).mp hf with hf | hf
    · exact haction.feature f hf
    · exact (hshared s rfl).feature f hf

omit [Scalar R] in
theorem holds_shared {batch : Batch R} (h : r.HoldsAll batch) :
    ∀ s, shared? batch = some s → r.Holds s :=
  fun s hs => h s (List.mem_of_find?_eq_some hs)

theorem scoreLines_alike {base : LineLearner R W σ} {base' : LineLearner R W τ}
    (h : Alike (Agree N C (Example.Marked .any r)) (Agree N C (Example.Marked .any r))
      base.predict base'.predict) {shared : Option (Example R)}
    (hshared : ∀ s, shared = some s → r.Holds s) (action position : Nat) {lines lines' : Batch R}
    (hlines : Batch.Marked M r lines lines') :
    Alike (Agree (Below N) C (Batch.Marked M r)) (Agree (Below N) C (Batch.Marked M r))
      (scoreLines base shared action position lines)
      (scoreLines base' shared action position lines') := by
  induction hlines generalizing action position with
  | nil => exact Alike.of_pure _ fun _ _ hf => hf
  | @cons ec ec' _ _ hline _ ih =>
    obtain ⟨⟨mark, hmark, rfl⟩, hec⟩ := hline
    have hmade : Example.Marked .any r (merged shared ec)
        (merged shared { ec with holdout := mark }) :=
      ⟨⟨mark, trivial, rfl⟩, holds_merged hshared hec⟩
    unfold scoreLines
    have haction : isAction { ec with holdout := mark } = isAction ec := rfl
    rw [haction]
    split
    · refine onScratch_alike h (fill_eq_merged shared ec) (fill_eq_merged shared _) hmade
        fun scored scored' hscored => ?_
      obtain ⟨⟨_, -, rfl⟩, -⟩ := hscored
      refine Alike.bind (Alike.of_writeLine fun _ => ⟨_, _, _, _, fun _ => rfl⟩) fun _ => ?_
      exact Alike.bind (ih _ _) fun _ => Alike.of_pure _ fun _ _ hf => hf
    · exact ih _ _

omit [Number W] [Widening R W] in
theorem marked_publish (scores : List (ActionScore R)) {batch batch' : Batch R}
    (h : Batch.Marked M r batch batch') :
    Batch.Marked M r (publish scores batch) (publish scores batch') := by
  cases h with
  | nil => exact .nil
  | cons hline hrest =>
    exact .cons (hline.write (g := fun ec => { ec with prediction := .ranking scores })
      fun _ => ⟨_, _, _, _, fun _ => rfl⟩) hrest

/-- Predictions of a bandit node need nothing of the learner below but its predictions. -/
theorem predict_alike {base : LineLearner R W σ} {base' : LineLearner R W τ}
    (h : Alike (Agree N C (Example.Marked .any r)) (Agree N C (Example.Marked .any r))
      base.predict base'.predict) :
    Alike (Agree (Below N) C (Batch.Marked M r)) (Agree (Below N) C (Batch.Marked M r))
      (predict base) (predict base') := by
  refine Alike.get_bind fun f f' hf => ?_
  have hstart : ∀ g g', g = f ∧ g' = f' → Agree (Below N) C (Batch.Marked M r) g g' := by
    rintro _ _ ⟨rfl, rfl⟩
    exact hf
  have hscore := scoreLines_alike h (holds_shared hf.input.holds) 0 0 hf.input
  have hpublish (scores : List (ActionScore R)) :
      Alike (Agree (Below N) C (Batch.Marked M r)) (Agree (Below N) C (Batch.Marked M r))
        (NodeM.modifyInput (publish (rank scores)) : NodeM R W (Example R × σ) _ Unit)
        (NodeM.modifyInput (publish (rank scores)) : NodeM R W (Example R × τ) _ Unit) :=
    Alike.of_modifyInput fun _ _ => marked_publish _
  dsimp only
  rw [hf.input.isEmpty_eq, scoreLines_congr base' (namespaces_shared? hf.input)]
  split
  · exact Alike.bind (Alike.of_throw _ hstart) fun _ => Alike.bind hscore hpublish
  · exact (Alike.bind hscore hpublish).weaken hstart fun _ _ hg => hg

omit [Number W] [Widening R W] in
theorem mem_of_chosen? {batch : Batch R} {i : Nat} {action : Example R} {observed : LoggedCost R}
    (h : chosen? batch = some (i, action, observed)) : action ∈ batch := by
  obtain ⟨⟨ec, j⟩, hmem, hec⟩ := List.exists_of_findSome?_eq_some h
  dsimp only at hec
  split at hec
  · obtain ⟨_, _, heq⟩ := Option.map_eq_some_iff.mp hec
    cases heq
    exact List.mem_of_getElem? (List.mk_mem_zipIdx_iff_getElem?.mp hmem)
  · exact absurd hec (Option.not_mem_none _)

/-- A bandit node over learners that act alike. -/
theorem learner_alike {base : LineLearner R W σ} {base' : LineLearner R W τ}
    (h : base.Alike N C r (fun _ => True) base') :
    (learner base).Alike (Below N) C r (learner base') := by
  refine ⟨fun M => predict_alike (h.predict .any), fun {M} hM =>
    Alike.bind (predict_alike (h.predict .any)) fun _ => Alike.read_bind fun f f' hf => ?_⟩
  dsimp only
  rw [chosen?_marked hM hf.input]
  split
  · exact Alike.of_pure _ fun _ _ hg => hg
  · rename_i i action observed hchosen
    have haction := holds_merged (holds_shared hf.input.holds)
      (hf.input.holds action (mem_of_chosen? hchosen))
    have hmade : Example.Marked .same r (regression (shared? f.input) action observed)
        (regression (shared? f.input) action observed) := .refl ⟨haction.feature, haction.offset⟩
    have hlearn := h.learn.weaken (fun _ _ hg => ⟨hg, trivial⟩) fun _ _ hg => hg
    have hfill := fillRegression_eq_regression (shared? f.input) action observed
    rw [fillRegression_congr (namespaces_shared? hf.input)]
    refine onScratch_alike hlearn hfill hfill hmade fun learned learned' hlearned => ?_
    rw [hlearned.eq]
    exact Alike.of_writeLine fun _ => ⟨_, _, _, _, fun _ => rfl⟩

end Bandit

/-! ## Grounded nodes -/

namespace Grounded

variable {M : Marks}

/-! What a grounded node makes of a batch depends on marks through the primary policy only. -/

omit [Number W] [Widening R W] in
theorem feedback?_marked {batch batch' : Batch R} (h : Batch.Marked M r batch batch') :
    feedback? batch' = feedback? batch :=
  Batch.Marked.bind_find? (List.rel_reverse h) (fun _ _ => rfl) fun _ _ => rfl

omit [Number W] [Widening R W] in
theorem teach_marked (s : GroundedSettings R) (offset : UInt64) (decoder : LineLearner R W σ)
    (feedback : Option (Feature R)) (chosen position : Nat) {lines lines' : Batch R}
    (h : Batch.Marked M r lines lines') :
    teach s offset decoder feedback chosen position lines' =
      teach s offset decoder feedback chosen position lines := by
  induction h generalizing position with
  | nil => rfl
  | cons hline _ ih =>
    obtain ⟨⟨mark, -, rfl⟩, -⟩ := hline
    unfold teach
    rw [ih]
    rfl

omit [Number W] [Widening R W] in
theorem learnFrom_marked (s : GroundedSettings R) (offset : UInt64)
    (primary : Learner R W σ (Batch R)) (decoder : LineLearner R W σ) {batch batch' : Batch R}
    (h : Batch.Marked M r batch batch') :
    learnFrom s offset primary decoder batch' = learnFrom s offset primary decoder batch := by
  have hchosen : chosen? batch' = chosen? batch := h.findIdx?_eq fun _ _ => rfl
  unfold learnFrom
  rw [hchosen, feedback?_marked h]
  split
  · rfl
  · rename_i chosen _
    obtain ⟨mark, hline⟩ := h.getD_eq chosen Example.blank
    rw [hline]
    simp only [teach_marked s offset decoder _ chosen 0 h]
    rfl

/-- Grounded nodes are related by what they hold besides the example for reuse. -/
structure Related (N : σ → τ → Prop) (D : ContextRel R W) (s : GroundedState R W × σ)
    (s' : GroundedState R W × τ) : Prop where
  decoderContext : D.rel s.1.decoderContext s'.1.decoderContext
  counters : s'.1.counters = s.1.counters
  node : N s.2 s'.2

variable {D : ContextRel R W} {d : Region mask} {J : Batch R → Batch R → Prop}

theorem onDecoder_alike {call : NodeM R W σ (Example R) Unit}
    {call' : NodeM R W τ (Example R) Unit}
    (h : Alike (Agree N D (Example.Marked .same d)) (Agree N D (Example.Marked .same d)) call call')
    {fill : Example R → Example R} {made : Example R} (hfill : ∀ scratch, fill scratch = made)
    (hmade : d.Holds made) :
    Alike (Agree (Related N D) C J) (Agree (Related N D) C J) (onDecoder fill call)
      (onDecoder fill call') := by
  intro f f' hf
  have hinner : Agree N D (Example.Marked .same d)
      ⟨f.node.2, f.node.1.decoderContext, fill f.node.1.scratch⟩
      ⟨f'.node.2, f'.node.1.decoderContext, fill f'.node.1.scratch⟩ :=
    ⟨hf.node.node, hf.node.decoderContext, by rw [hfill, hfill]; exact .refl hmade⟩
  obtain ⟨hout, hleft⟩ := h _ _ hinner
  simp only [runOn_onDecoder, hout, hleft.input.eq]
  exact ⟨trivial, ⟨hleft.context, hf.node.counters, hleft.node⟩, hf.context, hf.input⟩

theorem onPrimary_alike {call : NodeM R W σ (Batch R) Unit} {call' : NodeM R W τ (Batch R) Unit}
    (h : Alike (Agree N C J) (Agree N C J) call call') :
    Alike (Agree (Related N D) C J) (Agree (Related N D) C J) (onPrimary call)
      (onPrimary call') := by
  intro f f' hf
  obtain ⟨hout, hleft⟩ := h ⟨f.node.2, f.context, f.input⟩ ⟨f'.node.2, f'.context, f'.input⟩
    ⟨hf.node.node, hf.context, hf.input⟩
  simp only [runOn_onPrimary, hout]
  exact ⟨trivial, ⟨hf.node.decoderContext, hf.node.counters, hleft.node⟩, hleft.context,
    hleft.input⟩

theorem modifyCounters_alike (g : GroundedCounters → GroundedCounters) :
    Alike (Agree (Related N D) C J) (Agree (Related N D) C J)
      (modifyCounters g : NodeM R W (GroundedState R W × σ) _ Unit)
      (modifyCounters g : NodeM R W (GroundedState R W × τ) _ Unit) :=
  Alike.of_modify fun _ _ hf =>
    ⟨⟨hf.node.decoderContext, congrArg g hf.node.counters, hf.node.node⟩, hf.context, hf.input⟩

omit [Number W] [Widening R W] in
theorem holds_setObservedCost {ec : Example R} (h : r.Holds ec) (cost : R) :
    r.Holds (ec.setObservedCost cost) := by
  obtain ⟨label, hlabel⟩ := ec.exists_setObservedCost_eq cost
  rw [hlabel]
  exact ⟨h.feature, h.offset⟩

omit [Number W] [Widening R W] in
/-- Where no cost is observed, none is after the replacement of the observed one. -/
theorem isSome_of_replaceObserved {cost : R} {costs : List (LoggedCost R)}
    (h : ((Example.replaceObserved cost costs).find? (·.isObserved)).isSome = true) :
    (costs.find? (·.isObserved)).isSome = true := by
  induction costs with
  | nil => exact h
  | cons c rest ih =>
    unfold Example.replaceObserved at h
    rw [List.find?_cons]
    cases hc : c.isObserved with
    | true => rfl
    | false =>
      rw [hc, if_neg Bool.false_ne_true, List.find?_cons, hc] at h
      exact ih h

omit [Number W] [Widening R W] in
theorem trains_of_setObservedCost {ec : Example R} {cost : R}
    (h : Bandit.trains (ec.setObservedCost cost) = true) : Bandit.trains ec = true := by
  unfold Bandit.trains Example.hasObservedCost Example.observed? Example.setObservedCost at *
  cases hlabel : ec.label with
  | simple target =>
    rw [hlabel] at h
    dsimp only at h
    rwa [hlabel] at h
  | bandit costs =>
    rw [hlabel] at h
    dsimp only at h
    rw [Bool.and_eq_true] at h ⊢
    exact ⟨h.1, isSome_of_replaceObserved h.2⟩

omit [Number W] [Widening R W] in
theorem marked_setObservedCost (hM : M.Teachable) {ec ec' : Example R}
    (h : Example.Marked M r ec ec') (cost : R) :
    Example.Marked M r (ec.setObservedCost cost) (ec'.setObservedCost cost) := by
  obtain ⟨⟨mark, hmark, rfl⟩, hec⟩ := h
  have hset : ({ ec with holdout := mark }.setObservedCost cost) =
      { ec.setObservedCost cost with holdout := mark } := by
    unfold Example.setObservedCost
    dsimp only
    split <;> rfl
  have hholdout : (ec.setObservedCost cost).holdout = ec.holdout := by
    obtain ⟨label, hlabel⟩ := ec.exists_setObservedCost_eq cost
    rw [hlabel]
  refine ⟨⟨mark, ?_, hset⟩, holds_setObservedCost hec cost⟩
  rw [hholdout]
  cases htrains : Bandit.trains ec with
  | true =>
    rw [htrains] at hmark
    rw [hM.trained hmark]
    exact hM.refl _ _
  | false =>
    have hfalse : Bandit.trains (ec.setObservedCost cost) = false :=
      Bool.eq_false_iff.mpr fun h =>
        Bool.false_ne_true (htrains.symm.trans (trains_of_setObservedCost h))
    rwa [hfalse, ← htrains]

/-- The examples of the decoder lie in its problem `d`, if it takes all features of the problem
`r` of the lines, and all offsets of that problem after they were moved. -/
structure Shifts (r d : Region mask) (offset : UInt64) : Prop where
  feature : ∀ {i}, r.feature i → d.feature i
  offset : ∀ {o}, r.offset o → d.offset (o + offset)

omit [Number W] [Widening R W] in
theorem holds_decoderExample {s : GroundedSettings R} {offset : UInt64}
    (hshift : Shifts r d offset) {feedback : Option (Feature R)}
    (hfeedback : ∀ f, feedback = some f → r.feature f.index) (chosen : Bool) {line : Example R}
    (hline : r.Holds line) : d.Holds (decoderExample s offset feedback chosen line) := by
  refine ⟨fun f hf => hshift.feature ?_, hshift.offset hline.offset⟩
  cases feedback with
  | none => exact hline.feature f hf
  | some g =>
    rcases (Namespaces.mem_toList_push _ _ _ _).mp hf with hf | rfl
    · exact hline.feature f hf
    · exact hfeedback f rfl

omit [Scalar R] in
theorem feature_feedback? {batch : Batch R} (h : r.HoldsAll batch) :
    ∀ f, feedback? batch = some f → r.feature f.index := by
  intro f hf
  obtain ⟨line, hline, hhead⟩ := Option.bind_eq_some_iff.mp hf
  have hmem := List.mem_reverse.mp (List.mem_of_find?_eq_some hline)
  exact (h line hmem).feature f (List.mem_of_head? hhead)

theorem teach_alike {decoder : LineLearner R W σ} {decoder' : LineLearner R W τ}
    (h : decoder.Alike N D d (fun _ => True) decoder') (s : GroundedSettings R) {offset : UInt64}
    (hshift : Shifts r d offset) {feedback : Option (Feature R)}
    (hfeedback : ∀ f, feedback = some f → r.feature f.index) (chosen position : Nat)
    {lines : Batch R} (hlines : r.HoldsAll lines) :
    Alike (Agree (Related N D) C J) (Agree (Related N D) C J)
      (teach s offset decoder feedback chosen position lines)
      (teach s offset decoder' feedback chosen position lines) := by
  induction lines generalizing position with
  | nil => exact Alike.of_pure _ fun _ _ hf => hf
  | cons line rest ih =>
    have hlater := ih (position + 1) fun ec hmem => hlines ec (List.mem_cons_of_mem _ hmem)
    have hlesson := onDecoder_alike (C := C) (J := J)
      (h.learn.weaken (fun _ _ hg => ⟨hg, trivial⟩) fun _ _ hg => hg)
      (fill_eq_decoderExample s offset feedback (position == chosen) line)
      (holds_decoderExample hshift hfeedback (position == chosen) (hlines line List.mem_cons_self))
    unfold teach
    split
    · exact Alike.bind hlesson fun _ => Alike.bind (modifyCounters_alike _) fun _ => hlater
    · exact hlater

theorem settle_alike {primary : Learner R W σ (Batch R)} {primary' : Learner R W τ (Batch R)}
    (h : primary.Alike N C r primary') (hM : M.Teachable) (s : GroundedSettings R)
    (feedback : Option (Feature R)) (chosen : Nat) (psi : R) :
    Alike (Agree (Related N D) C (Batch.Marked M r)) (Agree (Related N D) C (Batch.Marked M r))
      (settle s primary feedback chosen psi) (settle s primary' feedback chosen psi) := by
  have hclear : Alike (Agree (Related N D) C (Batch.Marked M r))
      (Agree (Related N D) C (Batch.Marked M r))
      (modifyState fun state => { state with scratch := state.scratch.clear } :
        NodeM R W (GroundedState R W × σ) _ Unit)
      (modifyState fun state => { state with scratch := state.scratch.clear } :
        NodeM R W (GroundedState R W × τ) _ Unit) :=
    Alike.of_modify fun _ _ hf =>
      ⟨⟨hf.node.decoderContext, hf.node.counters, hf.node.node⟩, hf.context, hf.input⟩
  have hrest := Alike.bind
    (Alike.of_modifyInput (N := Related N D) (C := C) fun batch batch' hbatch =>
      Batch.Marked.modify hbatch chosen fun _ _ hline =>
        marked_setObservedCost hM hline (groundedCost s psi (isNegative s feedback)))
    fun _ => Alike.bind (onPrimary_alike (D := D) (h.learn hM)) fun _ =>
      modifyCounters_alike fun c => { c with batchesLearned := c.batchesLearned + 1 }
  unfold settle
  refine Alike.bind hclear fun _ => ?_
  split
  · exact Alike.bind (modifyCounters_alike _) fun _ => hrest
  · exact hrest

theorem learnFrom_alike {primary : Learner R W σ (Batch R)} {primary' : Learner R W τ (Batch R)}
    (hprimary : primary.Alike N C r primary') {decoder : LineLearner R W σ}
    {decoder' : LineLearner R W τ} (hdecoder : decoder.Alike N D d (fun _ => True) decoder')
    (hM : M.Teachable) (s : GroundedSettings R) {offset : UInt64} (hshift : Shifts r d offset)
    {batch : Batch R} (hbatch : r.HoldsAll batch) :
    Alike (Agree (Related N D) C (Batch.Marked M r)) (Agree (Related N D) C (Batch.Marked M r))
      (learnFrom s offset primary decoder batch) (learnFrom s offset primary' decoder' batch) := by
  unfold learnFrom
  split
  · exact onPrimary_alike (hprimary.predict M)
  · rename_i chosen hchosen
    have hline : r.Holds (batch.getD chosen Example.blank) := by
      obtain ⟨hlt, -⟩ := List.findIdx?_eq_some_iff_getElem.mp hchosen
      rw [List.getD_eq_getElem?_getD, List.getElem?_eq_getElem hlt]
      exact hbatch _ (List.getElem_mem hlt)
    have hfeedback := feature_feedback? hbatch
    refine Alike.bind (onDecoder_alike (hdecoder.predict .same)
      (fill_eq_decoderExample s offset _ true _)
      (holds_decoderExample hshift hfeedback true hline)) fun scored => ?_
    exact Alike.bind (teach_alike hdecoder s hshift hfeedback chosen 0 hbatch) fun _ =>
      settle_alike hprimary hM s _ chosen scored.scalar

/-- A grounded node over learners that act alike. -/
theorem learner_alike {primary : Learner R W σ (Batch R)} {primary' : Learner R W τ (Batch R)}
    (hprimary : primary.Alike N C r primary') {decoder : LineLearner R W σ}
    {decoder' : LineLearner R W τ} (hdecoder : decoder.Alike N D d (fun _ => True) decoder')
    (s : GroundedSettings R) {offset : UInt64} (hshift : Shifts r d offset) :
    (learner s offset primary decoder).Alike (Related N D) C r
      (learner s offset primary' decoder') := by
  refine ⟨fun M => onPrimary_alike (hprimary.predict M), fun {M} hM =>
    Alike.get_bind fun f f' hf => ?_⟩
  have hstart : ∀ g g', g = f ∧ g' = f' → Agree (Related N D) C (Batch.Marked M r) g g' := by
    rintro _ _ ⟨rfl, rfl⟩
    exact hf
  have hlearn := learnFrom_alike (C := C) hprimary hdecoder hM s hshift hf.input.holds
  dsimp only
  rw [hf.input.isEmpty_eq, learnFrom_marked s offset primary' decoder' hf.input]
  split
  · exact Alike.bind (Alike.of_throw _ hstart) fun _ => hlearn
  · exact hlearn.weaken hstart fun _ _ hg => hg

end Grounded

end OnlineLearning
