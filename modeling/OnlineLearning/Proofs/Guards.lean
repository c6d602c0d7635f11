import OnlineLearning.Proofs.Bounds

/-!
# Guarded learners

A guarded learner fails where the bounds of the context are not around zero, where a prediction is
written or judged that is not within them, and where a label is judged that is not within them. It
squares a distance where the squared loss would go by the bounds, and takes the derivative at a
prediction without moving that into the bounds.

* `Optimizer.guarded`, `Scorer.guarded`, `Line.guarded` and `Tower.guarded` are the learners of a
  stack with guards;
* `LineLearner.Mirrors`: the calls of a learner are those of another one, in contexts of which
  something is true;
* `Line.mirrors` and `Tower.guarded_alike`: no guard ever fails in contexts with bounds around zero.
-/

namespace OnlineLearning

/-! ## Learners with guards -/

section

variable {R W σ : Type} [Scalar R] [Number W] [Widening R W]

/-- Where the squared loss is to be taken, the prediction is within the bounds, and so is the label,
if it is a number. -/
def Context.Judges (c : Context R W) (prediction label : R) : Prop :=
  c.loss = .squared → c.Bounds prediction ∧ (Scalar.isNaN label = false → c.Bounds label)

instance (c : Context R W) (prediction label : R) : Decidable (c.Judges prediction label) :=
  inferInstanceAs (Decidable (_ → _))

namespace Optimizer

/-- Fails unless the bounds are around zero and an example holds a prediction within them. -/
def guard (fault : LearnerError) : NodeM R W σ (Example R) Unit := do
  let frame ← get
  if ¬ (frame.context.Bounds 0 ∧ frame.context.Bounds frame.input.scalar) then throw fault

/-- The prediction that learning starts from. -/
def seek : NodeM R W (Optimizer R W) (Example R) Unit :=
  modify fun frame =>
    let visits := frame.input.visits frame.context.interactions
    let (node, raw) := frame.node.learningPrediction frame.input.weight visits
    { frame with node, input := publish frame.context raw frame.input }

/-- Steps along the plain derivative of the loss at the prediction that the example holds. -/
def plainUpdate : NodeM R W (Optimizer R W) (Example R) Unit := do
  let frame ← get
  match frame.input.target? with
  | none => throw (.labelMismatch frame.node.name "simple")
  | some label =>
    let update := frame.context.plainDerivative frame.input.scalar label * frame.input.weight
    let visits := frame.input.visits frame.context.interactions
    set { frame with node := frame.node.step update visits }

/-- The optimizer with a guard behind every prediction. -/
def guarded (fault : LearnerError) : LineLearner R W (Optimizer R W) :=
  { (learner : LineLearner R W _) with
    predict := do
      predict
      guard fault
    learn := do
      seek
      guard fault
      plainUpdate }

end Optimizer

namespace Scorer

/-- Judges a prediction by the plain loss, after a guard. -/
def guardedAccount (fault : LearnerError) (learning : Bool) (label : R) :
    NodeM R W σ (Example R) Unit := do
  let frame ← get
  let ec := frame.input
  if 0 < ec.weight then
    if ¬ frame.context.Judges ec.scalar label then throw fault
    let loss := frame.context.plainLoss ec.scalar label * ec.weight
    NodeM.modifyInput ({ · with loss })
    if learning then
      NodeM.modifyContext fun c =>
        { c with stats := c.stats.recordLoss ec.holdout loss ec.weight label }

def guardedRun (fault : LearnerError) (link : LinkFunction) (base : LineLearner R W σ)
    (learning : Bool) : NodeM R W σ (Example R) Unit := do
  belowWith (guardedAccount fault learning) link base learning
  publish link

/-- A scorer with a guard before every judgement. -/
def guarded (fault : LearnerError) (link : LinkFunction) (base : LineLearner R W σ) :
    LineLearner R W σ :=
  { learner link base with
    predict := guardedRun fault link base false
    learn := guardedRun fault link base true }

end Scorer

/-- The scorers of a line on its optimizer, all with guards. -/
def Line.guarded (fault : LearnerError) (l : Line) : LineLearner R W (Optimizer R W) :=
  l.links.foldr (Scorer.guarded fault) (Optimizer.guarded fault)

/-- A tower whose lines have guards. -/
def Tower.guarded (fault : LearnerError) : (t : Tower R) → Learner R W (t.State W) (Batch R)
  | .bandit l => Bandit.learner (l.guarded fault)
  | .grounded settings offset decoder primary =>
    let decoder :=
      (decoder.guarded fault).onNode primary.optimizer fun o => primary.setOptimizer o
    Grounded.learner settings offset (primary.guarded fault) decoder

end

/-! ## Learners that mirror others -/

section

variable {R W σ : Type} [Scalar R] [Number W] [Widening R W]

/-- From frames with a context in `P` a call goes as another one, and leaves a context in `P`. What
an accepted call leaves is as `Q` has it. -/
def NodeM.Mirrors (P : Context R W → Prop) (Q : Context R W → Frame R W σ (Example R) → Prop)
    (call call' : NodeM R W σ (Example R) Unit) : Prop :=
  ∀ f, P f.context → call'.runOn f = call.runOn f ∧ P (call.runOn f).2.context ∧
    ((call.runOn f).1 = .ok () → Q f.context (call.runOn f).2)

/-- A learner whose calls are those of another one, in contexts in `P`. -/
structure LineLearner.Mirrors (P : Context R W → Prop)
    (Q : Context R W → Frame R W σ (Example R) → Prop) (l l' : LineLearner R W σ) : Prop where
  predict : NodeM.Mirrors P Q l.predict l'.predict
  learn : NodeM.Mirrors P Q l.learn l'.learn
  sensitivity : l'.sensitivity = l.sensitivity

variable {P : Context R W → Prop} {Q : Context R W → Frame R W σ (Example R) → Prop}

namespace Scorer

theorem runOn_guardedAccount (fault : LearnerError) (learning : Bool) {label : R}
    {f : Frame R W σ (Example R)} (h : f.context.Judges f.input.scalar label) :
    (guardedAccount fault learning label).runOn f = (account learning label).runOn f := by
  have hloss : f.context.plainLoss f.input.scalar label = f.context.lossOf f.input.scalar label :=
    (Context.lossOf_eq (fun hsquared => (h hsquared).1) label).symm
  unfold guardedAccount account
  rw [NodeM.runOn_bind, NodeM.runOn_bind, NodeM.runOn_get]
  dsimp only
  rw [hloss, if_neg (not_not_intro h)]

theorem account_keeps (hP : Context.Lasting P) (learning : Bool) (label : R)
    {f : Frame R W σ (Example R)} (h : P f.context) :
    P ((account learning label).runOn f).2.context := by
  rw [runOn_account]
  dsimp only
  split
  · cases learning with
    | false => exact h
    | true => exact hP.recordLoss _ _ _ _ _ h
  · exact h

/-- With guards in it, a scorer on a learner that mirrors another one goes on as it does on that
one, provided that what this one leaves can be judged. -/
theorem guardedBelow_mirrors {base base' : LineLearner R W σ} (h : base.Mirrors P Q base')
    (hP : Context.Lasting P)
    (hjudges : ∀ {c left label}, P c → P left.context → Q (c.coverLabel label) left →
      left.context.Judges left.input.scalar label)
    (fault : LearnerError) (link : LinkFunction) (learning : Bool) :
    NodeM.Mirrors P (fun _ _ => True) (runBelow link base learning)
      (belowWith (guardedAccount fault learning) link base' learning) := by
  intro f hf
  rw [runOn_belowWith, runOn_runBelow]
  cases f.input.label with
  | bandit _ => exact ⟨rfl, hf, fun _ => trivial⟩
  | simple target =>
    cases target with
    | none =>
      obtain ⟨hsame, hleft, -⟩ := h.predict f hf
      exact ⟨hsame, hleft, fun _ => trivial⟩
    | some label =>
      have hcovered := hP.coverLabel _ label hf
      have hcall : NodeM.Mirrors P Q
          (if learning && 0 < f.input.weight && !f.input.holdout then base.learn else base.predict)
          (if learning && 0 < f.input.weight && !f.input.holdout then base'.learn
            else base'.predict) := by
        split
        · exact h.learn
        · exact h.predict
      obtain ⟨hsame, hleft, haccepted⟩ :=
        hcall { f with context := f.context.coverLabel label } hcovered
      dsimp only at hsame haccepted ⊢
      rw [hsame]
      generalize NodeM.runOn _ _ = run at hleft haccepted ⊢
      obtain ⟨outcome | outcome, left⟩ := run
      · exact ⟨rfl, hleft, fun _ => trivial⟩
      · have hjudged := runOn_guardedAccount fault learning (hjudges hf hleft (haccepted rfl))
        exact ⟨hjudged, account_keeps hP learning label hleft, fun _ => trivial⟩

theorem guarded_mirrors {base base' : LineLearner R W σ} (h : base.Mirrors P Q base')
    (hP : Context.Lasting P)
    (hjudges : ∀ {c left label}, P c → P left.context → Q (c.coverLabel label) left →
      left.context.Judges left.input.scalar label)
    (fault : LearnerError) (link : LinkFunction) :
    (learner link base).Mirrors P (fun _ _ => True) (guarded fault link base') := by
  have hrun (learning : Bool) : NodeM.Mirrors P (fun _ _ => True) (run link base learning)
      (guardedRun fault link base' learning) := by
    intro f hf
    obtain ⟨hsame, hleft, -⟩ := guardedBelow_mirrors h hP hjudges fault link learning f hf
    unfold run guardedRun
    rw [NodeM.runOn_bind, NodeM.runOn_bind, hsame]
    generalize (runBelow link base learning).runOn f = below at hleft ⊢
    obtain ⟨outcome | outcome, left⟩ := below
    · exact ⟨rfl, hleft, fun _ => trivial⟩
    · exact ⟨rfl, hleft, fun _ => trivial⟩
  exact ⟨hrun false, hrun true, h.sensitivity⟩

end Scorer

/-- A learner that acts alike with itself acts alike with what mirrors it. -/
theorem LineLearner.Alike.mirrored {mask : UInt64} {N : σ → σ → Prop} {C : ContextRel R W}
    {r : Region mask} {p : R → Prop} {l l' : LineLearner R W σ} (h : l.Alike N C r p l)
    (hmirrors : l.Mirrors P Q l') (hP : ∀ {c c'}, C.rel c c' → P c') : l.Alike N C r p l' := by
  refine ⟨fun M f f' hf => ?_, fun f f' hf => ?_, fun hn hc hec => ?_⟩
  · rw [(hmirrors.predict f' (hP hf.context)).1]
    exact h.predict M f f' hf
  · rw [(hmirrors.learn f' (hP hf.1.context)).1]
    exact h.learn f f' hf
  · rw [hmirrors.sensitivity]
    exact h.sensitivity hn hc hec

end

/-! ## Lines -/

section

variable {P Q : NarrowContext → Prop}

namespace Optimizer

theorem runOn_guard {σ : Type} (fault : LearnerError)
    {f : Frame Float32 Float σ (Example Float32)} (hspans : f.context.Spans)
    (h : f.context.Bounds f.input.scalar) : (guard fault).runOn f = (.ok (), f) := by
  unfold guard
  rw [NodeM.runOn_bind, NodeM.runOn_get]
  dsimp only
  rw [if_neg (not_not_intro ⟨hspans.bounds_zero, h⟩)]
  rfl

theorem runOn_guarded_predict (fault : LearnerError)
    {f : Frame Float32 Float (Optimizer Float32 Float) (Example Float32)}
    (h : f.context.Spans) : (guarded fault).predict.runOn f = predict.runOn f := by
  change (predict >>= fun _ => guard fault).runOn f = _
  rw [NodeM.runOn_bind]
  refine runOn_guard fault ?_ ?_
  · exact h
  · exact h.bounds_bound _

/-- The derivative that learning takes is the plain one, as its prediction is within the bounds. -/
theorem runOn_guarded_learn (fault : LearnerError)
    {f : Frame Float32 Float (Optimizer Float32 Float) (Example Float32)}
    (h : f.context.Spans) : (guarded fault).learn.runOn f = learn.runOn f := by
  have hderivative (raw label : Float32) (ec : Example Float32) :
      f.context.plainDerivative (publish f.context raw ec).scalar label =
        f.context.derivativeOf (publish f.context raw ec).scalar label :=
    (h.derivativeOf_bound raw label).symm
  change (seek >>= fun _ => guard fault >>= fun _ => plainUpdate).runOn f =
    (seek >>= fun _ => update).runOn f
  rw [NodeM.runOn_bind, NodeM.runOn_bind]
  dsimp only [seek, NodeM.runOn_modify]
  rw [NodeM.runOn_bind, runOn_guard fault (by exact h) (by exact h.bounds_bound _)]
  dsimp only
  unfold plainUpdate update
  rw [NodeM.runOn_bind, NodeM.runOn_bind, NodeM.runOn_get]
  dsimp only
  cases (publish f.context (f.node.learningPrediction f.input.weight
    (f.input.visits f.context.interactions)).2 f.input).target? with
  | none => rfl
  | some label =>
    dsimp only
    rw [hderivative]

/-- In a context with bounds around zero the optimizer writes predictions within these. -/
theorem guarded_mirrors (hP : ∀ {c}, P c → c.Spans) (fault : LearnerError) :
    (learner : LineLearner Float32 Float _).Mirrors P
      (fun c left => left.context = c ∧ c.Bounds left.input.scalar) (guarded fault) := by
  refine ⟨fun f hf => ?_, fun f hf => ?_, rfl⟩
  · have hbounds := (hP hf).bounds_bound
    exact ⟨runOn_guarded_predict fault (hP hf), hf, fun _ => ⟨rfl, hbounds _⟩⟩
  · have hbounds := (hP hf).bounds_bound
    have hrun := runOn_learn f
    change learner.learn.runOn f = _ at hrun
    refine ⟨runOn_guarded_learn fault (hP hf), ?_, fun _ => ?_⟩
    · rw [hrun]
      dsimp only
      split
      · exact hf
      · exact hf
    · rw [hrun]
      dsimp only
      split
      · exact ⟨rfl, hbounds _⟩
      · exact ⟨rfl, hbounds _⟩

end Optimizer

/-- A line with one scorer fails at no guard. -/
theorem Line.guarded_mirrors (hlasting : Context.Lasting P) (hP : ∀ {c}, P c → c.Spans)
    {l : Line} {link : LinkFunction} (hlinks : l.links = [link]) (fault : LearnerError) :
    (l.learner : LineLearner Float32 Float _).Mirrors P (fun _ _ => True) (l.guarded fault) := by
  unfold Line.learner Line.guarded
  rw [hlinks]
  refine Scorer.guarded_mirrors (Optimizer.guarded_mirrors hP fault) hlasting ?_ fault link
  rintro c left label hc - ⟨hleft, hbounds⟩
  rw [hleft]
  intro hsquared
  have hloss : c.loss = .squared := by
    unfold Context.coverLabel at hsquared
    split at hsquared
    · exact hsquared
    · exact hsquared
  exact ⟨hbounds, fun hlabel => (hP hc).bounds_label hlabel hloss⟩

/-- Where the loss is logistic, a line with any number of scorers fails at no guard. -/
theorem Line.guarded_mirrors_logistic (hlasting : Context.Lasting P)
    (hP : ∀ {c}, P c → c.Spans ∧ c.loss = .logistic) (l : Line) (fault : LearnerError) :
    ∃ Q, (l.learner : LineLearner Float32 Float _).Mirrors P Q (l.guarded fault) := by
  unfold Line.learner Line.guarded
  induction l.links with
  | nil => exact ⟨_, Optimizer.guarded_mirrors (fun hc => (hP hc).1) fault⟩
  | cons link rest ih =>
    obtain ⟨Q, hrest⟩ := ih
    refine ⟨_, Scorer.guarded_mirrors hrest hlasting ?_ fault link⟩
    intro c left label _ hleft _ hsquared
    cases hsquared.symm.trans (hP hleft).2

end

/-! ## Towers -/

section

variable {start : Optimizer Float32 Float} {P Q : NarrowContext → Prop}
  {hP : Context.Lasting P} {hQ : Context.Lasting Q}

/-- Whether predictions are judged by one scorer below each bandit node, and by any number of
scorers in decoders. -/
def Tower.Judged {R : Type} : Tower R → Prop
  | bandit l => ∃ link, l.links = [link]
  | grounded _ _ decoder primary => decoder.links ≠ [] ∧ primary.Judged

theorem Tower.guarded_alike {t : Tower Float32} (ht : t.Judged)
    (hspans : ∀ {c}, P c → c.Spans) (hlogistic : ∀ {c}, Q c → c.Spans ∧ c.loss = .logistic)
    (fault : LearnerError) :
    (t.learner : Learner Float32 Float _ _).Alike (t.Related (.kept start hP hQ)) (.lasting hP)
      (Region.whole start.weights.mask) (t.guarded fault) := by
  induction t with
  | bandit l =>
    obtain ⟨link, hlinks⟩ := ht
    have hline := l.learner_alike (Bond.kept start hP hQ).primary_alike
      (hlinks ▸ List.cons_ne_nil link [])
    have hmirrors := Line.guarded_mirrors hP hspans hlinks fault
    exact Bandit.learner_alike (hline.mirrored hmirrors fun hc => hc.1 ▸ hc.2)
  | grounded settings offset decoder primary ih =>
    have hline := decoder.learner_alike (Bond.kept start hP hQ).decoder_alike ht.1
    obtain ⟨_, hmirrors⟩ := Line.guarded_mirrors_logistic hQ hlogistic decoder fault
    have hdecoder := onNode_alike (K := primary.Related (.kept start hP hQ))
      (hline.mirrored hmirrors fun hc => hc.1 ▸ hc.2) (fun _ _ h => h.optimizer)
      fun _ _ _ _ h ho => h.setOptimizer id ho
    exact Grounded.learner_alike (ih ht.2) hdecoder settings ⟨fun _ => trivial, fun _ => trivial⟩

end

end OnlineLearning
