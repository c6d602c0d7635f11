import OnlineLearning.Proofs.DisjointLessons

/-!
# Lessons without a label

A lesson predicts before it looks for a label. Where there is none it is refused, but the optimizer
keeps what the prediction made of it: refreshed parameters under exponential updates, totals that
count the example under coin betting. A step without a prediction looks first.

* `Mode.refreshGroup` is what a prediction makes of a group; `Mode.group_preview`: a group is
  refreshed for the values that the example has there, one after another, and keeps its gradient
  statistics;
* `Optimizer.learn_unlabeled`: how the refused lesson leaves an optimizer of each mode;
* `Optimizer.not_unmoved_by_unlabeled`: not as it was.
-/

namespace OnlineLearning

variable {R W : Type} [Scalar R] [Number W] [Widening R W]

/-! ## Groups that are predicted from -/

/-- The values of the features that get to an index under a mask, in order. -/
def valuesAt (mask i : UInt64) (visits : List (Feature R)) : List R :=
  (visits.filter fun f => f.index &&& mask = i &&& mask).map Feature.value

/-- What the prediction of a lesson makes of a group that a feature of value `x` gets to. -/
def Mode.refreshGroup (m : Mode) (p : Params R) (x : R) : Vector R m.width → Vector R m.width :=
  match m with
  | proximal => id
  | pistol => fun g => ((Pistol.load g).predict p x).channels
  | coinBetting => id

omit [Scalar R] in
theorem valuesAt_cons (mask i : UInt64) (f : Feature R) (rest : List (Feature R)) :
    valuesAt mask i (f :: rest) =
      if f.index &&& mask = i &&& mask then f.value :: valuesAt mask i rest
      else valuesAt mask i rest := by
  unfold valuesAt
  by_cases hf : f.index &&& mask = i &&& mask <;> simp [hf]

namespace Pistol

theorem group_refreshAll (p : Params R) (t : WeightTable R 4) (visits : List (Feature R))
    (i : UInt64) :
    (refreshAll p t visits).1.group i =
      (valuesAt t.mask i visits).foldl (fun g x => Mode.pistol.refreshGroup p x g) (t.group i) := by
  unfold refreshAll
  generalize (0 : R) = sum
  induction visits generalizing t sum with
  | nil => rfl
  | cons f rest ih =>
    rw [List.foldl_cons, ih, WeightTable.mask_setGroup, WeightTable.group_setGroup, valuesAt_cons]
    by_cases hf : f.index &&& t.mask = i &&& t.mask
    · rw [if_pos hf, if_pos hf, List.foldl_cons, WeightTable.group_congr hf]
      rfl
    · rw [if_neg hf, if_neg hf]

end Pistol

namespace Mode

/-- A prediction refreshes a group once for every value that it meets there. -/
theorem group_preview (m : Mode) (p : Params R) (t : WeightTable R m.width)
    (visits : List (Feature R)) (i : UInt64) :
    (m.preview p t visits).weights.group i =
      (valuesAt t.mask i visits).foldl (fun g x => m.refreshGroup p x g) (t.group i) := by
  cases m with
  | pistol => exact Pistol.group_refreshAll p t visits i
  | proximal => exact (List.foldl_fixed _).symm
  | coinBetting => exact (List.foldl_fixed _).symm

theorem statistics_refreshGroup (m : Mode) (p : Params R) (values : List R)
    (g : Vector R m.width) :
    let refreshed := values.foldl (fun g x => m.refreshGroup p x g) g
    refreshed[1]? = g[1]? ∧ refreshed[2]? = g[2]? := by
  induction values generalizing g with
  | nil => exact ⟨rfl, rfl⟩
  | cons x rest ih =>
    have hfirst : (m.refreshGroup p x g)[1]? = g[1]? ∧ (m.refreshGroup p x g)[2]? = g[2]? := by
      cases m <;> exact ⟨rfl, rfl⟩
    obtain ⟨hz, hsum⟩ := ih (m.refreshGroup p x g)
    exact ⟨hz.trans hfirst.1, hsum.trans hfirst.2⟩

end Mode

/-! ## Refused lessons -/

namespace Optimizer

omit [Number W] [Widening R W] in
/-- A step looks for the label before it changes anything. -/
theorem runOn_update_unlabeled {f : Frame R W (Optimizer R W) (Example R)}
    (hlabel : f.input.target? = none) :
    (update : NodeM R W _ _ Unit).runOn f = (.error (.labelMismatch f.node.name "simple"), f) := by
  unfold update
  rw [NodeM.runOn_bind, NodeM.runOn_get]
  dsimp only
  rw [hlabel]
  rfl

theorem name_learningPrediction (o : Optimizer R W) (weight : R) (visits : List (Feature R)) :
    (o.learningPrediction weight visits).1.name = o.name := by
  obtain ⟨_, _, _, _, heq, -⟩ := learningPrediction_wroteTo o weight visits
  rw [heq]
  rfl

/-- A lesson without a label is refused with what its prediction leaves. -/
theorem runOn_learn_unlabeled {f : Frame R W (Optimizer R W) (Example R)}
    (hlabel : f.input.target? = none) :
    (learn : NodeM R W _ _ Unit).runOn f =
      let seen := f.node.learningPrediction f.input.weight (f.input.visits f.context.interactions)
      (.error (.labelMismatch f.node.name "simple"),
        ⟨seen.1, f.context, publish f.context seen.2 f.input⟩) := by
  rw [runOn_learn]
  dsimp only
  rw [hlabel, name_learningPrediction]

/-- An example without a label to regress on is refused by every step and by every lesson. A step
leaves all as it was, and so does a lesson of proximal updates. Under exponential updates a lesson
leaves the totals and the gradient statistics, but it refreshes every group that the example
reaches, and holds it from then on. Under coin betting it leaves the table, but the totals count the
example. -/
theorem learn_unlabeled (o : Optimizer R W) (context : Context R W) {ec : Example R}
    (hlabel : ec.target? = none) :
    let visits := ec.visits context.interactions
    let refusal := LearnerError.labelMismatch o.name "simple"
    let learned := (learn : NodeM R W _ _ Unit).runOn ⟨o, context, ec⟩
    (update : NodeM R W _ _ Unit).runOn ⟨o, context, ec⟩ = (.error refusal, ⟨o, context, ec⟩) ∧
      learned.1 = .error refusal ∧ learned.2.context = context ∧
      (o.mode = .proximal → learned.2.node = o) ∧
      (o.mode = .pistol → ∃ t, learned.2.node = { o with weights := t } ∧
        o.weights.WroteTo (ec.Reaches o.weights.mask context.interactions) t ∧
        ∀ i, (t.group i)[1]? = (o.weights.group i)[1]? ∧
          (t.group i)[2]? = (o.weights.group i)[2]? ∧
          t.group i = (valuesAt o.weights.mask i visits).foldl
            (fun g x => o.mode.refreshGroup o.params x g) (o.weights.group i)) ∧
      (o.mode = .coinBetting → ∃ norm,
        (o.mode.preview o.params o.weights visits).norm? = some norm ∧
        learned.2.node = o.countNorm ec.weight norm) := by
  intro visits refusal learned
  have hlearned : learned = (.error refusal, ⟨(o.learningPrediction ec.weight visits).1, context,
      publish context (o.learningPrediction ec.weight visits).2 ec⟩) :=
    runOn_learn_unlabeled (f := ⟨o, context, ec⟩) hlabel
  rw [hlearned]
  refine ⟨runOn_update_unlabeled (f := ⟨o, context, ec⟩) hlabel, rfl, rfl, ?_, ?_, ?_⟩
  · intro hmode
    obtain ⟨_, _, _, _, _, _, _, _, _⟩ := o
    cases hmode
    rfl
  · intro hmode
    have hwrote := preview_wroteTo o.mode o.params o.weights visits
    have hgroups := Mode.group_preview o.mode o.params o.weights visits
    refine ⟨(o.mode.preview o.params o.weights visits).weights, ?_, ?_, fun i => ?_⟩
    · obtain ⟨_, _, _, _, _, _, _, _, _⟩ := o
      cases hmode
      rfl
    · exact hwrote.congr fun i => by simp [Example.Reaches, hmode, visits]
    · obtain ⟨hz, hsum⟩ := Mode.statistics_refreshGroup o.mode o.params
        (valuesAt o.weights.mask i visits) (o.weights.group i)
      rw [hgroups i]
      exact ⟨hz, hsum, rfl⟩
  · intro hmode
    obtain ⟨_, _, _, _, _, _, _, _, _⟩ := o
    cases hmode
    exact ⟨_, rfl, rfl⟩

/-- Two features of one group, with costs for a label: the group is refreshed twice. -/
theorem learn_unlabeled_costs :
    let o : Optimizer Float32 Float := .new .pistol ⟨1, 1 / 2, 0, 0⟩ 4 .sparse 3
    let context : Context Float32 Float := .initial .squared
    let ec : Example Float32 :=
      { (Example.blank : Example Float32) with
        namespaces := (Namespaces.push ∅ 0 ⟨17, 2⟩).push 0 ⟨1, 3⟩
        label := .bandit [⟨1, 1, 1⟩] }
    let learned := (learn : NodeM Float32 Float _ _ Unit).runOn ⟨o, context, ec⟩
    ec.target? = none ∧ learned.1 = .error (.labelMismatch "ftrl-PiSTOL" "simple") ∧
      ∃ t : WeightTable Float32 4, learned.2.node = { o with weights := t } ∧
        o.weights.WroteTo (ec.Reaches o.weights.mask context.interactions) t ∧
        t.group 1 = Mode.pistol.refreshGroup o.params 3
          (Mode.pistol.refreshGroup o.params 2 (o.weights.group 1)) := by
  intro o context ec learned
  have hlabel : ec.target? = none := rfl
  have hvalues : valuesAt o.weights.mask 1 (ec.visits context.interactions) = [2, 3] := by
    decide +kernel
  obtain ⟨-, hrefused, -, -, hpistol, -⟩ := learn_unlabeled o context hlabel
  obtain ⟨t, hnode, hwrote, hgroups⟩ := hpistol rfl
  obtain ⟨-, -, hgroup⟩ := hgroups 1
  rw [hvalues, List.foldl_cons, List.foldl_cons, List.foldl_nil] at hgroup
  exact ⟨hlabel, hrefused, t, hnode, hwrote, hgroup⟩

/-- A refused example counts into the totals of a bettor, and is given a group by an optimizer of
exponential updates. -/
theorem not_unmoved_by_unlabeled :
    let context : Context Float32 Float := .initial .squared
    let ec : Example Float32 := { oneFeature 1 1 with label := .simple none }
    let bettor : Optimizer Float32 Float := .new .coinBetting ⟨4, 1, 0, 0⟩ 4 .sparse 3
    let pistol : Optimizer Float32 Float := .new .pistol ⟨1, 1 / 2, 0, 0⟩ 4 .sparse 3
    ec.target? = none ∧ (taught context bettor ec).totalWeight ≠ bettor.totalWeight ∧
      (taught context pistol ec).held? 1 ≠ pistol.held? 1 := by
  intro context ec bettor pistol
  refine ⟨rfl, by decide +kernel, ?_⟩
  have hheld : ((taught context pistol ec).held? 1).isSome = true := by decide +kernel
  have hempty : pistol.held? 1 = none := by decide +kernel
  intro heq
  rw [heq, hempty] at hheld
  cases hheld

end Optimizer

end OnlineLearning
