import Mathlib
import OnlineLearning.Proofs.Shrinkage
import OnlineLearning.Proofs.StoredBets
import OnlineLearning.Proofs.UnlabeledLessons

/-!
# Sensitivity

The sensitivity to an example adds up the signs of its features, each over the inverse learning rate
of the feature. This rate is made of the smoothing, of the root of the gradients that the feature has
met and of the penalty on the square. None of the three is ever negative. But all of them may be zero:
no configuration has to smooth or to penalize, and a feature that was never learned has met no
gradient.

* `Optimizer.gradients`: what an index has met; `Optimizer.gradients_le_taught` says that lessons only
  add to it, and `Optimizer.gradients_lt_step` that a step does at every feature that it visits;
* `Optimizer.sensitivityDivisors`: what is divided by on the way to a sensitivity, read off its traced
  run; `Optimizer.sensitivityDivisors_eq`: the learning rate and the inverse rate of each feature;
* `Optimizer.sensitivity_terms`: when these are positive, and what a feature then adds;
  `Optimizer.not_sensitivity_finite`: they need not be.
-/

namespace OnlineLearning

open Traced (plain)

/-- Numbers of which positive ones have positive roots, and zero the root zero. -/
class ExactRoots (K : Type) [ExactNumber K] : Prop extends PositiveRoots K where
  sqrt_zero : Scalar.sqrt (0 : K) = 0

instance : ExactRoots ℝ := ⟨Real.sqrt_zero⟩

/-! ## Traced examples -/

section

variable {K : Type} [ExactNumber K]

def Namespaces.traced (n : Namespaces K) : Namespaces (Traced K) where
  entries := n.entries.map fun e => (e.1, e.2.map Feature.traced)
  distinct := by
    rw [List.map_map]
    exact n.distinct

omit [ExactNumber K] in
theorem Namespaces.features?_traced (n : Namespaces K) (name : UInt8) :
    n.traced.features? name = (n.features? name).map (List.map Feature.traced) := by
  obtain ⟨entries, distinct⟩ := n
  change (entries.map _).lookup name = (entries.lookup name).map _
  clear distinct
  induction entries with
  | nil => rfl
  | cons e rest ih =>
    rw [List.map_cons, List.lookup_cons, List.lookup_cons, ih]
    cases name == e.1 <;> rfl

namespace Interaction

theorem mul_traced (f g : Feature K) : f.traced.mul g.traced = (f.mul g).traced := rfl

theorem pairs_traced (same : Bool) (first second : List (Feature K)) :
    pairs same (first.map Feature.traced) (second.map Feature.traced) =
      (pairs same first second).map Feature.traced := by
  simp only [pairs, List.zipIdx_map, List.flatMap_map, List.map_flatMap, ← List.map_drop,
    List.map_map, Function.comp_def, Prod.map, mul_traced, id]

theorem triples_traced (sameFirst sameLast : Bool) (first second third : List (Feature K)) :
    triples sameFirst sameLast (first.map Feature.traced) (second.map Feature.traced)
        (third.map Feature.traced) =
      (triples sameFirst sameLast first second third).map Feature.traced := by
  simp only [triples, List.zipIdx_map, List.flatMap_map, List.map_flatMap, ← List.map_drop,
    List.map_map, Function.comp_def, Prod.map, mul_traced, id]

theorem expand_traced (n : Namespaces K) (term : Term) :
    expand n.traced term = (expand n term).map Feature.traced := by
  match term with
  | [] | [_] | _ :: _ :: _ :: _ :: _ => rfl
  | [a, b] =>
    rw [expand, expand, n.features?_traced, n.features?_traced]
    match n.features? a, n.features? b with
    | some first, some second => exact pairs_traced _ first second
    | none, _ | some _, none => rfl
  | [a, b, c] =>
    rw [expand, expand, n.features?_traced, n.features?_traced, n.features?_traced]
    match n.features? a, n.features? b, n.features? c with
    | some first, some second, some third => exact triples_traced _ _ first second third
    | none, _, _ | some _, none, _ | some _, some _, none => rfl

end Interaction

/-- The features of an example, from whose values on divisors are remembered. -/
def Example.traced (ec : Example K) : Example (Traced K) :=
  { (.blank : Example (Traced K)) with namespaces := ec.namespaces.traced, offset := ec.offset }

theorem Example.visits_traced (ec : Example K) (terms : List Term) :
    ec.traced.visits terms = (ec.visits terms).map Feature.traced := by
  have hlist : ec.namespaces.traced.toList = ec.namespaces.toList.map Feature.traced := by
    change (ec.namespaces.entries.map _).flatMap Prod.snd = (ec.namespaces.entries.flatMap _).map _
    rw [List.flatMap_map, List.map_flatMap]
  have hproducts : ec.traced.products terms = (ec.products terms).map Feature.traced := by
    unfold products
    rw [List.map_flatMap]
    exact congrArg terms.flatMap (funext fun term => Interaction.expand_traced _ term)
  change (ec.namespaces.traced.toList ++ ec.traced.products terms).map _ = _
  rw [hlist, hproducts, ← List.map_append, List.map_map, visits, List.map_map]
  rfl

end

/-! ## Gradients that were met -/

section

variable {R W : Type} [Scalar R] [Number W] [Widening R W]

omit [Scalar R] in
theorem Mode.gradientChannel_eq (m : Mode) (g : Vector R m.width) :
    some (m.gradientChannel g) = g[2]? := by
  cases m <;> rfl

omit [Scalar R] in
theorem Mode.gradientChannel_map {S : Type} (m : Mode) (f : R → S) (g : Vector R m.width) :
    m.gradientChannel (g.map f) = f (m.gradientChannel g) := by
  cases m <;> exact Vector.getElem_map _ _

/-- A prediction meets no gradient. -/
theorem Mode.gradientChannel_refreshGroup (m : Mode) (p : Params R) (values : List R)
    (g : Vector R m.width) :
    m.gradientChannel (values.foldl (fun g x => m.refreshGroup p x g) g) = m.gradientChannel g := by
  have hkept := (m.statistics_refreshGroup p values g).2
  rwa [← m.gradientChannel_eq, ← m.gradientChannel_eq, Option.some.injEq] at hkept

namespace Optimizer

/-- The gradients that an index has met, summed up as its mode does. -/
def gradients (o : Optimizer R W) (i : UInt64) : R := o.mode.gradientChannel (o.weights.group i)

theorem gradients_learningPrediction (o : Optimizer R W) (weight : R) (visits : List (Feature R))
    (i : UInt64) : (o.learningPrediction weight visits).1.gradients i = o.gradients i := by
  have hgroup := o.mode.group_preview o.params o.weights visits i
  have hpreview : o.mode.gradientChannel ((o.mode.preview o.params o.weights visits).weights.group i) =
      o.gradients i := by
    rw [hgroup, Mode.gradientChannel_refreshGroup]
    rfl
  unfold learningPrediction
  dsimp only
  split
  · exact hpreview
  · exact hpreview

end Optimizer

end

variable {K : Type} [ExactNumber K]

/-- A step adds the square or the size of a gradient. -/
theorem Mode.gradientChannel_le_updateGroup (m : Mode) (p : Params K) (average x update : K)
    (g : Vector K m.width) :
    m.gradientChannel g ≤ m.gradientChannel (m.updateGroup p average x update g) := by
  cases m with
  | proximal => exact le_add_of_nonneg_right (mul_self_nonneg (update * x))
  | pistol => exact le_add_of_nonneg_right (abs_nonneg (update * x))
  | coinBetting => exact le_add_of_nonneg_right (abs_nonneg (update * x))

/-- The gradient that it adds is the update times the feature. -/
theorem Mode.gradientChannel_lt_updateGroup (m : Mode) (p : Params K) (average : K) {x update : K}
    (hgradient : update * x ≠ 0) (g : Vector K m.width) :
    m.gradientChannel g < m.gradientChannel (m.updateGroup p average x update g) := by
  cases m with
  | proximal => exact lt_add_of_pos_right _ (mul_self_pos.mpr hgradient)
  | pistol => exact lt_add_of_pos_right _ (abs_pos.mpr hgradient)
  | coinBetting => exact lt_add_of_pos_right _ (abs_pos.mpr hgradient)

namespace Optimizer

theorem gradients_le_step (o : Optimizer K K) (update : K) (visits : List (Feature K))
    (i : UInt64) : o.gradients i ≤ (o.step update visits).gradients i := by
  refine List.foldlRecOn (motive := fun t : WeightTable K o.mode.width =>
    o.gradients i ≤ o.mode.gradientChannel (t.group i)) visits _ le_rfl ?_
  intro t ht f _
  rw [WeightTable.group_modify]
  split
  · rename_i hsame
    rw [WeightTable.group_congr hsame]
    exact ht.trans (o.mode.gradientChannel_le_updateGroup _ _ _ _ _)
  · exact ht

/-- A step meets a gradient of every feature that it visits. -/
theorem gradients_lt_step {o : Optimizer K K} {update : K} {visits : List (Feature K)}
    {f : Feature K} (hf : f ∈ visits) (hgradient : update * f.value ≠ 0) :
    o.gradients f.index < (o.step update visits).gradients f.index := by
  induction visits generalizing o with
  | nil => cases hf
  | cons g rest ih =>
    change _ < ((o.step update [g]).step update rest).gradients f.index
    rcases List.mem_cons.mp hf with rfl | hf
    · let write := o.mode.updateGroup o.params o.averageSquaredNorm f.value update
      have hgroup : (o.weights.modify f.index write).group f.index = write (o.weights.group f.index) :=
        (WeightTable.group_modify _ _ _ _).trans (if_pos rfl)
      have hmet : o.gradients f.index < (o.step update [f]).gradients f.index :=
        (o.mode.gradientChannel_lt_updateGroup _ _ hgradient _).trans_eq
          (congrArg o.mode.gradientChannel hgroup).symm
      exact hmet.trans_le (gradients_le_step _ _ _ _)
    · exact (gradients_le_step o update [g] _).trans_lt (ih hf)

/-- A lesson takes no gradient back, also one that is refused. -/
theorem gradients_le_taught (context : Context K K) (o : Optimizer K K) (ec : Example K)
    (i : UInt64) : o.gradients i ≤ (taught context o ec).gradients i := by
  have hseen := o.gradients_learningPrediction ec.weight (ec.visits context.interactions) i
  unfold taught
  rw [runOn_learn]
  dsimp only
  split
  · exact hseen.ge
  · exact hseen.ge.trans (gradients_le_step _ _ _ _)

theorem gradients_le_after (o : Optimizer K K) (lessons : List (Lesson K K)) (i : UInt64) :
    o.gradients i ≤ (o.after lessons).gradients i := by
  refine List.foldlRecOn (motive := fun left : Optimizer K K => o.gradients i ≤ left.gradients i)
    lessons _ le_rfl ?_
  intro left hleft l _
  exact hleft.trans (gradients_le_taught l.context left l.ec i)

/-- A lesson leaves alone what the groups that it does not write to have met. -/
theorem gradients_taught_of_not_writes {context : Context K K} {o : Optimizer K K} {ec : Example K}
    {i : UInt64} (hi : ¬ Writes context o ec (i &&& o.weights.mask)) :
    (taught context o ec).gradients i = o.gradients i := by
  obtain ⟨t, _, _, _, heq, ht⟩ := taught_wroteTo context o ec
  rw [heq]
  exact congrArg o.mode.gradientChannel (ht.group_eq hi)

theorem gradients_new (m : Mode) (p : Params K) (bits : Nat) (layout : Layout) (patience : UInt32)
    (i : UInt64) : (new m p bits layout patience : Optimizer K K).gradients i = 0 := by
  change m.gradientChannel ((WeightTable.empty bits layout).group i) = 0
  rw [WeightTable.group_empty]
  cases m <;> simp [Mode.gradientChannel, WeightTable.zeroGroup, ExactNumber.ofNat_zero]

theorem dot_empty (width bits : Nat) (layout : Layout) (visits : List (Feature K)) :
    (WeightTable.empty bits layout : WeightTable K width).dot visits = 0 := by
  refine (foldl_add_eq_sum _ visits).trans (List.sum_eq_zero fun y hy => ?_)
  obtain ⟨f, -, rfl⟩ := List.mem_map.mp hy
  have hparam : (WeightTable.empty bits layout : WeightTable K width).param f.index = 0 := by
    unfold WeightTable.param
    rw [WeightTable.group_empty]
    cases width <;> simp [WeightTable.zeroGroup, ExactNumber.ofNat_zero]
  rw [hparam, mul_zero]

/-- The first lesson of proximal updates, of label one, meets a gradient of each of its features. -/
theorem gradients_pos_after_first (p : Params K) (bits : Nat) (layout : Layout) (patience : UInt32)
    {indices : List UInt64} {i : UInt64} (hi : i ∈ indices) :
    let start : Optimizer K K := .new .proximal p bits layout patience
    0 < (start.after [.ones indices]).gradients i := by
  intro start
  let l : Lesson K K := .ones indices
  have hlabel : l.ec.target? = some 1 := rfl
  have hvisits : l.ec.visits l.context.interactions = indices.map fun i => ⟨i, 1⟩ :=
    Example.visits_ones indices
  have hseen : start.learningPrediction 1 (indices.map fun i => ⟨i, 1⟩) = (start, 0) :=
    congrArg (start, ·) (dot_empty _ _ _ _)
  have hderivative : l.context.derivativeOf (publish l.context 0 l.ec).scalar 1 = -2 :=
    Lesson.derivativeOf_ones indices
  have hstep : start.after [l] = start.step (-2) (indices.map fun i => ⟨i, 1⟩) := by
    change taught l.context start l.ec = _
    rw [taught_of_label hlabel, hvisits, Lesson.weight_ones]
    dsimp only
    rw [hseen, hderivative, mul_one]
  rw [hstep]
  refine (gradients_new .proximal p bits layout patience i).symm.trans_lt ?_
  have hvisited : (⟨i, 1⟩ : Feature K) ∈ indices.map fun i => ⟨i, 1⟩ := List.mem_map_of_mem hi
  exact gradients_lt_step hvisited (by simp)

/-! ## Inverse rates -/

/-- What one more unit of gradient is divided by at a feature. -/
def inverseRate (o : Optimizer K K) (f : Feature K) : K :=
  Proximal.curvature o.params (Scalar.sqrt (o.gradients f.index))

end Optimizer

namespace Proximal

variable {p : Params K} {s : K}

theorem curvature_nonneg [ExactRoots K] (hp : p.Valid) (hs : 0 ≤ s) :
    0 ≤ curvature p (Scalar.sqrt s) ∧
      (curvature p (Scalar.sqrt s) = 0 ↔ p.beta = 0 ∧ s = 0 ∧ p.l2 = 0) := by
  have hroot : 0 ≤ Scalar.sqrt s ∧ (Scalar.sqrt s = 0 ↔ s = 0) := by
    rcases hs.eq_or_lt with rfl | hpos
    · simp [ExactRoots.sqrt_zero]
    · have hsqrt := PositiveRoots.sqrt_pos hpos
      exact ⟨hsqrt.le, iff_of_false hsqrt.ne' hpos.ne'⟩
  have hsum := add_nonneg hp.beta hroot.1
  have hrate : 0 ≤ (p.beta + Scalar.sqrt s) / p.alpha := div_nonneg hsum hp.alpha.le
  refine ⟨add_nonneg hrate hp.l2, ?_⟩
  calc curvature p (Scalar.sqrt s) = 0
      ↔ (p.beta + Scalar.sqrt s) / p.alpha = 0 ∧ p.l2 = 0 := add_eq_zero_iff_of_nonneg hrate hp.l2
    _ ↔ (p.beta = 0 ∧ Scalar.sqrt s = 0) ∧ p.l2 = 0 := by
      rw [div_eq_zero_iff, or_iff_left hp.alpha.ne', add_eq_zero_iff_of_nonneg hp.beta hroot.1]
    _ ↔ p.beta = 0 ∧ s = 0 ∧ p.l2 = 0 := by rw [hroot.2, and_assoc]

end Proximal

theorem sensitivityTerm_eq (p : Params K) (s x : K) :
    sensitivityTerm p s x = SignType.sign x / Proximal.curvature p (Scalar.sqrt s) := by
  unfold sensitivityTerm
  rw [ExactNumber.sign_eq]
  rfl

/-- A sign over something positive is still that sign. -/
theorem sign_sign_div {x d : K} (hd : 0 < d) :
    SignType.sign ((SignType.sign x : K) / d) = SignType.sign x := by
  rcases lt_trichotomy x 0 with hneg | rfl | hpos
  · rw [sign_neg hneg, SignType.coe_neg_one]
    exact sign_neg (div_neg_of_neg_of_pos neg_one_lt_zero hd)
  · rw [sign_zero, SignType.coe_zero, zero_div, sign_zero]
  · rw [sign_pos hpos, SignType.coe_one]
    exact sign_pos (div_pos one_pos hd)

namespace Optimizer

theorem sensitivity_eq_sum (o : Optimizer K K) (context : Context K K) (ec : Example K) :
    o.sensitivity context ec =
      ((ec.visits context.interactions).map fun f =>
        (SignType.sign f.value / o.inverseRate f : K)).sum := by
  refine (foldl_add_eq_sum _ _).trans (congrArg List.sum (List.map_congr_left fun f _ => ?_))
  exact sensitivityTerm_eq _ _ _

/-! ## Divisors -/

/-- What is divided by on the way to the sensitivity to an example. -/
def sensitivityDivisors (o : Optimizer K K) (context : Context K K) (ec : Example K) : List K :=
  let traced : Context (Traced K) (Traced K) :=
    { Context.initial context.loss with interactions := context.interactions }
  (o.traced.sensitivity traced ec.traced).divisors

theorem gradients_traced (o : Optimizer K K) (i : UInt64) :
    o.traced.gradients i = plain (o.gradients i) := by
  change o.mode.gradientChannel (o.weights.traced.group i) = _
  rw [WeightTable.group_traced]
  exact o.mode.gradientChannel_map plain _

theorem divisors_sensitivityTerm (p : Params K) (s x : K) :
    (sensitivityTerm p.traced (plain s) (plain x)).divisors =
      [p.alpha, Proximal.curvature p (Scalar.sqrt s)] := by
  have hsign : (Scalar.sign (plain x)).divisors = [] := by
    unfold Scalar.sign
    split
    · rfl
    · split <;> rfl
  change (Scalar.sign (plain x)).divisors ++ _ ++ _ = _
  rw [hsign]
  rfl

/-- Each feature is divided for twice, by the learning rate and by its inverse rate. -/
theorem sensitivityDivisors_eq (o : Optimizer K K) (context : Context K K) (ec : Example K) :
    o.sensitivityDivisors context ec =
      (ec.visits context.interactions).flatMap fun f => [o.params.alpha, o.inverseRate f] := by
  have hrun (sum : Traced K) (visits : List (Feature K)) :
      (visits.foldl (fun sum f => sum + sensitivityTerm o.params.traced
        (o.traced.gradients f.index) (plain f.value)) sum).divisors =
        sum.divisors ++ visits.flatMap fun f => [o.params.alpha, o.inverseRate f] := by
    induction visits generalizing sum with
    | nil => exact (List.append_nil _).symm
    | cons f rest ih =>
      have hterm := divisors_sensitivityTerm o.params (o.gradients f.index) f.value
      rw [List.foldl_cons, ih, List.flatMap_cons, ← List.append_assoc, gradients_traced]
      exact congrArg (sum.divisors ++ · ++ _) hterm
  unfold sensitivityDivisors sensitivity
  dsimp only
  rw [Example.visits_traced, List.foldl_map]
  exact hrun _ _

end Optimizer

/-! ## Configurations -/

namespace Config

variable {R W : Type} [Scalar R] [Number W]

/-- A valid configuration has the optimizer of its mode and of its rates. -/
theorem exists_newOptimizer {c : Config R} (hvalid : c.validate = .ok ()) :
    ∃ mode p bits layout patience, c.optimizer.params = .ok p ∧
      c.newOptimizer = .ok (Optimizer.new mode p bits layout patience : Optimizer R W) := by
  obtain ⟨p, hparams, -⟩ := (validate_iff_checked.mp hvalid).optimizer.rates
  obtain ⟨mode, hmode, -⟩ := bind_eq_ok.mp hparams
  refine ⟨mode, p, c.weights.bits.toNat, Parts.layout c, c.run.earlyTerminate, hparams, ?_⟩
  unfold newOptimizer
  rw [hmode, hparams]
  rfl

end Config

/-- An example with one feature, of value zero. -/
def Example.flat : Example K :=
  { (.blank : Example K) with namespaces := Namespaces.push ∅ 97 ⟨1, 0⟩ }

namespace Optimizer

variable {o : Optimizer K K}

/-- What is needed of an optimizer for its divisors not to be negative. -/
theorem inverseRate_nonneg [ExactRoots K] (hp : o.params.Valid) (hmet : ∀ i, 0 ≤ o.gradients i)
    (f : Feature K) : 0 ≤ o.inverseRate f :=
  (Proximal.curvature_nonneg hp (hmet f.index)).1

theorem inverseRate_pos_iff [ExactRoots K] (hp : o.params.Valid) (hmet : ∀ i, 0 ≤ o.gradients i)
    (f : Feature K) :
    0 < o.inverseRate f ↔ 0 < o.params.beta ∨ 0 < o.params.l2 ∨ 0 < o.gradients f.index := by
  obtain ⟨hnonneg, hzero⟩ := Proximal.curvature_nonneg hp (hmet f.index)
  unfold inverseRate
  rw [hnonneg.lt_iff_ne', ne_eq, hzero, hp.beta.lt_iff_ne', hp.l2.lt_iff_ne',
    (hmet f.index).lt_iff_ne']
  tauto

theorem mem_sensitivityDivisors {context : Context K K} {ec : Example K} {d : K} :
    d ∈ o.sensitivityDivisors context ec ↔
      ∃ f ∈ ec.visits context.interactions, d = o.params.alpha ∨ d = o.inverseRate f := by
  simp [sensitivityDivisors_eq]

/-- All divisors are positive if the inverse rates are. -/
theorem sensitivityDivisors_pos_iff [ExactRoots K] (hp : o.params.Valid)
    (hmet : ∀ i, 0 ≤ o.gradients i) (context : Context K K) (ec : Example K) :
    (∀ d ∈ o.sensitivityDivisors context ec, 0 < d) ↔ 0 < o.params.beta ∨ 0 < o.params.l2 ∨
      ∀ f ∈ ec.visits context.interactions, 0 < o.gradients f.index := by
  have hrates : (∀ d ∈ o.sensitivityDivisors context ec, 0 < d) ↔
      ∀ f ∈ ec.visits context.interactions, 0 < o.inverseRate f := by
    constructor
    · exact fun h f hf => h _ (mem_sensitivityDivisors.mpr ⟨f, hf, .inr rfl⟩)
    · intro h d hd
      obtain ⟨f, hf, rfl | rfl⟩ := mem_sensitivityDivisors.mp hd
      · exact hp.alpha
      · exact h f hf
  rw [hrates]
  simp only [inverseRate_pos_iff hp hmet]
  by_cases hbeta : 0 < o.params.beta
  · simp [hbeta]
  · by_cases hl2 : 0 < o.params.l2
    · simp [hl2]
    · simp [hbeta, hl2]

/-- In exact arithmetic a valid configuration leads to an optimizer of which, whatever lessons it was
given, the sensitivity to an example adds up the signs of the features over their inverse rates, and
divides by these and by the learning rate only. None of the divisors is negative. All of them are
positive exactly if the configuration smooths, or penalizes squares, or all features of the example
have met a gradient. A feature for which one of this holds contributes a number of the sign of its
value. -/
theorem sensitivity_terms [ExactRoots K] {c : Config K} (hvalid : c.validate = .ok ()) :
    ∃ start : Optimizer K K, c.newOptimizer = .ok start ∧ c.optimizer.params = .ok start.params ∧
      ∀ (lessons : List (Lesson K K)) (context : Context K K) (ec : Example K),
        let o := start.after lessons
        let visits := ec.visits context.interactions
        let term (f : Feature K) : K := sensitivityTerm start.params (o.gradients f.index) f.value
        o.sensitivity context ec = (visits.map term).sum ∧
        o.sensitivityDivisors context ec =
          visits.flatMap (fun f => [start.params.alpha, o.inverseRate f]) ∧
        (∀ d ∈ o.sensitivityDivisors context ec, 0 ≤ d) ∧
        ((∀ d ∈ o.sensitivityDivisors context ec, 0 < d) ↔
          0 < start.params.beta ∨ 0 < start.params.l2 ∨ ∀ f ∈ visits, 0 < o.gradients f.index) ∧
        ∀ f : Feature K,
          (0 < o.inverseRate f ↔
            0 < start.params.beta ∨ 0 < start.params.l2 ∨ 0 < o.gradients f.index) ∧
          (0 < o.inverseRate f → term f = SignType.sign f.value / o.inverseRate f ∧
            SignType.sign (term f) = SignType.sign f.value) := by
  obtain ⟨mode, p, bits, layout, patience, hrates, hnew⟩ := Config.exists_newOptimizer (W := K) hvalid
  have hp : p.Valid := Config.valid_params hvalid hrates
  refine ⟨_, hnew, hrates, fun lessons context ec => ?_⟩
  intro o visits term
  have hparams : o.params = p := params_after _ lessons
  have hvalid : o.params.Valid := hparams ▸ hp
  have hmet (i : UInt64) : 0 ≤ o.gradients i :=
    (gradients_new mode p bits layout patience i).ge.trans (gradients_le_after _ lessons i)
  have hrate (f : Feature K) := inverseRate_pos_iff hvalid hmet f
  have hterm (f : Feature K) : term f = SignType.sign f.value / o.inverseRate f := by
    unfold term inverseRate
    rw [hparams]
    exact sensitivityTerm_eq p _ _
  refine ⟨?_, ?_, ?_, ?_, fun f => ⟨?_, fun hpos => ⟨hterm f, ?_⟩⟩⟩
  · rw [sensitivity_eq_sum, funext hterm]
  · rw [sensitivityDivisors_eq, hparams]
    rfl
  · intro d hd
    obtain ⟨f, -, rfl | rfl⟩ := mem_sensitivityDivisors.mp hd
    · exact hvalid.alpha.le
    · exact inverseRate_nonneg hvalid hmet f
  · rw [sensitivityDivisors_pos_iff hvalid hmet, hparams]
    rfl
  · rw [hrate, hparams]
    rfl
  · rw [hterm, sign_sign_div hpos]

/-- Without smoothing and penalty, and after a lesson on index 1, a feature of this index divides by a
positive number and contributes one of the sign of its value; one of index 2 divides by zero. -/
theorem sensitivity_terms_unsmoothed :
    let context : Context ℝ ℝ := .initial .squared
    (Config.unsmoothed : Config ℝ).validate = .ok () ∧
      ∃ start : Optimizer ℝ ℝ, (Config.unsmoothed : Config ℝ).newOptimizer = .ok start ∧
        start.params = ⟨1, 0, 0, 0⟩ ∧
        let o := start.after [.ones [1]]
        0 < o.gradients 1 ∧ o.gradients 2 = 0 ∧
          (∀ d ∈ o.sensitivityDivisors context (.ones [1]), 0 < d) ∧
          (∀ x : ℝ, SignType.sign (sensitivityTerm start.params (o.gradients 1) x) =
            SignType.sign x) ∧
          ¬ ∀ d ∈ o.sensitivityDivisors context (.ones [1, 2]), 0 < d := by
  intro context
  have hvalid : (Config.unsmoothed : Config ℝ).validate = .ok () := Config.validate_unsmoothed
  obtain ⟨start, hnew, -, hruns⟩ := sensitivity_terms hvalid
  obtain rfl : Optimizer.new .proximal ⟨1, 0, 0, 0⟩ 18 .dense 3 = start := Except.ok.inj hnew
  let start : Optimizer ℝ ℝ := .new .proximal ⟨1, 0, 0, 0⟩ 18 .dense 3
  let o := start.after [.ones [1]]
  have hmet : 0 < o.gradients 1 :=
    gradients_pos_after_first _ 18 .dense 3 (List.mem_singleton_self _)
  have hspared : o.gradients 2 = 0 := by
    refine (gradients_taught_of_not_writes fun hwrites => ?_).trans (gradients_new _ _ _ _ _ 2)
    obtain ⟨j, hj, heq⟩ := (writes_ones start [1] _).mp hwrites
    obtain rfl := List.mem_singleton.mp hj
    have hapart : ¬ 1 &&& indexMask 18 = 2 &&& indexMask 18 := by decide
    exact hapart heq
  have hvisits (indices : List UInt64) : (Example.ones indices).visits context.interactions =
      indices.map fun i => ⟨i, (1 : ℝ)⟩ := Example.visits_ones indices
  refine ⟨hvalid, start, rfl, rfl, hmet, hspared, ?_, fun x => ?_, fun hpos => ?_⟩
  · obtain ⟨-, -, -, hpos, -⟩ := hruns [.ones [1]] context (.ones [1])
    refine hpos.mpr (.inr (.inr fun f hf => ?_))
    rw [hvisits] at hf
    obtain rfl := List.mem_singleton.mp hf
    exact hmet
  · obtain ⟨-, -, -, -, hterms⟩ := hruns [.ones [1]] context (.ones [1])
    obtain ⟨hrate, hterm⟩ := hterms ⟨1, x⟩
    exact (hterm (hrate.mpr (.inr (.inr hmet)))).2
  · obtain ⟨-, -, -, hiff, -⟩ := hruns [.ones [1]] context (.ones [1, 2])
    rcases hiff.mp hpos with hbeta | hl2 | hall
    · exact lt_irrefl _ hbeta
    · exact lt_irrefl _ hl2
    · rw [hvisits] at hall
      exact (hall ⟨2, 1⟩ (by simp)).ne' hspared

/-- Without smoothing and penalty a feature that was never learned divides by zero. -/
theorem not_sensitivity_finite :
    ¬ ∀ (c : Config ℝ) (start : Optimizer ℝ ℝ), c.validate = .ok () → c.newOptimizer = .ok start →
      ∀ (lessons : List (Lesson ℝ ℝ)) (context : Context ℝ ℝ) (ec : Example ℝ),
        ∀ d ∈ (start.after lessons).sensitivityDivisors context ec, 0 < d := by
  intro h
  let start : Optimizer ℝ ℝ := .new .proximal ⟨1, 0, 0, 0⟩ 18 .dense 3
  let context : Context ℝ ℝ := .initial .squared
  have hvalid : start.params.Valid := ⟨one_pos, le_rfl, le_rfl, le_rfl⟩
  have hunmet (i : UInt64) : start.gradients i = 0 := gradients_new _ _ _ _ _ i
  have hvisits : (Example.flat : Example ℝ).visits context.interactions = [⟨1, 0⟩] := rfl
  have hpos := (sensitivityDivisors_pos_iff hvalid (fun i => (hunmet i).ge) context .flat).mp
    (h .unsmoothed start Config.validate_unsmoothed rfl [] context .flat)
  rw [hvisits, List.forall_mem_singleton, hunmet] at hpos
  exact hpos.elim (lt_irrefl _) (Or.elim · (lt_irrefl _) (lt_irrefl _))

/-- Rounding does not save the term: it is no number. -/
example :
    let o : Optimizer Float32 Float := .new .proximal ⟨1, 0, 0, 0⟩ 4 .sparse 3
    (o.sensitivity (.initial .squared) (oneFeature 1 0)).isNaN = true := by
  decide +kernel

end Optimizer

end OnlineLearning
