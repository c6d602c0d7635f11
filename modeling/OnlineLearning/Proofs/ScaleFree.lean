import Mathlib.Tactic.FieldSimp
import OnlineLearning.Proofs.AlikeNodes
import OnlineLearning.Proofs.Exact
import OnlineLearning.Proofs.WorkspaceCalls

/-!
# Coin betting without a scale

Coin betting does not notice the scale of a feature: in exact numbers a run on rescaled features is
the rescaled run. A scale is given for every index, and none of them is zero.

* `Coin.rescale`, `WeightTable.rescale` and `Example.rescale`: bets, tables and examples on another
  scale;
* `Coin.raw_rescale`, `Coin.normalizedSq_rescale` and `Coin.update_rescale`: what one feature adds
  to a prediction, and one step on it;
* `LineLearner.ScaleFree`: learners whose calls on rescaled features are their calls, rescaled;
* `Line.serve_scaleFree`: what a run on rescaled features predicts, loses and leaves.
-/

namespace OnlineLearning

variable {K : Type} [ExactNumber K]

/-! ## One feature -/

namespace Coin

/-- The channels of a feature whose values are `c` times as large. -/
def rescale (c : K) (w : Coin K) : Coin K where
  param := w.param / c
  negGradSum := c * w.negGradSum
  sumAbsGrad := |c| * w.sumAbsGrad
  maxAbsX := |c| * w.maxAbsX
  wealth := w.wealth
  maxGrad := w.maxGrad

variable {c : K}

theorem widened_rescale (c : K) (w : Coin K) (x : K) :
    (w.rescale c).widened (c * x) = |c| * w.widened x := by
  unfold widened
  rw [ExactNumber.maxNum_eq, ExactNumber.maxNum_eq, ExactNumber.abs_eq, ExactNumber.abs_eq, abs_mul]
  exact (mul_max_of_nonneg _ _ (abs_nonneg c)).symm

/-- A bet shrinks as the values of its feature grow. -/
theorem bet_rescale (hc : c ≠ 0) (p : Params K) (w : Coin K) (size : K) :
    bet p (w.rescale c) (|c| * size) = bet p w size / c := by
  have hscale : w.maxGrad * (|c| * size) = |c| * (w.maxGrad * size) := mul_left_comm _ _ _
  have hpos : 0 < |c| * (w.maxGrad * size) ↔ 0 < w.maxGrad * size :=
    mul_pos_iff_of_pos_left (abs_pos.mpr hc)
  have hsquare : |c| * |c| = c * c := abs_mul_abs_self c
  simp only [bet, rescale, hscale, ExactNumber.ofNat_eq, Nat.cast_zero, hpos]
  split
  · have hden : |c| * (w.maxGrad * size) * (|c| * (w.maxGrad * size) + |c| * w.sumAbsGrad) =
        c * c * (w.maxGrad * size * (w.maxGrad * size + w.sumAbsGrad)) := by
      rw [← hsquare]
      ring
    rw [hden]
    field_simp
  · exact (zero_div c).symm

theorem raw_rescale (hc : c ≠ 0) (p : Params K) (w : Coin K) (x : K) :
    raw p (w.rescale c) (c * x) = raw p w x := by
  unfold raw
  rw [widened_rescale, bet_rescale hc]
  field_simp

theorem normalizedSq_rescale (hc : c ≠ 0) (w : Coin K) (x : K) :
    normalizedSq (w.rescale c) (c * x) = normalizedSq w x := by
  have hpos : 0 < |c| * w.widened x ↔ 0 < w.widened x := mul_pos_iff_of_pos_left (abs_pos.mpr hc)
  have hsquare : |c| * |c| = c * c := abs_mul_abs_self c
  simp only [normalizedSq, widened_rescale, ExactNumber.ofNat_eq, Nat.cast_zero, hpos]
  split
  · rw [div_mul_div_comm, div_mul_div_comm, mul_mul_mul_comm, mul_mul_mul_comm |c|, hsquare,
      mul_div_mul_left _ _ (mul_ne_zero hc hc)]
  · rfl

/-- The channels after the bet under them is settled against a gradient `g`. -/
def settle (p : Params K) (w : Coin K) (g : K) : Coin K :=
  { w with
    negGradSum := w.negGradSum - g
    sumAbsGrad := w.sumAbsGrad + Scalar.abs g
    wealth := w.wealth - g * bet p w w.maxAbsX }

theorem settle_rescale (hc : c ≠ 0) (p : Params K) (w : Coin K) (g : K) :
    settle p (w.rescale c) (c * g) = (settle p w g).rescale c := by
  have hsize : |c| * w.sumAbsGrad + |c * g| = |c| * (w.sumAbsGrad + |g|) := by
    rw [abs_mul, mul_add]
  have hgain : c * g * (bet p w w.maxAbsX / c) = g * bet p w w.maxAbsX := by field_simp
  have hbet : bet p (w.rescale c) (w.rescale c).maxAbsX = bet p w w.maxAbsX / c :=
    bet_rescale hc p w w.maxAbsX
  unfold settle
  rw [hbet, hgain, ExactNumber.abs_eq, ExactNumber.abs_eq]
  simp only [rescale, hsize, ← mul_sub]

theorem widen_rescale (c : K) (p : Params K) (w : Coin K) (x update : K) :
    widen p (w.rescale c) (c * x) update = (widen p w x update).rescale c := by
  unfold widen
  rw [widened_rescale]
  rfl

theorem update_eq (p : Params K) (average : K) (w : Coin K) (x update : K) :
    w.update p average x update =
      let settled := settle p (widen p w x update) (update * x)
      { settled with param := bet p settled settled.maxAbsX / average } := rfl

/-- A step on a rescaled feature is the step on the feature, rescaled. -/
theorem update_rescale (hc : c ≠ 0) (p : Params K) (average : K) (w : Coin K) (x update : K) :
    (w.rescale c).update p average (c * x) update = (w.update p average x update).rescale c := by
  have hbet (w : Coin K) : bet p (w.rescale c) (w.rescale c).maxAbsX / average =
      bet p w w.maxAbsX / average / c := by
    rw [div_right_comm]
    exact congrArg (· / average) (bet_rescale hc p w w.maxAbsX)
  rw [update_eq, update_eq, widen_rescale, mul_left_comm, settle_rescale hc]
  dsimp only
  rw [hbet]
  rfl

end Coin

/-! ## Tables and examples -/

namespace WeightTable

/-- A table for features that are `c index` times as large. -/
def rescale (c : UInt64 → K) (t : WeightTable K 6) : WeightTable K 6 :=
  { t with
    groups := t.groups.map fun index g => ((Coin.load g).rescale (c index)).channels
    masked := fun index h => t.masked index (Std.ExtTreeMap.mem_of_mem_map h) }

variable {c : UInt64 → K}

theorem load_group_rescale (c : UInt64 → K) (t : WeightTable K 6) (index : UInt64) :
    Coin.load ((t.rescale c).group index) =
      (Coin.load (t.group index)).rescale (c (index &&& t.mask)) := by
  unfold group rescale
  dsimp only
  rw [Std.ExtTreeMap.getD_map, Std.ExtTreeMap.getD_eq_getD_getElem?]
  cases t.groups[index &&& t.mask]? with
  | none => simp [zeroGroup, Coin.load, Coin.rescale, ExactNumber.ofNat_eq]
  | some g => rfl

theorem rescale_setGroup (c : UInt64 → K) (t : WeightTable K 6) (index : UInt64) (w : Coin K) :
    (t.setGroup index w.channels).rescale c =
      (t.rescale c).setGroup index (w.rescale (c (index &&& t.mask))).channels := by
  have hgroups : (t.groups.insert (index &&& t.mask) w.channels).map
        (fun index g => ((Coin.load g).rescale (c index)).channels) =
      (t.groups.map fun index g => ((Coin.load g).rescale (c index)).channels).insert
        (index &&& t.mask) (w.rescale (c (index &&& t.mask))).channels := by
    refine Std.ExtTreeMap.ext_getElem? fun held => ?_
    rw [Std.ExtTreeMap.getElem?_map, Std.ExtTreeMap.getElem?_insert, Std.ExtTreeMap.getElem?_insert,
      Std.ExtTreeMap.getElem?_map]
    split
    · rename_i heq
      rw [Std.LawfulEqCmp.eq_of_compare heq]
      rfl
    · rfl
  unfold rescale setGroup
  congr 1

end WeightTable

/-- A feature whose value is as many times as large as its index says. -/
def Feature.rescale (mask : UInt64) (c : UInt64 → K) (f : Feature K) : Feature K :=
  { f with value := c (f.index &&& mask) * f.value }

/-- All features changed where they are. -/
def Namespaces.mapFeatures {R : Type} (change : Feature R → Feature R) (n : Namespaces R) :
    Namespaces R where
  entries := n.entries.map fun e => (e.1, e.2.map change)
  distinct := by
    rw [List.map_map]
    exact n.distinct

theorem Namespaces.toList_mapFeatures {R : Type} (change : Feature R → Feature R)
    (n : Namespaces R) : (n.mapFeatures change).toList = n.toList.map change := by
  unfold toList mapFeatures
  rw [List.flatMap_map, List.map_flatMap]

/-- An example whose features are rescaled under the indices that they are seen at. -/
def Example.rescale (mask : UInt64) (c : UInt64 → K) (ec : Example K) : Example K :=
  { ec with
    namespaces := ec.namespaces.mapFeatures fun f =>
      { f with value := c ((f.shift ec.offset).index &&& mask) * f.value } }

theorem Example.visits_rescale (mask : UInt64) (c : UInt64 → K) (ec : Example K) :
    (ec.rescale mask c).visits [] = (ec.visits []).map (Feature.rescale mask c) := by
  unfold visits
  rw [products, products, List.flatMap_nil, List.flatMap_nil, List.append_nil, List.append_nil,
    List.map_map]
  unfold rescale
  rw [Namespaces.toList_mapFeatures, List.map_map]
  rfl

/-! ## Predictions and steps -/

section

variable {mask : UInt64} {c : UInt64 → K} {t : WeightTable K 6}

theorem WeightTable.param_eq (t : WeightTable K 6) (index : UInt64) :
    t.param index = (Coin.load (t.group index)).param := by
  unfold param Coin.load
  rw [Vector.getElem?_eq_getElem (by decide)]
  rfl

theorem WeightTable.dot_rescale (hc : ∀ index, c index ≠ 0) (ht : t.mask = mask)
    (visits : List (Feature K)) :
    (t.rescale c).dot (visits.map (Feature.rescale mask c)) = t.dot visits := by
  unfold dot
  rw [List.foldl_map]
  congr 1
  funext sum f
  have hterm : c (f.index &&& mask) * f.value *
      ((Coin.load (t.group f.index)).param / c (f.index &&& mask)) =
        f.value * (Coin.load (t.group f.index)).param := by
    have := hc (f.index &&& mask)
    field_simp
  rw [param_eq, param_eq]
  unfold Feature.rescale
  dsimp only
  rw [load_group_rescale, ht]
  exact congrArg (sum + ·) hterm

theorem Coin.rawSum_rescale (hc : ∀ index, c index ≠ 0) (ht : t.mask = mask) (p : Params K)
    (visits : List (Feature K)) :
    rawSum p (t.rescale c) (visits.map (Feature.rescale mask c)) = rawSum p t visits := by
  unfold rawSum
  rw [List.foldl_map]
  congr 1
  funext sum f
  unfold Feature.rescale
  dsimp only
  rw [WeightTable.load_group_rescale, ht, raw_rescale (hc _)]

theorem Coin.normSum_rescale (hc : ∀ index, c index ≠ 0) (ht : t.mask = mask)
    (visits : List (Feature K)) :
    normSum (t.rescale c) (visits.map (Feature.rescale mask c)) = normSum t visits := by
  unfold normSum
  rw [List.foldl_map]
  congr 1
  funext sum f
  unfold Feature.rescale
  dsimp only
  rw [WeightTable.load_group_rescale, ht, normalizedSq_rescale (hc _)]

/-- The steps on all rescaled features are those on the features, rescaled. -/
theorem Coin.steps_rescale (hc : ∀ index, c index ≠ 0) (ht : t.mask = mask) (p : Params K)
    (average update : K) (visits : List (Feature K)) :
    let stepOn (t : WeightTable K 6) (f : Feature K) :=
      t.modify f.index (Mode.coinBetting.updateGroup p average f.value update)
    (visits.map (Feature.rescale mask c)).foldl stepOn (t.rescale c) =
        (visits.foldl stepOn t).rescale c ∧ (visits.foldl stepOn t).mask = mask := by
  intro stepOn
  induction visits generalizing t with
  | nil => exact ⟨rfl, ht⟩
  | cons f rest ih =>
    have hstep : stepOn (t.rescale c) (f.rescale mask c) = (stepOn t f).rescale c := by
      unfold stepOn WeightTable.modify Mode.updateGroup Feature.rescale
      dsimp only
      rw [WeightTable.load_group_rescale, ht, update_rescale (hc _), WeightTable.rescale_setGroup,
        ht]
    rw [List.map_cons, List.foldl_cons, List.foldl_cons, hstep]
    exact ih ht

end

/-! ## Calls -/

/-- An optimizer with coins, and the one with all its coins rescaled. -/
inductive Optimizer.Rescaled (mask : UInt64) (c : UInt64 → K) :
    Optimizer K K → Optimizer K K → Prop
  | intro {p t stalls patience size weight norms average} (ht : t.mask = mask) :
    Rescaled mask c ⟨.coinBetting, p, t, stalls, patience, size, weight, norms, average⟩
      ⟨.coinBetting, p, t.rescale c, stalls, patience, size, weight, norms, average⟩

/-- Contexts without interactions. -/
def ContextRel.plain : ContextRel K K :=
  within (fun c => c.interactions = []) (fun c label h => by
    unfold Context.coverLabel
    split
    · exact h
    · exact h) fun _ _ _ _ _ h => h

/-- Frames that differ in the scale of features. -/
abbrev Frame.Rescaled (mask : UInt64) (c : UInt64 → K) :
    Frame K K (Optimizer K K) (Example K) → Frame K K (Optimizer K K) (Example K) → Prop :=
  Agree (Optimizer.Rescaled mask c) .plain fun ec ec' => ec' = ec.rescale mask c

/-- A learner whose calls on rescaled features are its calls, rescaled. -/
structure LineLearner.ScaleFree (mask : UInt64) (c : UInt64 → K)
    (l : LineLearner K K (Optimizer K K)) : Prop where
  predict : NodeM.Alike (Frame.Rescaled mask c) (Frame.Rescaled mask c) l.predict l.predict
  learn : NodeM.Alike (Frame.Rescaled mask c) (Frame.Rescaled mask c) l.learn l.learn

section

variable {mask : UInt64} {c : UInt64 → K} {f f' : Frame K K (Optimizer K K) (Example K)}

open NodeM (Alike)

theorem Frame.Rescaled.visits (h : Rescaled mask c f f') :
    f'.input.visits f'.context.interactions =
      (f.input.visits f.context.interactions).map (Feature.rescale mask c) := by
  obtain ⟨hcontext, hplain⟩ := h.context
  rw [hcontext, h.input, hplain]
  exact Example.visits_rescale mask c f.input

namespace Optimizer

variable {o o' : Optimizer K K}

theorem Rescaled.name (h : Rescaled mask c o o') : o'.name = o.name := by
  cases h with
  | intro _ => rfl

theorem Rescaled.dot (hc : ∀ index, c index ≠ 0) (h : Rescaled mask c o o')
    (visits : List (Feature K)) :
    o'.weights.dot (visits.map (Feature.rescale mask c)) = o.weights.dot visits := by
  cases h with
  | intro ht => exact WeightTable.dot_rescale hc ht visits

theorem Rescaled.learningPrediction (hc : ∀ index, c index ≠ 0) (h : Rescaled mask c o o')
    (weight : K) (visits : List (Feature K)) :
    Rescaled mask c (o.learningPrediction weight visits).1
        (o'.learningPrediction weight (visits.map (Feature.rescale mask c))).1 ∧
      (o'.learningPrediction weight (visits.map (Feature.rescale mask c))).2 =
        (o.learningPrediction weight visits).2 := by
  cases h with
  | intro ht =>
    unfold Optimizer.learningPrediction
    dsimp only [Mode.preview]
    rw [Coin.rawSum_rescale hc ht, Coin.normSum_rescale hc ht]
    exact ⟨.intro ht, rfl⟩

theorem Rescaled.step (hc : ∀ index, c index ≠ 0) (h : Rescaled mask c o o') (update : K)
    (visits : List (Feature K)) :
    Rescaled mask c (o.step update visits)
      (o'.step update (visits.map (Feature.rescale mask c))) := by
  cases h with
  | @intro p t _ _ _ _ _ average ht =>
    obtain ⟨hsteps, hmask⟩ := Coin.steps_rescale hc ht p average update visits
    unfold Optimizer.step
    dsimp only at hsteps ⊢
    rw [hsteps]
    exact .intro hmask

theorem publish_rescaled (h : Frame.Rescaled mask c f f') (ho : Rescaled mask c o o') (raw : K) :
    Frame.Rescaled mask c ⟨o, f.context, publish f.context raw f.input⟩
      ⟨o', f'.context, publish f'.context raw f'.input⟩ := by
  refine ⟨ho, h.context, ?_⟩
  obtain ⟨hcontext, hplain⟩ := h.context
  rw [hcontext, h.input]
  unfold publish
  rw [hplain]
  rfl

theorem update_scaleFree (hc : ∀ index, c index ≠ 0) :
    Alike (Frame.Rescaled mask c) (Frame.Rescaled mask c) update update := by
  refine Alike.read_bind fun f f' h => ?_
  have htarget : f'.input.target? = f.input.target? := by
    rw [h.input]
    rfl
  have hupdate (label : K) : f'.context.derivativeOf f'.input.scalar label * f'.input.weight =
      f.context.derivativeOf f.input.scalar label * f.input.weight := by
    rw [h.context.1, h.input]
    rfl
  dsimp only
  rw [htarget, h.node.name]
  cases f.input.target? with
  | none => exact Alike.of_throw _ fun _ _ hg => hg
  | some label =>
    dsimp only
    rw [hupdate, h.visits]
    exact fun _ _ _ => ⟨rfl, h.node.step hc _ _, h.context, h.input⟩

/-- The optimizer does not notice the scale of features. -/
theorem learner_scaleFree (hc : ∀ index, c index ≠ 0) :
    (learner : LineLearner K K _).ScaleFree mask c := by
  refine ⟨Alike.of_modify fun f f' h => ?_,
    Alike.bind (Alike.of_modify fun f f' h => ?_) fun _ => update_scaleFree hc⟩
  · rw [h.visits, h.node.dot hc]
    exact publish_rescaled h h.node _
  · obtain ⟨hnode, hraw⟩ := h.node.learningPrediction hc f.input.weight
      (f.input.visits f.context.interactions)
    have hweight : f'.input.weight = f.input.weight := by
      rw [h.input]
      rfl
    rw [h.visits, hweight]
    dsimp only
    rw [hraw]
    exact publish_rescaled h hnode _

end Optimizer

theorem Scorer.sees_rescale :
    Sees fun ec ec' : Example K => ec' = ec.rescale mask c where
  label h := h ▸ rfl
  weight h := h ▸ rfl
  scalar h := h ▸ rfl
  loss _ h := h ▸ rfl
  prediction _ h := h ▸ rfl

theorem Line.learner_scaleFree (hc : ∀ index, c index ≠ 0) (l : Line) :
    (l.learner : LineLearner K K _).ScaleFree mask c := by
  unfold Line.learner
  induction l.links with
  | nil => exact Optimizer.learner_scaleFree hc
  | cons link rest ih =>
    refine ⟨Scorer.predict_alike Scorer.sees_rescale ih.predict link,
      Scorer.learn_alike Scorer.sees_rescale (fun h => h ▸ rfl) ih.predict ?_ link⟩
    exact ih.learn.weaken (fun _ _ h => h.1) fun _ _ h => h

end

/-! ## Runs -/

/-- A run of calls on single examples, each of which learns or only predicts. Lists the outcomes
with what became of the examples, and returns what is left. -/
def Line.serve {R W : Type} [Scalar R] [Number W] [Widening R W] (l : Line) :
    Optimizer R W → Context R W → List (Bool × Example R) →
      List (Except LearnerError Unit × Example R) × Optimizer R W × Context R W
  | o, context, [] => ([], o, context)
  | o, context, (learning, ec) :: rest =>
    let (outcome, left) := (l.learner.call learning).runOn ⟨o, context, ec⟩
    let (served, last) := l.serve left.node left.context rest
    ((outcome, left.input) :: served, last)

namespace Line

variable {mask : UInt64} {c : UInt64 → K}

/-- A run on rescaled features is the run, rescaled. -/
theorem serve_rescaled (hc : ∀ index, c index ≠ 0) (l : Line) {o o' : Optimizer K K}
    (ho : o.Rescaled mask c o') {context : Context K K} (hplain : context.interactions = [])
    (calls : List (Bool × Example K)) :
    let run := l.serve o context calls
    let run' := l.serve o' context (calls.map fun (learning, ec) => (learning, ec.rescale mask c))
    run'.1 = run.1.map (fun (outcome, ec) => (outcome, ec.rescale mask c)) ∧
      run.2.1.Rescaled mask c run'.2.1 ∧ run'.2.2 = run.2.2 := by
  induction calls generalizing o o' context with
  | nil => exact ⟨rfl, ho, rfl⟩
  | cons call rest ih =>
    obtain ⟨learning, ec⟩ := call
    have hstart : Frame.Rescaled mask c ⟨o, context, ec⟩ ⟨o', context, ec.rescale mask c⟩ :=
      ⟨ho, ⟨rfl, hplain⟩, rfl⟩
    have hcall : NodeM.Alike (Frame.Rescaled mask c) (Frame.Rescaled mask c)
        (l.learner.call learning) (l.learner.call learning) := by
      cases learning with
      | false => exact (l.learner_scaleFree hc).predict
      | true => exact (l.learner_scaleFree hc).learn
    obtain ⟨hout, hleft⟩ := hcall _ _ hstart
    intro run run'
    have hrun : run = l.serve o context ((learning, ec) :: rest) := rfl
    have hrun' : run' = l.serve o' context ((learning, ec.rescale mask c) ::
      rest.map fun (learning, ec) => (learning, ec.rescale mask c)) := rfl
    rw [serve] at hrun hrun'
    generalize (l.learner.call learning).runOn ⟨o, context, ec⟩ = first at hout hleft hrun
    generalize (l.learner.call learning).runOn ⟨o', context, ec.rescale mask c⟩ = first'
      at hout hleft hrun'
    obtain ⟨outcome, left⟩ := first
    obtain ⟨_, left'⟩ := first'
    obtain ⟨hnode, ⟨hcontext, hkept⟩, hinput⟩ := hleft
    cases hout
    obtain ⟨hserved, hlast⟩ := ih hnode hkept
    rw [hrun, hrun']
    dsimp only at hcontext hinput hserved hlast ⊢
    rw [hcontext, hinput, hserved]
    exact ⟨rfl, hlast⟩

end Line

/-- The coin of an index, in an optimizer that bets coins. -/
def Optimizer.coin? {R W : Type} [Scalar R] (o : Optimizer R W) (index : UInt64) :
    Option (Coin R) :=
  match o with
  | ⟨.coinBetting, _, t, _, _, _, _, _, _⟩ => some (Coin.load (t.group index))
  | _ => none

/-- Two optimizers that end runs on features of different scales: their totals are the same, and the
coins of an index differ by its scale alone. -/
structure Optimizer.SameBets (mask : UInt64) (c : UInt64 → K) (o o' : Optimizer K K) : Prop where
  totalWeight : o'.totalWeight = o.totalWeight
  normalizedSumNorm : o'.normalizedSumNorm = o.normalizedSumNorm
  averageSquaredNorm : o'.averageSquaredNorm = o.averageSquaredNorm
  coins (index : UInt64) : ∃ w, o.coin? index = some w ∧
    o'.coin? index = some (w.rescale (c (index &&& mask)))

theorem Optimizer.Rescaled.sameBets {mask : UInt64} {c : UInt64 → K} {o o' : Optimizer K K}
    (h : o.Rescaled mask c o') : o.SameBets mask c o' := by
  cases h with
  | @intro p t _ _ _ _ _ _ ht =>
    refine ⟨rfl, rfl, rfl, fun index => ⟨Coin.load (t.group index), rfl, ?_⟩⟩
    exact congrArg some (ht ▸ WeightTable.load_group_rescale c t index)

namespace Line

/-- Coin betting from an empty table does not notice the scale of features: a run without
interactions on features that are rescaled, each by the factor of its index, has the same outcomes,
predictions and losses and leaves the same context and the same bets. -/
theorem serve_scaleFree (l : Line) (p : Params K) (bits : Nat) (layout : Layout) (patience : UInt32)
    {context : Context K K} (hplain : context.interactions = []) {c : UInt64 → K}
    (hc : ∀ index, c index ≠ 0) (calls : List (Bool × Example K)) :
    let mask := indexMask bits
    let start : Optimizer K K := .new .coinBetting p bits layout patience
    let run := l.serve start context calls
    let run' :=
      l.serve start context (calls.map fun (learning, ec) => (learning, ec.rescale mask c))
    run'.1 = run.1.map (fun (outcome, ec) => (outcome, ec.rescale mask c)) ∧
      run'.2.2 = run.2.2 ∧ run.2.1.SameBets mask c run'.2.1 := by
  have hstart : (Optimizer.new .coinBetting p bits layout patience : Optimizer K K).Rescaled
      (indexMask bits) c (.new .coinBetting p bits layout patience) := .intro rfl
  obtain ⟨hserved, hbets, hcontext⟩ := serve_rescaled hc l hstart hplain calls
  exact ⟨hserved, hcontext, hbets.sameBets⟩

/-- A lesson with a feature at index 3, and the one with that feature turned around and doubled. -/
theorem serve_scaleFree_doubled :
    let l : Line := ⟨.coinBetting, [.identity]⟩
    let p : Params ℝ := ⟨4, 1, 0, 0⟩
    let context : Context ℝ ℝ := .initial .squared
    let c : UInt64 → ℝ := fun index => if index = 3 then -2 else 1
    let blank : Example ℝ := .blank
    let ec := { blank with label := .simple (some 1) }.push 0 ⟨3, 5⟩
    let mask := indexMask 4
    let start : Optimizer ℝ ℝ := .new .coinBetting p 4 .sparse 0
    let run := l.serve start context [(true, ec)]
    let run' := l.serve start context [(true, ec.rescale mask c)]
    (context.interactions = [] ∧ ∀ index, c index ≠ 0) ∧
      run'.1 = run.1.map (fun (outcome, ec) => (outcome, ec.rescale mask c)) ∧
        run'.2.2 = run.2.2 ∧ run.2.1.SameBets mask c run'.2.1 := by
  intro l p context c blank ec mask start run run'
  have hc : ∀ index, c index ≠ 0 := by
    intro index
    unfold c
    split
    · norm_num
    · norm_num
  exact ⟨⟨rfl, hc⟩, serve_scaleFree l p 4 .sparse 0 rfl hc [(true, ec)]⟩

end Line

end OnlineLearning
