import Mathlib
import OnlineLearning.Proofs.Histories
import OnlineLearning.Proofs.Reached
import OnlineLearning.Proofs.Stacking
import OnlineLearning.Proofs.Traced

/-!
# Learning never divides by zero

In exact arithmetic every divisor of a learning call is other than zero, whatever came before.

* `Proximal.Safe` and `Coin.Ready`: what the guards of a step rest on. A parameter is shrunk only
  where a gradient was seen, and a bet divides by nothing smaller than its positive scale;
* `Optimizer.Safe`: what holds of an optimizer in the course of learning, its average norm being
  positive among it; `Optimizer.learner_safe` says that calls keep it;
* `Frame.divisors`: what is divided by when an optimizer learns an example, read off the traced run
  of its prediction and of the step on each feature;
* `Workspace.divisors_ne_zero`: none of them is zero in any run on a line.
-/

namespace OnlineLearning

open Traced (plain NoZero)

/-- Numbers of which positive ones have positive roots. -/
class PositiveRoots (K : Type) [ExactNumber K] : Prop where
  sqrt_pos : ∀ {x : K}, 0 < x → 0 < Scalar.sqrt x

instance : PositiveRoots ℝ := ⟨Real.sqrt_pos.mpr⟩

variable {K : Type} [ExactNumber K]

/-- The rates that configurations may have. -/
structure Params.Valid (p : Params K) : Prop where
  alpha : 0 < p.alpha
  beta : 0 ≤ p.beta
  l1 : 0 ≤ p.l1
  l2 : 0 ≤ p.l2

/-! ## Proximal steps -/

namespace Proximal

def traced (w : Proximal K) : Proximal (Traced K) := ⟨plain w.param, plain w.z, plain w.sumSqGrad⟩

/-- As long as no gradient was seen there is nothing to shrink. -/
structure Safe (w : Proximal K) : Prop where
  sumSqGrad : 0 ≤ w.sumSqGrad
  z : w.sumSqGrad = 0 → w.z = 0

variable {p : Params K} {w : Proximal K}

theorem Safe.update (h : w.Safe) (p : Params K) (x update : K) : (w.update p x update).Safe := by
  have hsum : (w.update p x update).sumSqGrad = w.sumSqGrad + update * x * (update * x) := rfl
  have hsquare : 0 ≤ update * x * (update * x) := mul_self_nonneg _
  refine ⟨?_, fun hzero => ?_⟩
  · rw [hsum]
    exact add_nonneg h.sumSqGrad hsquare
  · rw [hsum] at hzero
    obtain ⟨hold, hnew⟩ := (add_eq_zero_iff_of_nonneg h.sumSqGrad hsquare).mp hzero
    have hgradient : update * x = 0 := mul_self_eq_zero.mp hnew
    change w.z + update * x - (Scalar.sqrt (w.sumSqGrad + update * x * (update * x)) -
      Scalar.sqrt w.sumSqGrad) / p.alpha * w.param = 0
    rw [h.z hold, hgradient, mul_zero, add_zero, add_zero, sub_self, zero_div, zero_mul, sub_zero]

/-- What is shrunk is divided by a positive number. -/
theorem denominator_pos [PositiveRoots K] (hp : p.Valid) (h : w.Safe) (hz : p.l1 < |w.z|) :
    0 < (p.beta + Scalar.sqrt w.sumSqGrad) / p.alpha + p.l2 := by
  have hne : w.z ≠ 0 := by
    intro hzero
    rw [hzero, abs_zero] at hz
    exact absurd hp.l1 (not_le.mpr hz)
  have hsum : 0 < w.sumSqGrad := lt_of_le_of_ne h.sumSqGrad fun hzero => hne (h.z hzero.symm)
  have hroot : 0 < p.beta + Scalar.sqrt w.sumSqGrad :=
    add_pos_of_nonneg_of_pos hp.beta (PositiveRoots.sqrt_pos hsum)
  exact add_pos_of_pos_of_nonneg (div_pos hroot hp.alpha) hp.l2

theorem sound_update [PositiveRoots K] (hp : p.Valid) (h : w.Safe) (x update : K) :
    let next := w.traced.update p.traced (plain x) (plain update)
    next.param.Sound ∧ next.z.Sound ∧ next.sumSqGrad.Sound := by
  intro next
  have hupdate := h.update p x update
  have hplain (y : K) : (plain y).Sound := Traced.sound_plain y
  have hgradient := (hplain update).mul (hplain x)
  have hsum : next.sumSqGrad.Sound := (hplain w.sumSqGrad).add (hgradient.mul hgradient)
  have hsigma := ((hsum.sqrt).sub (hplain w.sumSqGrad).sqrt).div (hplain p.alpha) hp.alpha.ne'
  have hz : next.z.Sound := ((hplain w.z).add hgradient).sub (hsigma.mul (hplain w.param))
  refine ⟨?_, hz, hsum⟩
  change (shrink p.traced next.z (Scalar.sqrt next.sumSqGrad)).Sound
  unfold shrink
  split
  · exact Traced.sound_ofNat 0
  · rename_i hlarge
    have hden := ((hplain p.beta).add hsum.sqrt).div (hplain p.alpha) hp.alpha.ne'
    refine (((Traced.sound_sign _).mul (hplain p.l1)).sub hz).div (hden.add (hplain p.l2)) ?_
    exact (denominator_pos hp hupdate (not_le.mp hlarge)).ne'

end Proximal

/-! ## Exponential steps -/

namespace Pistol

/-- Only what is positive is divided by, whatever the statistics are. -/
theorem sound_predict {p : Params K} {w : Pistol (Traced K)} (hz : w.z.Sound)
    (hsum : w.sumAbsGrad.Sound) (hmax : w.maxAbsX.Sound) (x : K) :
    (w.predict p.traced (plain x)).param.Sound ∧
      (w.predict p.traced (plain x)).maxAbsX.Sound := by
  have hplain (y : K) : (plain y).Sound := Traced.sound_plain y
  have hwide := hmax.maxNum (hplain x).abs
  refine ⟨?_, hwide⟩
  change (refreshed p.traced w (Scalar.maxNum w.maxAbsX (Scalar.abs (plain x)))).Sound
  generalize Scalar.maxNum w.maxAbsX (Scalar.abs (plain x)) = size at hwide
  unfold refreshed
  dsimp only
  split
  · rename_i hpos
    have hden := ((hplain p.alpha).mul hwide).mul (hsum.add hwide)
    have hne := ((Traced.pos_iff _).mp hpos).ne'
    have hrate := (Traced.sound_ofNat 1).div hden hne
    have htwo : (@OfNat.ofNat (Traced K) 2 (Number.instOfNat 2)).value ≠ 0 := by
      rw [Traced.value_ofNat]
      exact two_ne_zero
    have hexp := (((hz.mul hz).div (Traced.sound_ofNat 2) htwo).mul hrate).correctedExp
    exact (((hsum.sqrt.mul (hplain p.beta)).mul hz).mul hexp).mul hrate
  · exact Traced.sound_ofNat 0

end Pistol

/-! ## Coin betting steps -/

namespace Coin

def traced (w : Coin K) : Coin (Traced K) :=
  ⟨plain w.param, plain w.negGradSum, plain w.sumAbsGrad, plain w.maxAbsX, plain w.wealth,
    plain w.maxGrad⟩

/-- All that a bet reads is sound, and no sum of sizes is negative. -/
structure Ready (w : Coin (Traced K)) : Prop where
  negGradSum : w.negGradSum.Sound
  sumAbsGrad : w.sumAbsGrad.Sound
  maxAbsX : w.maxAbsX.Sound
  wealth : w.wealth.Sound
  maxGrad : w.maxGrad.Sound
  sum_nonneg : 0 ≤ w.sumAbsGrad.value

theorem ready_traced {w : Coin K} (h : 0 ≤ w.sumAbsGrad) : w.traced.Ready :=
  ⟨Traced.sound_plain _, Traced.sound_plain _, Traced.sound_plain _, Traced.sound_plain _,
    Traced.sound_plain _, h⟩

variable {w : Coin (Traced K)} {p : Params K}

/-- A bet divides by the product of a positive scale and something at least as large. -/
theorem Ready.bet (h : w.Ready) (p : Params K) {size : Traced K} (hsize : size.Sound) :
    (bet p.traced w size).Sound := by
  unfold Coin.bet
  dsimp only
  split
  · rename_i hpos
    have hscale := h.maxGrad.mul hsize
    have hpos := (Traced.pos_iff _).mp hpos
    refine (((Traced.sound_plain p.alpha).add h.wealth).div
      (hscale.mul (hscale.add h.sumAbsGrad)) ?_).mul h.negGradSum
    exact (mul_pos hpos (add_pos_of_pos_of_nonneg hpos h.sum_nonneg)).ne'
  · exact Traced.sound_ofNat 0

theorem Ready.raw (h : w.Ready) (p : Params K) (x : K) :
    (raw p.traced w (plain x)).Sound :=
  (h.bet p (h.maxAbsX.maxNum (Traced.sound_plain x).abs)).mul (Traced.sound_plain x)

theorem Ready.normalizedSq (h : w.Ready) (x : K) : (normalizedSq w (plain x)).Sound := by
  unfold Coin.normalizedSq
  dsimp only
  split
  · rename_i hpos
    have hwide := h.maxAbsX.maxNum (Traced.sound_plain x).abs
    have hquotient := (Traced.sound_plain x).div hwide ((Traced.pos_iff _).mp hpos).ne'
    exact hquotient.mul hquotient
  · exact Traced.sound_ofNat 0

theorem Ready.widen (h : w.Ready) (p : Params K) (x update : K) :
    (w.widen p.traced (plain x) (plain update)).Ready := by
  have hupdate := (Traced.sound_plain update).abs
  refine ⟨h.negGradSum, h.sumAbsGrad, h.maxAbsX.maxNum (Traced.sound_plain x).abs, h.wealth, ?_,
    h.sum_nonneg⟩
  unfold Coin.widen
  dsimp only
  split
  · exact hupdate.maxNum (Traced.sound_plain p.beta)
  · exact h.maxGrad

theorem Ready.update (h : w.Ready) (p : Params K) {average : K} (haverage : 0 < average)
    (x update : K) :
    let next := w.update p.traced (plain average) (plain x) (plain update)
    next.Ready ∧ next.param.Sound := by
  intro next
  have hwide := h.widen p x update
  have hgradient := (Traced.sound_plain update).mul (Traced.sound_plain x)
  have hnext : next.Ready := by
    refine ⟨hwide.negGradSum.sub hgradient, hwide.sumAbsGrad.add hgradient.abs, hwide.maxAbsX,
      hwide.wealth.sub (hgradient.mul (hwide.bet p hwide.maxAbsX)), hwide.maxGrad, ?_⟩
    exact add_nonneg hwide.sum_nonneg (abs_nonneg _)
  refine ⟨hnext, ?_⟩
  exact (hnext.bet p hnext.maxAbsX).div (Traced.sound_plain average) haverage.ne'

theorem widened_traced (w : Coin K) (x : K) :
    w.traced.widened (plain x) = plain (w.widened x) := by
  unfold widened Scalar.maxNum
  rw [apply_ite plain, apply_ite plain]
  rfl

theorem value_normalizedSq (w : Coin K) (x : K) :
    (normalizedSq w.traced (plain x)).value = normalizedSq w x := by
  unfold normalizedSq
  rw [widened_traced]
  exact apply_ite Traced.value _ _ _

theorem normalizedSq_nonneg (w : Coin K) (x : K) : 0 ≤ normalizedSq w x := by
  unfold normalizedSq
  dsimp only
  split
  · exact mul_self_nonneg _
  · exact ExactNumber.ofNat_zero.ge

end Coin

/-! ## Groups of a mode -/

namespace Mode

/-- What holds of the groups of a mode in the course of learning. -/
def Safe : (m : Mode) → Vector K m.width → Prop
  | proximal, g => (Proximal.load g).Safe
  | pistol, _ => True
  | coinBetting, g => 0 ≤ (Coin.load g).sumAbsGrad

theorem safe_zeroGroup (m : Mode) : m.Safe (WeightTable.zeroGroup : Vector K m.width) := by
  have hzero (i : Nat) (hi : i < m.width) :
      (WeightTable.zeroGroup : Vector K m.width)[i] = 0 := by
    simp [WeightTable.zeroGroup, ExactNumber.ofNat_eq]
  cases m with
  | proximal => exact ⟨(hzero 2 (by decide)).ge, fun _ => hzero 1 (by decide)⟩
  | pistol => trivial
  | coinBetting => exact (hzero 2 (by decide)).ge

theorem Safe.updateGroup {m : Mode} {g : Vector K m.width} (h : m.Safe g) (p : Params K)
    (average x update : K) : m.Safe (m.updateGroup p average x update g) := by
  cases m with
  | proximal => exact Proximal.Safe.update h p x update
  | pistol => trivial
  | coinBetting =>
    have hsum : 0 ≤ (Coin.load g).sumAbsGrad := h
    exact add_nonneg hsum (abs_nonneg (update * x))

/-- A step on a group divides by nothing that is zero. -/
theorem Safe.sound_updateGroup [PositiveRoots K] {m : Mode} {g : Vector K m.width} (h : m.Safe g)
    {p : Params K} (hp : p.Valid) {average : K} (haverage : 0 < average) (x update : K) :
    ∀ channel ∈ (m.updateGroup p.traced (plain average) (plain x) (plain update)
      (g.map plain)).toList, channel.Sound := by
  have hplain (y : K) : (plain y).Sound := Traced.sound_plain y
  cases m with
  | proximal =>
    have hload : Proximal.load (g.map plain) = (Proximal.load g).traced := by
      simp [Proximal.load, Proximal.traced]
    have hsound := Proximal.sound_update hp h x update
    unfold Mode.updateGroup
    dsimp only
    rw [hload]
    simp only [Proximal.channels, Vector.toList_mk, List.forall_mem_cons]
    exact ⟨hsound.1, hsound.2.1, hsound.2.2, by simp⟩
  | pistol =>
    unfold Mode.updateGroup
    have hgradient := (hplain update).mul (hplain x)
    simp only [Pistol.channels, Pistol.update, Pistol.load, Vector.toList_mk, Vector.getElem_map,
      List.forall_mem_cons]
    exact ⟨hplain _, (hplain _).sub hgradient, (hplain _).add hgradient.abs, hplain _, by simp⟩
  | coinBetting =>
    have hload : Coin.load (g.map plain) = (Coin.load g).traced := by
      simp [Coin.load, Coin.traced]
    obtain ⟨hnext, hparam⟩ := (Coin.ready_traced h).update p haverage x update
    unfold Mode.updateGroup
    dsimp only
    rw [hload]
    simp only [Coin.channels, Vector.toList_mk, List.forall_mem_cons]
    exact ⟨hparam, hnext.negGradSum, hnext.sumAbsGrad, hnext.maxAbsX, hnext.wealth, hnext.maxGrad,
      by simp⟩

end Mode

/-! ## Predictions -/

namespace WeightTable

/-- A dot product divides by nothing. -/
theorem sound_dot {width : Nat} (t : WeightTable K width) (visits : List (Feature K)) :
    (t.traced.dot (visits.map Feature.traced)).Sound := by
  unfold dot
  rw [List.foldl_map]
  refine List.foldlRecOn (motive := Traced.Sound) visits _ (Traced.sound_ofNat 0) ?_
  intro sum hsum f _
  rw [param_traced]
  exact hsum.add ((Traced.sound_plain f.value).mul (Traced.sound_plain _))

end WeightTable

theorem Pistol.sound_refreshAll (p : Params K) (t : WeightTable K 4) (visits : List (Feature K)) :
    (Pistol.refreshAll p.traced t.traced (visits.map Feature.traced)).2.Sound := by
  have hkept : (∀ i, ∀ channel ∈ ((Pistol.refreshAll p.traced t.traced
      (visits.map Feature.traced)).1.group i).toList, channel.Sound) ∧
      (Pistol.refreshAll p.traced t.traced (visits.map Feature.traced)).2.Sound := by
    unfold Pistol.refreshAll
    rw [List.foldl_map]
    refine List.foldlRecOn (motive := fun run : WeightTable (Traced K) 4 × Traced K =>
      (∀ i, ∀ channel ∈ (run.1.group i).toList, channel.Sound) ∧ run.2.Sound) visits _ ?_ ?_
    · refine ⟨fun i channel hchannel => ?_, Traced.sound_ofNat 0⟩
      rw [WeightTable.group_traced, Vector.toList_map] at hchannel
      obtain ⟨x, -, rfl⟩ := List.mem_map.mp hchannel
      exact Traced.sound_plain x
    · rintro ⟨u, sum⟩ ⟨hu, hsum⟩ f -
      have hchannel (j : Nat) (hj : j < 4) : (u.group f.index)[j].Sound :=
        hu f.index _ (Vector.mem_toList_iff.mpr (Vector.getElem_mem hj))
      have hpredict := sound_predict (p := p) (w := Pistol.load (u.group f.index))
        (hchannel 1 (by omega)) (hchannel 2 (by omega)) (hchannel 3 (by omega)) f.value
      refine ⟨fun i => ?_, hsum.add (hpredict.1.mul (Traced.sound_plain f.value))⟩
      dsimp only
      rw [WeightTable.group_setGroup]
      split
      · simp only [Pistol.channels, Vector.toList_mk, List.forall_mem_cons]
        exact ⟨hpredict.1, hchannel 1 (by omega), hchannel 2 (by omega), hpredict.2, by simp⟩
      · exact hu i
  exact hkept.2

namespace Coin

theorem load_group_traced (t : WeightTable K 6) (i : UInt64) :
    Coin.load (t.traced.group i) = (Coin.load (t.group i)).traced := by
  rw [WeightTable.group_traced]
  simp [Coin.load, Coin.traced]

theorem sound_rawSum {t : WeightTable K 6} (ht : ∀ i, 0 ≤ (Coin.load (t.group i)).sumAbsGrad)
    (p : Params K) (visits : List (Feature K)) :
    (Coin.rawSum p.traced t.traced (visits.map Feature.traced)).Sound := by
  unfold Coin.rawSum
  rw [List.foldl_map]
  refine List.foldlRecOn (motive := Traced.Sound) visits _ (Traced.sound_ofNat 0) ?_
  intro sum hsum f _
  have hload := load_group_traced t f.index
  exact hsum.add (hload ▸ (ready_traced (ht f.index)).raw p f.value)

theorem sound_normSum {t : WeightTable K 6} (ht : ∀ i, 0 ≤ (Coin.load (t.group i)).sumAbsGrad)
    (visits : List (Feature K)) :
    (Coin.normSum t.traced (visits.map Feature.traced)).Sound := by
  unfold Coin.normSum
  rw [List.foldl_map]
  refine List.foldlRecOn (motive := Traced.Sound) visits _ (Traced.sound_ofNat 0) ?_
  intro sum hsum f _
  have hload := load_group_traced t f.index
  exact hsum.add (hload ▸ (ready_traced (ht f.index)).normalizedSq f.value)

theorem value_normSum (t : WeightTable K 6) (visits : List (Feature K)) :
    (Coin.normSum t.traced (visits.map Feature.traced)).value = Coin.normSum t visits := by
  unfold Coin.normSum
  rw [List.foldl_map]
  refine List.foldl_rel (r := fun (a : Traced K) (x : K) => a.value = x) rfl ?_
  intro f _ sum x hsum
  have hload := load_group_traced t f.index
  change sum.value + (Coin.normalizedSq (Coin.load (t.traced.group f.index)) (plain f.value)).value = _
  rw [hload, value_normalizedSq, hsum]

theorem normSum_nonneg (t : WeightTable K 6) (visits : List (Feature K)) :
    0 ≤ Coin.normSum t visits := by
  refine List.foldlRecOn (motive := fun sum => 0 ≤ sum) visits _ ExactNumber.ofNat_zero.ge ?_
  intro sum hsum f _
  exact add_nonneg hsum (normalizedSq_nonneg _ _)

end Coin

/-! ## Optimizers -/

namespace Optimizer

/-- What holds of an optimizer in the course of learning: groups are safe, the summed norms are not
negative, and the average norm is positive. -/
structure Safe (o : Optimizer K K) : Prop where
  table : ∀ i, o.mode.Safe (o.weights.group i)
  params : o.params.Valid
  norm : 0 ≤ o.normalizedSumNorm
  average : 0 < o.averageSquaredNorm

variable {o : Optimizer K K}

theorem refreshAverage_pos (h : 0 ≤ o.normalizedSumNorm) :
    0 < o.refreshAverage.averageSquaredNorm := by
  have hepsilon : (0 : K) < normEpsilon := by
    unfold normEpsilon
    rw [ExactNumber.ofNat_eq, ExactNumber.ofNat_eq]
    exact div_pos (by norm_num) (by norm_num)
  unfold refreshAverage
  dsimp only
  split
  · rename_i hpos
    rw [ExactNumber.ofNat_zero] at hpos
    exact div_pos (add_pos_of_nonneg_of_pos h hepsilon) hpos
  · exact one_pos.trans_eq ExactNumber.ofNat_one.symm

theorem value_refreshAverage {seen : Optimizer (Traced K) (Traced K)}
    (htotal : seen.totalWeight.value = o.totalWeight)
    (hnorm : seen.normalizedSumNorm.value = o.normalizedSumNorm) :
    seen.refreshAverage.averageSquaredNorm.value = o.refreshAverage.averageSquaredNorm := by
  unfold refreshAverage
  rw [← htotal, ← hnorm]
  exact apply_ite Traced.value _ _ _

theorem sound_refreshAverage {seen : Optimizer (Traced K) (Traced K)}
    (htotal : seen.totalWeight.Sound) (hnorm : seen.normalizedSumNorm.Sound) :
    seen.refreshAverage.averageSquaredNorm.Sound := by
  have hmillion : (@OfNat.ofNat (Traced K) 1000000 (Number.instOfNat 1000000)).value ≠ 0 := by
    rw [Traced.value_ofNat]
    norm_num
  unfold refreshAverage
  dsimp only
  split
  · rename_i hpos
    have hepsilon := (Traced.sound_ofNat (K := K) 1).div (Traced.sound_ofNat 1000000) hmillion
    exact (hnorm.add hepsilon).div htotal ((Traced.pos_iff _).mp hpos).ne'
  · exact Traced.sound_ofNat 1

theorem norm_nonneg {m : Mode} {p : Params K} {t : WeightTable K m.width}
    {visits : List (Feature K)} {norm : K} (h : (m.preview p t visits).norm? = some norm) :
    0 ≤ norm := by
  cases m with
  | proximal | pistol => cases h
  | coinBetting =>
    cases h
    exact Coin.normSum_nonneg t visits

theorem Safe.preview {m : Mode} {t : WeightTable K m.width} (h : ∀ i, m.Safe (t.group i))
    (p : Params K) (visits : List (Feature K)) :
    ∀ i, m.Safe ((m.preview p t visits).weights.group i) := by
  cases m with
  | proximal | coinBetting => exact h
  | pistol => exact fun _ => trivial

theorem Safe.learningPrediction (h : o.Safe) {weight : K} (hweight : 0 < weight)
    (visits : List (Feature K)) : (o.learningPrediction weight visits).1.Safe := by
  have htable := Safe.preview h.table o.params visits
  unfold Optimizer.learningPrediction
  dsimp only
  split
  · exact ⟨htable, h.params, h.norm, h.average⟩
  · rename_i norm hnorm
    have hsum : 0 ≤ o.normalizedSumNorm + weight * norm :=
      add_nonneg h.norm (mul_nonneg hweight.le (norm_nonneg hnorm))
    exact ⟨htable, h.params, hsum, refreshAverage_pos hsum⟩

theorem Safe.step (h : o.Safe) (update : K) (visits : List (Feature K)) :
    (o.step update visits).Safe := by
  refine ⟨?_, h.params, h.norm, h.average⟩
  refine List.foldlRecOn (motive := fun t : WeightTable K o.mode.width =>
    ∀ i, o.mode.Safe (t.group i)) visits _ h.table ?_
  intro u hu f _ i
  rw [WeightTable.group_modify]
  split
  · exact (hu f.index).updateGroup _ _ _ _
  · exact hu i

/-! ## The divisors of a lesson -/

/-- What is divided by in the prediction that learning starts from. -/
def predictionDivisors (o : Optimizer K K) (weight : K) (visits : List (Feature K)) : List K :=
  (o.traced.learningPrediction (plain weight) (visits.map Feature.traced)).2.divisors

/-- What is divided by in the steps on the visited features, one after another. -/
def stepDivisors (update : K) : Optimizer K K → List (Feature K) → List K
  | _, [] => []
  | o, f :: rest =>
    let stepped := o.traced.step (plain update) [f.traced]
    (stepped.weights.group f.index).toList.flatMap Traced.divisors ++
      stepDivisors update (o.step update [f]) rest

theorem noZero_predictionDivisors (h : o.Safe) {weight : K} (hweight : 0 < weight)
    (visits : List (Feature K)) : NoZero (o.predictionDivisors weight visits) := by
  have haverage := (h.learningPrediction hweight visits).average
  change Traced.Sound _
  obtain ⟨mode, p, t, stalls, patience, size, total, norms, average⟩ := o
  cases mode with
  | proximal => exact t.sound_dot visits
  | pistol => exact Pistol.sound_refreshAll p t visits
  | coinBetting =>
    have hnorm := Coin.sound_normSum h.table visits
    have htotal := (Traced.sound_plain total).add (Traced.sound_plain weight)
    have hnorms := (Traced.sound_plain norms).add ((Traced.sound_plain weight).mul hnorm)
    refine (Coin.sound_rawSum h.table p visits).div (sound_refreshAverage htotal hnorms) ?_
    refine ne_of_eq_of_ne (value_refreshAverage rfl ?_) haverage.ne'
    change norms + weight * (Coin.normSum t.traced (visits.map Feature.traced)).value = _
    rw [Coin.value_normSum]
    rfl

theorem group_step_traced (o : Optimizer K K) (update : K) (f : Feature K) :
    (o.traced.step (plain update) [f.traced]).weights.group f.index =
      o.mode.updateGroup o.params.traced (plain o.averageSquaredNorm) (plain f.value)
        (plain update) ((o.weights.group f.index).map plain) := by
  have hgroup := WeightTable.group_modify o.traced.weights f.index f.index
    (o.mode.updateGroup o.params.traced (plain o.averageSquaredNorm) (plain f.value) (plain update))
  exact (hgroup.trans (if_pos rfl)).trans (congrArg _ (o.weights.group_traced f.index))

theorem noZero_stepDivisors [PositiveRoots K] (h : o.Safe) (update : K)
    (visits : List (Feature K)) : NoZero (o.stepDivisors update visits) := by
  induction visits generalizing o with
  | nil => exact fun _ hd => absurd hd List.not_mem_nil
  | cons f rest ih =>
    refine Traced.NoZero.append ?_ (ih (h.step update [f]))
    intro d hd
    obtain ⟨channel, hchannel, hd⟩ := List.mem_flatMap.mp hd
    refine (h.table f.index).sound_updateGroup h.params h.average f.value update channel ?_ d hd
    rwa [← group_step_traced]

/-- Calls keep an optimizer safe, provided that it learns examples of positive weight only. -/
theorem learner_safe (mask : UInt64) :
    (learner : LineLearner K K _).Alike
      (Same fun o : Optimizer K K => o.weights.mask = mask ∧ o.Safe) .eq (Region.whole mask)
      (Number.ofNat 0 < ·) learner := by
  refine learner_keeps (fun _ _ h => h.symm) (fun _ h => h.1) ?_ ?_
  · rintro o weight visits ⟨hmask, hsafe⟩ hweight hvisits
    have hweight : 0 < weight := by
      rw [← Nat.cast_zero]
      exact hweight
    exact ⟨(learningPrediction_touches o weight hvisits).mask_eq.trans hmask,
      hsafe.learningPrediction hweight visits⟩
  · rintro o update visits ⟨hmask, hsafe⟩ hvisits
    exact ⟨(step_touches o update hvisits).mask_eq.trans hmask, hsafe.step update visits⟩

theorem Safe.endPass (h : o.Safe) (context : Context K K) : (o.endPass context).1.Safe := by
  unfold Optimizer.endPass
  split
  · exact h
  · exact ⟨h.table, h.params, h.norm, h.average⟩

theorem safe_new (mode : Mode) {p : Params K} (hp : p.Valid) (bits : Nat) (layout : Layout)
    (patience : UInt32) : (Optimizer.new mode p bits layout patience : Optimizer K K).Safe := by
  refine ⟨fun i => ?_, hp, ?_, ?_⟩
  · change mode.Safe ((WeightTable.empty bits layout).group i)
    rw [WeightTable.group_empty]
    exact mode.safe_zeroGroup
  · exact ExactNumber.ofNat_zero.ge
  · exact one_pos.trans_eq ExactNumber.ofNat_one.symm

end Optimizer

/-- What is divided by when the optimizer of a frame learns the example of the frame. -/
def Frame.divisors (f : Frame K K (Optimizer K K) (Example K)) : List K :=
  let visits := f.input.visits f.context.interactions
  let seen := f.node.learningPrediction f.input.weight visits
  f.node.predictionDivisors f.input.weight visits ++
    match f.input.target? with
    | none => []
    | some label =>
      let ec := Optimizer.publish f.context seen.2 f.input
      seen.1.stepDivisors (f.context.derivativeOf ec.scalar label * f.input.weight) visits

theorem Frame.noZero_divisors [PositiveRoots K] {f : Frame K K (Optimizer K K) (Example K)}
    (h : f.node.Safe) (hweight : 0 < f.input.weight) : NoZero f.divisors := by
  refine (Optimizer.noZero_predictionDivisors h hweight _).append ?_
  split
  · exact fun _ hd => absurd hd List.not_mem_nil
  · exact Optimizer.noZero_stepDivisors (h.learningPrediction hweight _) _ _

/-! ## Configurations -/

namespace Config

variable {c : Config K}

/-- The rates of a valid configuration. -/
theorem valid_params {p : Params K} (hvalid : c.validate = .ok ()) (hp : c.optimizer.params = .ok p) :
    p.Valid := by
  obtain ⟨⟨_, hp', ⟨halpha, -⟩, hbeta, -⟩, hl1, hl2⟩ := (validate_iff_checked.mp hvalid).optimizer
  cases hp.symm.trans hp'
  obtain ⟨_, -, hparams⟩ := bind_eq_ok.mp hp
  cases hparams
  rw [ExactNumber.ofNat_eq, Nat.cast_zero] at halpha hbeta
  rw [ExactNumber.ofNat_eq, Nat.cast_zero, not_lt] at hl1 hl2
  exact ⟨halpha, hbeta, hl1, hl2⟩

/-- The default configuration is accepted in every ordered field. -/
theorem checked_default : (default : Config K).Checked where
  optimizer := by
    have halpha : ((0 : ℕ) : K) < (4 : ℕ) := Nat.cast_lt.mpr (by decide)
    have hbeta : ((0 : ℕ) : K) ≤ (1 : ℕ) := Nat.cast_le.mpr (by decide)
    have hpenalty : ¬ ((0 : ℕ) : K) < (0 : ℕ) := lt_irrefl _
    exact ⟨⟨_, rfl, ⟨halpha, rfl⟩, hbeta, rfl⟩, hpenalty, hpenalty⟩
  bits := by
    have hbits : (1 : UInt32) ≤ 18 ∧ (18 : UInt32) ≤ 32 := by decide
    exact hbits
  checkHoldoutEvery := by
    have hevery : (1 : UInt64) ≠ 0 := by decide
    exact hevery
  interactions := ⟨[], rfl⟩
  grounded := nofun

theorem validate_default : (default : Config K).validate = .ok () :=
  validate_iff_checked.mpr checked_default

end Config

/-! ## Runs -/

/-- What a scorer leaves of the state below is what the call below leaves. -/
theorem Scorer.node_run {R W σ : Type} [Scalar R] [Number W] [Widening R W] (link : LinkFunction)
    (base : LineLearner R W σ) (learning : Bool) (f : Frame R W σ (Example R)) :
    ((run link base learning).runOn f).2.node =
      match f.input.label with
      | .bandit _ => f.node
      | .simple none => (base.predict.runOn f).2.node
      | .simple (some label) =>
        ((if learning && 0 < f.input.weight && !f.input.holdout then base.learn
          else base.predict).runOn { f with context := f.context.coverLabel label }).2.node := by
  have hrun : ((run link base learning).runOn f).2.node =
      ((runBelow link base learning).runOn f).2.node := by
    rw [runOn_run]
    generalize (runBelow link base learning).runOn f = below
    obtain ⟨_ | _, left⟩ := below <;> rfl
  rw [hrun, runOn_runBelow]
  cases f.input.label with
  | bandit costs => rfl
  | simple target =>
    cases target with
    | none => rfl
    | some label =>
      dsimp only
      generalize NodeM.runOn _ _ = below
      obtain ⟨_ | _, left⟩ := below
      · rfl
      · dsimp only
        rw [runOn_account]
        dsimp only
        split <;> rfl

/-- The relation of a safe optimizer and itself, in one context. -/
def Bond.safe (mask : UInt64) : Bond K K where
  mask := mask
  node := Same fun o => o.weights.mask = mask ∧ o.Safe
  primary := .eq
  decoder := .eq
  primary_alike := Optimizer.learner_safe mask
  decoder_alike := Optimizer.learner_safe mask
  stats h := h ▸ rfl
  holdoutOff h := h ▸ rfl
  count _ h := h ▸ rfl
  dump h := h ▸ rfl

/-- Proximal updates whose denominators are not smoothed: `beta` and `l2` are zero. -/
def Config.unsmoothed : Config K :=
  { (Config.default : Config K) with
    optimizer :=
      { ftrl := true, pistol := false, coin := false, alpha := some 1, beta := some 0, l1 := 0
        l2 := 0 } }

theorem Config.validate_unsmoothed : (Config.unsmoothed : Config K).validate = .ok () := by
  have halpha : ((0 : ℕ) : K) < 1 := by norm_num
  have hbeta : ((0 : ℕ) : K) ≤ 0 := by norm_num
  have hpenalty : ¬ (0 : K) < (0 : ℕ) := by norm_num
  exact validate_iff_checked.mpr { checked_default with
    optimizer := ⟨⟨_, rfl, ⟨halpha, rfl⟩, hbeta, rfl⟩, hpenalty, hpenalty⟩ }

namespace Workspace

section

variable {R W : Type} [Scalar R] [Number W] [Widening R W]

/-- What the optimizer below a scorer gets to learn of an example, if it gets to learn it: the
example needs a label and a positive weight, and must not be held out. -/
def lesson? (w : Workspace R W) (ec : Example R) :
    Option (Frame R W (Optimizer R W) (Example R)) :=
  let ec := released w.chain.context true ec
  match ec.label with
  | .simple (some label) =>
    if 0 < ec.weight && !ec.holdout then
      some ⟨w.chain.optimizer, w.chain.context.coverLabel label, ec⟩
    else none
  | _ => none

/-- What a learning call leaves of the optimizer on a line with one scorer. -/
theorem optimizer_learn {w : Workspace R W} {mode : Mode} {link : LinkFunction}
    (hstack : w.chain.stack = .line ⟨mode, [link]⟩) (ec : Example R) :
    (w.answer (.learn ec)).2.chain.optimizer =
      ((w.lesson? ec).map fun lesson =>
        ((Optimizer.learn : NodeM R W _ _ Unit).runOn lesson).2.node).getD w.chain.optimizer := by
  obtain ⟨config, ⟨stack, o, context, hasher⟩, journal⟩ := w
  cases hstack
  have hcall := runOn_callLine true config ⟨mode, [link]⟩ o context hasher journal ec
  change ((callLine true).runOn _ ec).2.1.chain.optimizer = _
  rw [hcall]
  change ((Scorer.run link Optimizer.learner true).runOn _).2.node = _
  rw [Scorer.node_run]
  unfold lesson?
  dsimp only
  generalize released context true ec = ec
  cases ec.label with
  | bandit costs => rfl
  | simple target =>
    cases target with
    | none => rfl
    | some label =>
      dsimp only
      rw [Bool.true_and]
      cases decide (0 < ec.weight) && !ec.holdout <;> rfl

omit [Number W] [Widening R W] in
/-- Only examples of positive weight are learned. -/
theorem of_lesson? {w : Workspace R W} {ec : Example R}
    {lesson : Frame R W (Optimizer R W) (Example R)} (h : w.lesson? ec = some lesson) :
    lesson.node = w.chain.optimizer ∧ 0 < lesson.input.weight := by
  unfold lesson? at h
  dsimp only at h
  split at h
  · split at h
    · rename_i hlearn
      cases h
      exact ⟨rfl, of_decide_eq_true (Bool.and_eq_true_iff.mp hlearn).1⟩
    · cases h
  · cases h

end

/-- A new workspace on a line has one scorer and a safe optimizer, and so has what any history makes
of it. -/
theorem safe_after {c : Config K} {w : Workspace K K} (hw : Workspace.new c = .ok w)
    (hline : c.hasBandit = false) (past : List (Step K)) :
    (∃ mode link, (w.after past).chain.stack = .line ⟨mode, [link]⟩) ∧
      (w.after past).chain.optimizer.Safe := by
  cases fresh_of_new hw with
  | bandit p h _ => simp [Config.hasBandit, h] at hline
  | grounded p h _ _ _ _ => simp [Config.hasBandit, h] at hline
  | line p _ =>
    let mask := p.optimizer.weights.mask
    have hsafe : p.optimizer.Safe :=
      Optimizer.safe_new p.mode (Config.valid_params p.valid p.params_eq) _ _ _
    have hstart : Chain.Related (Bond.safe mask) (.line p.line) (Config.Parts.hasher c 1)
        ⟨.line p.line, p.optimizer, p.context, Config.Parts.hasher c 1⟩
        ⟨.line p.line, p.optimizer, p.context, Config.Parts.hasher c 1⟩ :=
      ⟨⟨rfl, rfl, hsafe⟩, rfl⟩
    have hlogged := (fresh_of_new hw).logged hstart
    have hpass {chain : Chain K K}
        (h : Chain.Related (Bond.safe mask) (.line p.line) (Config.Parts.hasher c 1) chain chain) :
        Chain.Related (Bond.safe mask) (.line p.line) (Config.Parts.hasher c 1) chain.endPass
          chain.endPass :=
      h.endPass id ⟨⟨rfl, (Optimizer.mask_endPass _ _).trans h.optimizer.holds.1,
        h.optimizer.holds.2.endPass _⟩, rfl⟩
    have hafter := (after_keeps hpass .logged (List.cons_ne_nil _ _) hlogged past).chain
    exact ⟨⟨_, _, hafter.stack_eq.1⟩, hafter.optimizer.holds.2⟩

/-- Learning never divides by zero. A valid configuration without reductions leads to a workspace
whose average norm stays positive, whatever is predicted and learned, and of a call that learns
every divisor is other than zero. -/
theorem divisors_ne_zero [PositiveRoots K] {c : Config K} (hvalid : c.validate = .ok ())
    (hline : c.hasBandit = false) :
    ∃ w : Workspace K K, Workspace.new c = .ok w ∧ ∀ past : List (Step K),
      0 < (w.after past).chain.optimizer.averageSquaredNorm ∧
      ∀ ec : Example K,
        ((w.after past).answer (.learn ec)).2.chain.optimizer =
          (((w.after past).lesson? ec).map fun lesson =>
            ((Optimizer.learn : NodeM K K _ _ Unit).runOn lesson).2.node).getD
              (w.after past).chain.optimizer ∧
        ∀ lesson, (w.after past).lesson? ec = some lesson → ∀ d ∈ lesson.divisors, d ≠ 0 := by
  have hgrounded : c.grounded.enabled = false := (Bool.or_eq_false_iff.mp hline).2
  obtain ⟨w, hw⟩ := Config.exists_new (W := K) hvalid (by simp [hgrounded])
  refine ⟨w, hw, fun past => ?_⟩
  obtain ⟨⟨mode, link, hstack⟩, hsafe⟩ := safe_after hw hline past
  refine ⟨hsafe.average, fun ec => ⟨optimizer_learn hstack ec, ?_⟩⟩
  intro lesson hlesson
  obtain ⟨hnode, hweight⟩ := of_lesson? hlesson
  rw [ExactNumber.ofNat_eq, Nat.cast_zero] at hweight
  exact Frame.noZero_divisors (hnode ▸ hsafe) hweight

theorem divisors_ne_zero_unsmoothed :
    (Config.unsmoothed : Config ℝ).validate = .ok () ∧
      ∃ w : Workspace ℝ ℝ, Workspace.new Config.unsmoothed = .ok w ∧
        ∀ (past : List (Step ℝ)) (ec : Example ℝ) lesson, (w.after past).lesson? ec = some lesson →
          ∀ d ∈ lesson.divisors, d ≠ 0 := by
  have hvalid : (Config.unsmoothed : Config ℝ).validate = .ok () := Config.validate_unsmoothed
  obtain ⟨w, hw, hruns⟩ := divisors_ne_zero hvalid rfl
  exact ⟨hvalid, w, hw, fun past ec => ((hruns past).2 ec).2⟩

end Workspace

end OnlineLearning
