import Mathlib
import OnlineLearning.Optimizer.Proximal
import OnlineLearning.Proofs.Exact

/-!
# What a proximal step minimizes

The parameter that a proximal step stores is the one at which three pulls balance: the shifted
gradient sum, the penalty on the size and the curvature, which is the inverse learning rate plus the
penalty on the square. The penalty on the size has a corner at zero, where any slope up to the
penalty can be had; so a sum no larger than that is held at zero.

* `Proximal.objective` is what is minimized;
* `Proximal.shrink_eq_soft`: the two branches of the step are one formula;
* `Proximal.Balanced`: where the pulls balance; `Proximal.Balanced.growth`: from there the objective
  grows as the square of the distance;
* `Proximal.update_minimizes`: every step leaves the only minimizer, which is zero exactly for sums
  up to the penalty and has the other sign beyond.
-/

namespace OnlineLearning

variable {K : Type} [ExactNumber K]

theorem ExactNumber.sign_eq (x : K) : Scalar.sign x = (SignType.sign x : K) := by
  unfold Scalar.sign
  rw [ExactNumber.ofNat_zero, ExactNumber.ofNat_one]
  rcases lt_trichotomy x 0 with hneg | rfl | hpos
  · rw [if_neg hneg.not_gt, if_pos hneg, sign_neg hneg, SignType.coe_neg_one]
  · rw [if_neg (lt_irrefl 0), if_neg (lt_irrefl 0), sign_zero, SignType.coe_zero]
  · rw [if_pos hpos, sign_pos hpos, SignType.coe_one]

namespace Proximal

/-- The inverse learning rate plus the penalty on the square. -/
def curvature (p : Params K) (root : K) : K := (p.beta + root) / p.alpha + p.l2

/-- What a step minimizes over the parameters `w`. -/
def objective (p : Params K) (z curvature w : K) : K :=
  z * w + p.l1 * |w| + curvature * w ^ 2 / 2

theorem curvature_pos {p : Params K} (halpha : 0 < p.alpha) (hbeta : 0 < p.beta) (hl2 : 0 ≤ p.l2)
    {root : K} (hroot : 0 ≤ root) : 0 < curvature p root :=
  add_pos_of_pos_of_nonneg (div_pos (add_pos_of_pos_of_nonneg hbeta hroot) halpha) hl2

/-! ## Shrinking -/

variable {p : Params K} {z root : K}

/-- The size of the sum is made smaller by the penalty, down to zero, and its sign is turned. -/
theorem shrink_eq_soft (p : Params K) (z root : K) :
    shrink p z root = -(SignType.sign z * (max (|z| - p.l1) 0 / curvature p root)) := by
  unfold shrink
  rw [ExactNumber.abs_eq, ExactNumber.sign_eq, ExactNumber.ofNat_zero]
  split
  · rename_i hle
    rw [max_eq_right (sub_nonpos.mpr hle), zero_div, mul_zero, neg_zero]
  · rename_i hlt
    rw [max_eq_left (sub_nonneg.mpr (not_le.mp hlt).le)]
    calc (SignType.sign z * p.l1 - z) / curvature p root
        = (SignType.sign z * p.l1 - SignType.sign z * |z|) / curvature p root := by
          rw [sign_mul_abs]
      _ = -(SignType.sign z * ((|z| - p.l1) / curvature p root)) := by ring

theorem shrink_of_abs_le (h : |z| ≤ p.l1) : shrink p z root = 0 := by
  rw [shrink_eq_soft, max_eq_right (sub_nonpos.mpr h), zero_div, mul_zero, neg_zero]

theorem shrink_of_lt_abs (h : p.l1 < |z|) :
    shrink p z root = -(SignType.sign z * ((|z| - p.l1) / curvature p root)) := by
  rw [shrink_eq_soft, max_eq_left (sub_nonneg.mpr h.le)]

/-- Beyond the penalty the parameter has the sign that the sum has not. -/
theorem shrink_mul_neg (hl1 : 0 ≤ p.l1) (hcurvature : 0 < curvature p root) (h : p.l1 < |z|) :
    shrink p z root * z < 0 := by
  have hsize : 0 < (|z| - p.l1) / curvature p root := div_pos (sub_pos.mpr h) hcurvature
  calc shrink p z root * z
      = -((|z| - p.l1) / curvature p root * (SignType.sign z * z)) := by
        rw [shrink_of_lt_abs h]
        ring
    _ = -((|z| - p.l1) / curvature p root * |z|) := by rw [sign_mul_self]
    _ < 0 := neg_neg_of_pos (mul_pos hsize (hl1.trans_lt h))

theorem shrink_eq_zero_iff (hl1 : 0 ≤ p.l1) (hcurvature : 0 < curvature p root) :
    shrink p z root = 0 ↔ |z| ≤ p.l1 := by
  refine ⟨fun hzero => ?_, shrink_of_abs_le⟩
  by_contra hlt
  have hneg := shrink_mul_neg hl1 hcurvature (not_le.mp hlt)
  rw [hzero, zero_mul] at hneg
  exact lt_irrefl 0 hneg

/-! ## Balance -/

/-- At `w` the sum, a slope that the penalty on the size has there and the slope of the square add up
to zero. -/
def Balanced (p : Params K) (z curvature w : K) : Prop :=
  ∃ slope, |slope| ≤ p.l1 ∧ slope * w = p.l1 * |w| ∧ z + slope + curvature * w = 0

theorem shrink_balanced (hl1 : 0 ≤ p.l1) (hcurvature : 0 < curvature p root) :
    Balanced p z (curvature p root) (shrink p z root) := by
  rcases le_or_gt |z| p.l1 with hle | hlt
  · -- At the corner the penalty has a slope that takes up the whole sum.
    refine ⟨-z, (abs_neg z).trans_le hle, ?_, ?_⟩
    · rw [shrink_of_abs_le hle, mul_zero, abs_zero, mul_zero]
    · rw [shrink_of_abs_le hle]
      ring
  · have hsize : 0 < (|z| - p.l1) / curvature p root := div_pos (sub_pos.mpr hlt) hcurvature
    have hz : z ≠ 0 := abs_pos.mp (hl1.trans_lt hlt)
    have hsign : |(SignType.sign z : K)| = 1 := by
      rcases hz.lt_or_gt with hneg | hpos
      · rw [sign_neg hneg, SignType.coe_neg_one, abs_neg, abs_one]
      · rw [sign_pos hpos, SignType.coe_one, abs_one]
    have hsquare : (SignType.sign z : K) * SignType.sign z = 1 := by
      rw [← abs_mul_abs_self, hsign, one_mul]
    refine ⟨-(SignType.sign z * p.l1), ?_, ?_, ?_⟩
    · rw [abs_neg, abs_mul, hsign, one_mul, abs_of_nonneg hl1]
    · rw [shrink_of_lt_abs hlt, abs_neg, abs_mul, hsign, abs_of_pos hsize]
      linear_combination p.l1 * ((|z| - p.l1) / curvature p root) * hsquare
    · have hcancel : curvature p root * shrink p z root = -(SignType.sign z * (|z| - p.l1)) := by
        rw [shrink_of_lt_abs hlt]
        field_simp
      rw [hcancel]
      linear_combination -(sign_mul_abs z)

/-- The objective at any other parameter is larger by at least the square of the distance, times
half of the curvature. -/
theorem Balanced.growth {d w : K} (h : Balanced p z d w) (v : K) :
    objective p z d w + d / 2 * (v - w) ^ 2 ≤ objective p z d v := by
  obtain ⟨slope, hslope, hcorner, hbalance⟩ := h
  -- The penalty is above its tangent of that slope.
  have htangent : slope * v ≤ p.l1 * |v| := by
    calc slope * v ≤ |slope * v| := le_abs_self _
      _ = |slope| * |v| := abs_mul slope v
      _ ≤ p.l1 * |v| := mul_le_mul_of_nonneg_right hslope (abs_nonneg v)
  unfold objective
  linear_combination htangent - hcorner + (w - v) * hbalance

theorem Balanced.objective_lt {d w v : K} (h : Balanced p z d w) (hd : 0 < d) (hne : v ≠ w) :
    objective p z d w < objective p z d v := by
  have hdistance : 0 < d / 2 * (v - w) ^ 2 :=
    mul_pos (half_pos hd) (sq_pos_iff.mpr (sub_ne_zero.mpr hne))
  exact (lt_add_of_pos_right _ hdistance).trans_le (h.growth v)

/-! ## Steps -/

/-- A proximal step stores the only minimizer of the objective that its own channels name, whatever
the channels were before, as long as the curvature is positive. The parameter is zero exactly for
sums up to the penalty on the size, and beyond them it has the other sign. -/
theorem update_minimizes {p : Params ℝ} (hl1 : 0 ≤ p.l1) (w : Proximal ℝ) (x update : ℝ)
    (hcurvature : 0 < curvature p √(w.update p x update).sumSqGrad) :
    let next := w.update p x update
    let d := curvature p √next.sumSqGrad
    (∀ v, v ≠ next.param → objective p next.z d next.param < objective p next.z d v) ∧
      (next.param = 0 ↔ |next.z| ≤ p.l1) ∧ (p.l1 < |next.z| → next.param * next.z < 0) := by
  intro next d
  have hparam : next.param = shrink p next.z √next.sumSqGrad := rfl
  have hbalanced : Balanced p next.z d next.param := shrink_balanced hl1 hcurvature
  refine ⟨fun v hv => hbalanced.objective_lt hcurvature hv, ?_, fun hlt => ?_⟩
  · rw [hparam]
    exact shrink_eq_zero_iff hl1 hcurvature
  · rw [hparam]
    exact shrink_mul_neg hl1 hcurvature hlt

/-- A sum that gets beyond the penalty. -/
theorem update_minimizes_beyond_penalty :
    let p : Params ℝ := ⟨1 / 2, 1, 1, 1 / 4⟩
    let next := Proximal.update p ⟨1 / 4, -1, 16⟩ (1 / 2) 6
    let d := curvature p √next.sumSqGrad
    (0 ≤ p.l1 ∧ 0 < d) ∧ next.z = 3 / 2 ∧ next.param * next.z < 0 ∧
      objective p next.z d next.param < objective p next.z d 0 := by
  intro p next d
  have hl1 : 0 ≤ p.l1 := zero_le_one
  have hd : 0 < d := curvature_pos one_half_pos one_pos (by norm_num [p]) (Real.sqrt_nonneg _)
  have hroots : √(16 : ℝ) = 4 ∧ √(16 + 6 * (1 / 2) * (6 * (1 / 2)) : ℝ) = 5 := by
    constructor
    · rw [show (16 : ℝ) = 4 ^ 2 by norm_num, Real.sqrt_sq (by norm_num)]
    · rw [show (16 + 6 * (1 / 2) * (6 * (1 / 2)) : ℝ) = 5 ^ 2 by norm_num,
        Real.sqrt_sq (by norm_num)]
  have hz : next.z = 3 / 2 := by
    change -1 + 6 * (1 / 2) -
      (√(16 + 6 * (1 / 2) * (6 * (1 / 2))) - √16) / (1 / 2) * (1 / 4 : ℝ) = 3 / 2
    rw [hroots.1, hroots.2]
    norm_num
  obtain ⟨hmin, -, hsign⟩ := update_minimizes hl1 ⟨1 / 4, -1, 16⟩ (1 / 2) 6 hd
  have hopposite : next.param * next.z < 0 := by
    apply hsign
    change 1 < |next.z|
    rw [hz]
    norm_num
  refine ⟨⟨hl1, hd⟩, hz, hopposite, hmin 0 fun hzero => ?_⟩
  rw [← hzero, zero_mul] at hopposite
  exact lt_irrefl 0 hopposite

end Proximal

end OnlineLearning
