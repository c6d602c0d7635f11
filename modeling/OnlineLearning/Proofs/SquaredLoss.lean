import Mathlib
import OnlineLearning.Proofs.Bounds
import OnlineLearning.Proofs.Exact

/-!
# The squared loss and its derivative

Between the bounds of the labels the squared loss is a parabola, and outside of them it goes on
along its tangents. Its five branches are one formula in the prediction and the number between the
bounds that is nearest to it, and so is its derivative.

* `ExactNumber.clamp_separates`: what is between the bounds and the prediction are on two sides of
  the nearest number;
* `LossFunction.loss_squared` and `LossFunction.derivative_squared`: loss and derivative by this
  number;
* `LossFunction.squared_subgradient`: the loss is convex, and the derivative is a subgradient of it.
-/

namespace OnlineLearning

variable {K : Type} [ExactNumber K] {low high label : K}

/-! ## Numbers between bounds -/

namespace ExactNumber

theorem clamp_eq (low high x : K) : clamp low high x = min (max x low) high := by
  rw [clamp, maxNum_eq, minNum_eq]

theorem clamp_of_le_low (h : low ≤ high) {x : K} (hx : x ≤ low) : clamp low high x = low := by
  rw [clamp_eq, max_eq_right hx, min_eq_left h]

theorem clamp_of_mem {x : K} (hx : x ∈ Set.Icc low high) : clamp low high x = x := by
  rw [clamp_eq, max_eq_left hx.1, min_eq_left hx.2]

theorem clamp_of_high_le {x : K} (hx : high ≤ x) : clamp low high x = high := by
  rw [clamp_eq]
  exact min_eq_right (hx.trans (le_max_left _ _))

theorem clamp_mem (h : low ≤ high) (x : K) : clamp low high x ∈ Set.Icc low high := by
  rw [clamp_eq]
  exact ⟨le_min (le_max_right _ _) h, min_le_right _ _⟩

/-- What is between the bounds is not on the side of the nearest number on which `x` is. -/
theorem clamp_separates {y : K} (hy : y ∈ Set.Icc low high) (x : K) :
    0 ≤ (clamp low high x - y) * (x - clamp low high x) := by
  obtain ⟨hlow, hhigh⟩ := hy
  rcases le_total x low with hbelow | hbelow
  · rw [clamp_of_le_low (hlow.trans hhigh) hbelow]
    exact mul_nonneg_of_nonpos_of_nonpos (sub_nonpos.mpr hlow) (sub_nonpos.mpr hbelow)
  rcases le_total high x with habove | habove
  · rw [clamp_of_high_le habove]
    exact mul_nonneg (sub_nonneg.mpr hhigh) (sub_nonneg.mpr habove)
  · rw [clamp_of_mem ⟨hbelow, habove⟩, sub_self, mul_zero]

end ExactNumber

/-! ## Loss and derivative -/

namespace LossFunction

theorem derivative_squared (low high p label : K) :
    derivative .squared low high p label = 2 * (clamp low high p - label) := rfl

/-- At the nearest number the loss is a square, and from there on it follows the tangent. A label at
a bound makes the tangent there flat, as its branches say. -/
theorem loss_squared (h : low ≤ high) (p label : K) :
    loss .squared low high p label = (clamp low high p - label) ^ 2 +
      2 * (clamp low high p - label) * (p - clamp low high p) := by
  unfold loss
  dsimp only
  split
  · rename_i hwithin
    rw [ExactNumber.clamp_of_mem ⟨hwithin.2, hwithin.1⟩]
    ring
  rename_i hout
  split
  · rename_i hbelow
    rw [ExactNumber.clamp_of_le_low h hbelow.le]
    split
    · rename_i hlabel
      rw [eq_of_beq hlabel, ExactNumber.ofNat_eq]
      ring
    · rw [ExactNumber.ofNat_eq]
      ring
  · rename_i hlow
    have habove : high ≤ p := (not_le.mp fun hhigh => hout ⟨hhigh, not_lt.mp hlow⟩).le
    rw [ExactNumber.clamp_of_high_le habove]
    split
    · rename_i hlabel
      rw [eq_of_beq hlabel, ExactNumber.ofNat_eq]
      ring
    · rw [ExactNumber.ofNat_eq]
      ring

theorem loss_squared_nonneg (hlabel : label ∈ Set.Icc low high) (p : K) :
    0 ≤ loss .squared low high p label := by
  have hbetween := ExactNumber.clamp_separates hlabel p
  rw [loss_squared (hlabel.1.trans hlabel.2)]
  linear_combination 2 * hbetween + sq_nonneg (clamp low high p - label)

/-- The loss is above its tangents. -/
theorem tangent_le (h : low ≤ high) (p q label : K) :
    loss .squared low high p label + derivative .squared low high p label * (q - p) ≤
      loss .squared low high q label := by
  have hbetween := ExactNumber.clamp_separates (ExactNumber.clamp_mem h p) q
  rw [loss_squared h, loss_squared h, derivative_squared]
  linear_combination 2 * hbetween + sq_nonneg (clamp low high q - clamp low high p)

/-- A function above its tangents is convex. -/
theorem convexOn_of_tangent_le {f slope : K → K}
    (h : ∀ p q, f p + slope p * (q - p) ≤ f q) : ConvexOn K Set.univ f := by
  refine ⟨convex_univ, ?_⟩
  intro p _ q _ a b ha hb hab
  simp only [smul_eq_mul]
  -- Both ends are above the tangent at the point between them.
  have hp := mul_le_mul_of_nonneg_left (h (a * p + b * q) p) ha
  have hq := mul_le_mul_of_nonneg_left (h (a * p + b * q) q) hb
  obtain rfl : b = 1 - a := eq_sub_of_add_eq' hab
  linear_combination hp + hq

/-- The squared loss and its derivative belong together. With the label between the bounds the loss
is nowhere negative, it is convex, and the derivative is a subgradient of it at every prediction,
outside of the bounds as well as between them. -/
theorem squared_subgradient (hlow : low ≤ label) (hhigh : label ≤ high) :
    (∀ p, 0 ≤ loss .squared low high p label) ∧
      (∀ p q, loss .squared low high p label + derivative .squared low high p label * (q - p) ≤
        loss .squared low high q label) ∧
      ConvexOn K Set.univ fun p => loss .squared low high p label := by
  have htangent (p q : K) := tangent_le (hlow.trans hhigh) p q label
  exact ⟨loss_squared_nonneg ⟨hlow, hhigh⟩, htangent, convexOn_of_tangent_le htangent⟩

/-- A label at its upper bound, under the tangent at a prediction below both bounds. -/
theorem squared_subgradient_across :
    ((0 : ℝ) ≤ 1 ∧ (1 : ℝ) ≤ 1) ∧
      loss .squared (0 : ℝ) 1 (-2) 1 + derivative .squared (0 : ℝ) 1 (-2) 1 * (3 - -2) ≤
        loss .squared (0 : ℝ) 1 3 1 := by
  have hlow : (0 : ℝ) ≤ 1 := zero_le_one
  exact ⟨⟨hlow, le_refl 1⟩, (squared_subgradient hlow (le_refl 1)).2.1 (-2) 3⟩

end LossFunction

end OnlineLearning
