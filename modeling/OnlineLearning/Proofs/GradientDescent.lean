import Mathlib
import OnlineLearning.Optimizer.Proximal
import OnlineLearning.Proofs.Exact
import OnlineLearning.Weights.Table

/-!
# Proximal steps without penalties

A proximal step adds the gradient to a shifted sum and recovers the parameter from that. Without
penalties this is gradient descent, with a rate that falls as the squared gradients add up: the shift
by which a step changes the sum is what the fall of the rate takes from the parameter.

* `Proximal.descend` is what moves make of a zeroed group;
* `Proximal.Dual` relates the shifted sum to the parameter; `Proximal.Dual.update` says that a move
  keeps the relation and is a step of gradient descent;
* `Proximal.descend_move`: so is every move, after any others.
-/

namespace OnlineLearning.Proximal

/-- One update of a feature, with the derivative that it is scaled by. -/
structure Move (R : Type) where
  x : R
  update : R

def Move.gradient {R : Type} [Mul R] (m : Move R) : R := m.update * m.x

/-- What moves make of the channels of a zeroed group. -/
def descend {R : Type} [Scalar R] (p : Params R) (moves : List (Move R)) : Proximal R :=
  moves.foldl (fun w m => w.update p m.x m.update) (load WeightTable.zeroGroup)

theorem descend_append {R : Type} [Scalar R] (p : Params R) (before : List (Move R))
    (last : Move R) :
    descend p (before ++ [last]) = (descend p before).update p last.x last.update := by
  simp [descend]

/-- The sum that `w` holds is the one of which its parameter is recovered. -/
def Dual (p : Params ℝ) (w : Proximal ℝ) : Prop :=
  w.z = -w.param * (p.beta + √w.sumSqGrad) / p.alpha

section

variable {p : Params ℝ} {w : Proximal ℝ} (halpha : 0 < p.alpha) (hl1 : p.l1 = 0) (hl2 : p.l2 = 0)
include halpha hl1 hl2

/-- Without penalties only a sum of zero gives a parameter of zero. -/
theorem shrink_eq {root : ℝ} (hroot : 0 < p.beta + root) (z : ℝ) :
    shrink p z root = -z * p.alpha / (p.beta + root) := by
  have hne := halpha.ne'
  have hroot' := hroot.ne'
  unfold shrink
  rw [hl1, hl2, ExactNumber.abs_eq, mul_zero, zero_sub, add_zero, ExactNumber.ofNat_eq, Nat.cast_zero]
  split
  · rename_i hz
    rw [abs_nonpos_iff.mp hz, neg_zero, zero_mul, zero_div]
  · field_simp

/-- A move keeps the relation of sum and parameter, and is a step of gradient descent. -/
theorem Dual.update (hbeta : 0 < p.beta) (h : Dual p w) (x update : ℝ) :
    let next := w.update p x update
    next.param = w.param - p.alpha * (update * x) / (p.beta + √next.sumSqGrad) ∧ Dual p next := by
  intro next
  have hrate : 0 < p.beta + √next.sumSqGrad := add_pos_of_pos_of_nonneg hbeta (Real.sqrt_nonneg _)
  have hparam : next.param = -next.z * p.alpha / (p.beta + √next.sumSqGrad) :=
    shrink_eq halpha hl1 hl2 hrate next.z
  -- The old root leaves the sum, so that the old parameter stands at the new one.
  have hz : next.z = update * x - w.param * (p.beta + √next.sumSqGrad) / p.alpha := by
    have hsum : next.z = w.z + update * x - (√next.sumSqGrad - √w.sumSqGrad) / p.alpha * w.param :=
      rfl
    rw [hsum, h]
    ring
  have hne := halpha.ne'
  have hrate' := hrate.ne'
  constructor
  · rw [hparam, hz]
    field_simp
    ring
  · unfold Dual
    rw [hparam]
    field_simp

theorem descend_dual (hbeta : 0 < p.beta) (moves : List (Move ℝ)) : Dual p (descend p moves) := by
  induction moves using List.reverseRecOn with
  | nil => simp [Dual, descend, load, WeightTable.zeroGroup, ExactNumber.ofNat_eq]
  | append_singleton before last ih =>
    rw [descend_append]
    exact (ih.update halpha hl1 hl2 hbeta last.x last.update).2

end

theorem sumSqGrad_descend (p : Params ℝ) (moves : List (Move ℝ)) :
    (descend p moves).sumSqGrad = (moves.map fun m => m.gradient ^ 2).sum := by
  induction moves using List.reverseRecOn with
  | nil => simp [descend, load, WeightTable.zeroGroup, ExactNumber.ofNat_eq]
  | append_singleton before last ih =>
    rw [descend_append, List.map_append, List.sum_append, ← ih, List.map_singleton,
      List.sum_singleton, sq]
    rfl

/-- Without penalties, proximal updates are gradient descent with a rate that falls as the squared
gradients add up: after every move the third channel is their sum, the parameter has gone down the
gradient at that rate, and the shifted sum is the parameter over the rate, turned around. -/
theorem descend_move {p : Params ℝ} (halpha : 0 < p.alpha) (hbeta : 0 < p.beta) (hl1 : p.l1 = 0)
    (hl2 : p.l2 = 0) (before : List (Move ℝ)) (last : Move ℝ) :
    let w := descend p before
    let next := descend p (before ++ [last])
    next.sumSqGrad = ((before ++ [last]).map fun m => m.gradient ^ 2).sum ∧
      next.param = w.param - p.alpha * last.gradient / (p.beta + √next.sumSqGrad) ∧
      next.z = -next.param * (p.beta + √next.sumSqGrad) / p.alpha := by
  intro w next
  have hdual := descend_dual halpha hl1 hl2 hbeta before
  obtain ⟨hparam, hnext⟩ := hdual.update halpha hl1 hl2 hbeta last.x last.update
  rw [← descend_append] at hparam hnext
  exact ⟨sumSqGrad_descend p _, hparam, hnext⟩

/-- A move down and one up, at the default rates. -/
theorem descend_move_down_up :
    let p : Params ℝ := ⟨1 / 200, 1 / 10, 0, 0⟩
    let next := descend p [⟨1, -2⟩, ⟨1 / 2, 3⟩]
    (0 < p.alpha ∧ 0 < p.beta ∧ p.l1 = 0 ∧ p.l2 = 0) ∧ next.sumSqGrad = (-2) ^ 2 + (3 / 2) ^ 2 ∧
      next.param = (descend p [⟨1, -2⟩]).param -
        1 / 200 * (3 / 2) / (1 / 10 + √((-2) ^ 2 + (3 / 2) ^ 2)) := by
  intro p next
  have halpha : 0 < p.alpha := by norm_num [p]
  have hbeta : 0 < p.beta := by norm_num [p]
  obtain ⟨hsum, hparam, -⟩ := descend_move halpha hbeta rfl rfl [⟨1, -2⟩] ⟨1 / 2, 3⟩
  have hlast : Move.gradient (⟨1 / 2, 3⟩ : Move ℝ) = 3 / 2 := by norm_num [Move.gradient]
  have hsquares : next.sumSqGrad = (-2) ^ 2 + (3 / 2) ^ 2 := by
    refine hsum.trans ?_
    norm_num [Move.gradient]
  refine ⟨⟨halpha, hbeta, rfl, rfl⟩, hsquares, hparam.trans ?_⟩
  rw [hlast, show descend p ([⟨1, -2⟩] ++ [⟨1 / 2, 3⟩]) = next from rfl, hsquares]

end OnlineLearning.Proximal
