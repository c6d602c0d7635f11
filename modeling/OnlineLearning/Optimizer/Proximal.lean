import OnlineLearning.Optimizer.Params

/-!
# Proximal updates

The channels of a feature under proximal follow-the-regularized-leader: the active parameter,
the shifted gradient sum `z` and the sum of squared gradients. `Proximal.update` is one step;
the parameter it returns minimizes `z * w + l1 * |w| + d * w ^ 2 / 2` over `w`, where `d` is the
inverse learning rate plus `l2`.
-/

namespace OnlineLearning

structure Proximal (R : Type) where
  param : R
  z : R
  sumSqGrad : R

namespace Proximal

variable {R : Type}

def load (g : Vector R 3) : Proximal R := ⟨g[0], g[1], g[2]⟩

def channels (w : Proximal R) : Vector R 3 := #v[w.param, w.z, w.sumSqGrad]

@[simp] theorem load_channels (w : Proximal R) : load w.channels = w := rfl

variable [Scalar R]

/-- The parameter that `z` and the root of the squared gradients ask for. -/
def shrink (p : Params R) (z rootSqGrad : R) : R :=
  if Scalar.abs z ≤ p.l1 then 0
  else (Scalar.sign z * p.l1 - z) / ((p.beta + rootSqGrad) / p.alpha + p.l2)

/-- One step on a feature of value `x`; `update` is the derivative of the loss times the weight
of the example. -/
def update (p : Params R) (w : Proximal R) (x update : R) : Proximal R :=
  let g := update * x
  let sumSqGrad := w.sumSqGrad + g * g
  let root := Scalar.sqrt sumSqGrad
  let sigma := (root - Scalar.sqrt w.sumSqGrad) / p.alpha
  let z := w.z + g - sigma * w.param
  { param := shrink p z root, z, sumSqGrad }

end Proximal

end OnlineLearning
