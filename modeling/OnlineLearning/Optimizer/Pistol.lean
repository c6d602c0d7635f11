import OnlineLearning.Optimizer.Params

/-!
# Scale-adaptive exponential updates

Under this rule the parameter of a feature is a function of its gradient statistics and is
recomputed when an example is learned: `Pistol.predict` widens the magnitude estimate and
refreshes the parameter from the statistics so far, `Pistol.update` adds the new gradient.
-/

namespace OnlineLearning

structure Pistol (R : Type) where
  param : R
  z : R
  sumAbsGrad : R
  maxAbsX : R

namespace Pistol

variable {R : Type}

def load (g : Vector R 4) : Pistol R := ⟨g[0], g[1], g[2], g[3]⟩

def channels (w : Pistol R) : Vector R 4 := #v[w.param, w.z, w.sumAbsGrad, w.maxAbsX]

@[simp] theorem load_channels (w : Pistol R) : load w.channels = w := rfl

variable [Scalar R]

/-- The parameter that the statistics ask for under magnitude estimate `maxAbsX`; zero where
the estimate is. -/
def refreshed (p : Params R) (w : Pistol R) (maxAbsX : R) : R :=
  let denominator := p.alpha * maxAbsX * (w.sumAbsGrad + maxAbsX)
  if 0 < denominator then
    let rate := 1 / denominator
    let squaredTheta := w.z * w.z
    Scalar.sqrt w.sumAbsGrad * p.beta * w.z * Scalar.correctedExp (squaredTheta / 2 * rate) * rate
  else 0

/-- The channels with the magnitude estimate widened to `x` and the parameter refreshed. -/
def predict (p : Params R) (w : Pistol R) (x : R) : Pistol R :=
  let maxAbsX := Scalar.maxNum w.maxAbsX (Scalar.abs x)
  { w with param := refreshed p w maxAbsX, maxAbsX }

/-- The contribution of a feature of value `x` to the prediction. -/
def contribution (w : Pistol R) (x : R) : R := w.param * x

/-- The gradient statistics after one more gradient. -/
def update (w : Pistol R) (x update : R) : Pistol R :=
  let g := update * x
  { w with z := w.z - g, sumAbsGrad := w.sumAbsGrad + Scalar.abs g }

end Pistol

end OnlineLearning
