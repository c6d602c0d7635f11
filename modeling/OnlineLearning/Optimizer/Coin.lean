import OnlineLearning.Optimizer.Params

/-!
# Coin betting updates

Each feature is a gambler: it bets a fraction of its wealth on the sign of the next gradient.
`Coin.bet` is the bet, `Coin.raw` and `Coin.normalizedSq` are what a feature contributes to a
prediction, and `Coin.update` settles the bet against a gradient.

The stored parameter is the bet divided by the average norm of the examples, so that a
prediction is a dot product with the stored parameters.
-/

namespace OnlineLearning

/-- `negGradSum` is the sum of the negated gradients and `maxGrad` the Lipschitz estimate. -/
structure Coin (R : Type) where
  param : R
  negGradSum : R
  sumAbsGrad : R
  maxAbsX : R
  wealth : R
  maxGrad : R

namespace Coin

variable {R : Type}

def load (g : Vector R 6) : Coin R := ⟨g[0], g[1], g[2], g[3], g[4], g[5]⟩

def channels (w : Coin R) : Vector R 6 :=
  #v[w.param, w.negGradSum, w.sumAbsGrad, w.maxAbsX, w.wealth, w.maxGrad]

@[simp] theorem load_channels (w : Coin R) : load w.channels = w := rfl

variable [Scalar R]

/-- The bet under magnitude estimate `maxAbsX`; none while no gradient or no feature was seen. -/
def bet (p : Params R) (w : Coin R) (maxAbsX : R) : R :=
  let scale := w.maxGrad * maxAbsX
  if 0 < scale then
    (p.alpha + w.wealth) / (scale * (scale + w.sumAbsGrad)) * w.negGradSum
  else 0

/-- The magnitude estimate after a feature of value `x`. -/
def widened (w : Coin R) (x : R) : R := Scalar.maxNum w.maxAbsX (Scalar.abs x)

/-- The bet times the feature, before the prediction is divided by the average norm. -/
def raw (p : Params R) (w : Coin R) (x : R) : R := bet p w (widened w x) * x

/-- The squared feature relative to the magnitude estimate, zero where the estimate is. -/
def normalizedSq (w : Coin R) (x : R) : R :=
  let maxAbsX := widened w x
  if 0 < maxAbsX then x / maxAbsX * (x / maxAbsX) else 0

/-- The channels with both estimates widened to a feature of value `x` and an update. -/
def widen (p : Params R) (w : Coin R) (x update : R) : Coin R :=
  let size := Scalar.abs update
  { w with
    maxAbsX := widened w x
    maxGrad := if w.maxGrad < size then Scalar.maxNum size p.beta else w.maxGrad }

/-- One step: widen the estimates, settle the bet placed under them, store the next one over the
average norm. -/
def update (p : Params R) (average : R) (w : Coin R) (x update : R) : Coin R :=
  let g := update * x
  let wide := widen p w x update
  let settled := { wide with
    negGradSum := wide.negGradSum - g
    sumAbsGrad := wide.sumAbsGrad + Scalar.abs g
    wealth := wide.wealth - g * bet p wide wide.maxAbsX }
  { settled with param := bet p settled settled.maxAbsX / average }

end Coin

end OnlineLearning
