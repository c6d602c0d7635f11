import OnlineLearning.Scalar

/-!
# Losses and links

A loss measures a prediction against a label, inside the range of labels seen so far. A link
turns the raw prediction into the published one.

* `LossFunction.loss` and `LossFunction.derivative` take the bounds of the label range; outside
  of it the squared loss goes on along its tangent.
* `LinkFunction.apply` is the output transformation.
-/

namespace OnlineLearning

open Scalar

inductive LossFunction where
  | squared
  | logistic
  deriving DecidableEq, Repr

namespace LossFunction

def name : LossFunction → String
  | squared => "squared"
  | logistic => "logistic"

/-- Whether the prediction bounds follow the labels. -/
def tracksLabelRange : LossFunction → Bool
  | squared => true
  | logistic => false

variable {R : Type} [Scalar R]

/-- The prediction bounds before any label. -/
def initialBounds : LossFunction → R × R
  | squared => (0, 0)
  | logistic => (-50, 50)

/-- The loss of a prediction under bounds `low` and `high`. -/
def loss (f : LossFunction) (low high prediction label : R) : R :=
  match f with
  | squared =>
    if prediction ≤ high ∧ low ≤ prediction then
      (prediction - label) * (prediction - label)
    else if prediction < low then
      if label == low then 0
      else (label - low) * (label - low) + 2 * (label - low) * (low - prediction)
    else if label == high then 0
    else (high - label) * (high - label) + 2 * (high - label) * (prediction - high)
  | logistic => ln (1 + correctedExp (-label * prediction))

/-- The derivative of the loss in the prediction, which is first moved between the bounds. -/
def derivative (f : LossFunction) (low high prediction label : R) : R :=
  match f with
  | squared => 2 * (minNum (maxNum prediction low) high - label)
  | logistic => -label / (1 + correctedExp (label * prediction))

end LossFunction

inductive LinkFunction where
  | identity
  | logistic
  | glf1
  | poisson
  deriving DecidableEq, Repr

namespace LinkFunction

def name : LinkFunction → String
  | identity => "identity"
  | logistic => "logistic"
  | glf1 => "glf1"
  | poisson => "poisson"

variable {R : Type} [Scalar R]

/-- The published prediction of a raw one. -/
def apply (link : LinkFunction) (raw : R) : R :=
  match link with
  | identity => raw
  | logistic => 1 / (1 + correctedExp (-raw))
  | glf1 => 2 / (1 + correctedExp (-raw)) - 1
  | poisson => correctedExp raw

end LinkFunction

end OnlineLearning
