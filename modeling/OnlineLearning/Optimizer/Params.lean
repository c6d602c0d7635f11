import OnlineLearning.Scalar

/-!
# Hyperparameters of the update rules

Every update rule takes the same four numbers. Which of them it reads is its own affair: the
two penalties, for instance, matter to proximal updates only.
-/

namespace OnlineLearning

/-- Learning rate `alpha`, smoothing `beta`, and the penalties on the size (`l1`) and on the
square (`l2`) of a parameter. -/
structure Params (R : Type) where
  alpha : R
  beta : R
  l1 : R
  l2 : R

variable {R : Type} [Scalar R]

/-- How far one more unit of gradient would move the parameter of a feature: the sign of the
feature over its inverse learning rate. -/
def sensitivityTerm (p : Params R) (sumSqGrad x : R) : R :=
  Scalar.sign x / ((p.beta + Scalar.sqrt sumSqGrad) / p.alpha + p.l2)

end OnlineLearning
