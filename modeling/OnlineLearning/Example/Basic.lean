import OnlineLearning.Example.Namespaces
import OnlineLearning.Scalar

/-!
# Examples

An `Example` is a set of features with a label, an importance weight and a slot for the
prediction. A batch is a list of examples: lines that stand for actions, at most one shared line
that is used, and lines that carry feedback.
-/

namespace OnlineLearning

/-- The role of a line in a batch. -/
inductive Role where
  | unset
  | shared
  | action
  | feedback
  deriving DecidableEq, Repr

def Role.name : Role → String
  | unset => "unset"
  | shared => "shared"
  | action => "action"
  | feedback => "feedback"

/-- One logged cost of an action and the probability with which it was chosen. -/
structure LoggedCost (R : Type) where
  cost : R
  action : UInt32
  probability : R
  deriving Repr

namespace LoggedCost

variable {R : Type} [Scalar R]

/-- A cost was observed: it is not the stand-in for an unknown cost, and the action could have
been chosen. -/
def isObserved (c : LoggedCost R) : Bool := c.cost != Scalar.largest && 0 < c.probability

end LoggedCost

/-- A regression target, absent in an unlabeled example, or the logged costs of a bandit line. -/
inductive Label (R : Type) where
  | simple (target : Option R)
  | bandit (costs : List (LoggedCost R))
  deriving Repr

structure ActionScore (R : Type) where
  action : UInt32
  score : R
  deriving Repr

/-- What learners write into an example: a number, or the ranking of a whole batch. -/
inductive Prediction (R : Type) where
  | scalar (value : R)
  | ranking (scores : List (ActionScore R))
  deriving Repr

structure Example (R : Type) where
  namespaces : Namespaces R
  label : Label R
  weight : R
  role : Role
  /-- Added to every index; selects the problem that a shared table is used for. -/
  offset : UInt64
  /-- Predicted and scored, but never learned. -/
  holdout : Bool
  /-- The prediction before it is moved into the bounds and linked. -/
  partialPrediction : R
  prediction : Prediction R
  loss : R
  /-- The number of features that interactions added. -/
  generated : Nat
  deriving Repr

namespace Example

variable {R : Type} [Scalar R]

/-- An example without features and label, of unit weight. -/
def blank : Example R where
  namespaces := ∅
  label := .simple none
  weight := 1
  role := .unset
  offset := 0
  holdout := false
  partialPrediction := 0
  prediction := .scalar 0
  loss := 0
  generated := 0

instance : Inhabited (Example R) := ⟨blank⟩

omit [Scalar R] in
/-- The regression target, if the label is one and is present. -/
def target? (ec : Example R) : Option R :=
  match ec.label with
  | .simple target => target
  | .bandit _ => none

/-- The first observed cost. -/
def observed? (ec : Example R) : Option (LoggedCost R) :=
  match ec.label with
  | .simple _ => none
  | .bandit costs => costs.find? (·.isObserved)

def hasObservedCost (ec : Example R) : Bool := ec.observed?.isSome

/-- Overwrites the first observed cost of a list. -/
def replaceObserved (cost : R) : List (LoggedCost R) → List (LoggedCost R)
  | [] => []
  | c :: rest => if c.isObserved then { c with cost } :: rest else c :: replaceObserved cost rest

/-- Overwrites the first observed cost, if there is one. -/
def setObservedCost (ec : Example R) (cost : R) : Example R :=
  match ec.label with
  | .simple _ => ec
  | .bandit costs => { ec with label := .bandit (replaceObserved cost costs) }

/-- The predicted number; zero where the slot holds a ranking. -/
def scalar (ec : Example R) : R :=
  match ec.prediction with
  | .scalar value => value
  | .ranking _ => 0

omit [Scalar R] in
def ranking? (ec : Example R) : Option (List (ActionScore R)) :=
  match ec.prediction with
  | .scalar _ => none
  | .ranking scores => some scores

omit [Scalar R] in
def numFeatures (ec : Example R) : Nat := ec.namespaces.size

/-! ## Reuse

Nodes that make examples of their own make them in one example, which they clear and fill anew. -/

/-- Takes everything off an example. -/
def clear (ec : Example R) : Example R :=
  { ec with
    namespaces := ∅
    label := .simple none
    weight := 1
    role := .unset
    offset := 0
    holdout := false
    partialPrediction := 0
    prediction := .scalar 0
    loss := 0
    generated := 0 }

/-- Nothing of an example outlives a clearing. -/
@[simp] theorem clear_eq_blank (ec : Example R) : ec.clear = blank := rfl

omit [Scalar R] in
/-- Appends the features of another example, namespace by namespace. -/
def copyNamespaces (ec source : Example R) : Example R :=
  { ec with namespaces := ec.namespaces ∪ source.namespaces }

omit [Scalar R] in
/-- Appends one feature. -/
def push (ec : Example R) (name : UInt8) (f : Feature R) : Example R :=
  { ec with namespaces := ec.namespaces.push name f }

end Example

/-- The lines of one decision. -/
abbrev Batch (R : Type) := List (Example R)

end OnlineLearning
