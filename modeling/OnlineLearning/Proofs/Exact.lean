import Mathlib.Analysis.SpecialFunctions.Log.Basic
import OnlineLearning.Scalar

/-!
# Exact numbers

In an ordered field the rules of a learner run without rounding. A field does not say what roots,
exponentials and logarithms are: nothing is assumed of these functions.

* `ExactNumber`: ordered fields with such functions, the real numbers for one;
* `ExactNumber.scalar` and `ExactNumber.widening`: they are narrow and wide numbers at once;
* `ExactNumber.ofNat_eq` with `ExactNumber.ofNat_zero` and `ExactNumber.ofNat_one`,
  `ExactNumber.abs_eq`, `ExactNumber.maxNum_eq` and `ExactNumber.minNum_eq`: the rules in the words
  of the field.
-/

/-- An ordered field with whatever else the rules of a learner name. -/
class ExactNumber (K : Type) extends Field K, LinearOrder K, IsStrictOrderedRing K where
  sqrt : K → K
  exp : K → K
  ln : K → K
  largest : K

noncomputable instance : ExactNumber ℝ where
  sqrt := Real.sqrt
  exp := Real.exp
  ln := Real.log
  largest := 2 ^ 128 - 2 ^ 104

namespace OnlineLearning.ExactNumber

variable {K : Type} [ExactNumber K]

instance (priority := low) number : Number K where
  ofNat n := n
  decLt := inferInstance
  decLe := inferInstance

/-- No number of a field is special. -/
instance (priority := low) scalar : Scalar K where
  sqrt := ExactNumber.sqrt
  exp := ExactNumber.exp
  ln := ExactNumber.ln
  abs x := |x|
  isNaN _ := false
  isFinite _ := true
  largest := ExactNumber.largest
  totalLe a b := a ≤ b

/-- Nothing is lost between narrow and wide numbers. -/
instance (priority := low) widening : Widening K K where
  widen x := x
  narrow x := x

theorem ofNat_eq (n : Nat) : @OfNat.ofNat K n (Number.instOfNat n) = (n : K) := rfl

theorem ofNat_zero : @OfNat.ofNat K (nat_lit 0) (Number.instOfNat (nat_lit 0)) = 0 := Nat.cast_zero

theorem ofNat_one : @OfNat.ofNat K (nat_lit 1) (Number.instOfNat (nat_lit 1)) = 1 := Nat.cast_one

theorem abs_eq (x : K) : Scalar.abs x = |x| := rfl

theorem maxNum_eq (a b : K) : Scalar.maxNum a b = max a b := (max_def a b).symm

theorem minNum_eq (a b : K) : Scalar.minNum a b = min a b :=
  (min_def b a).symm.trans (min_comm b a)

end OnlineLearning.ExactNumber
