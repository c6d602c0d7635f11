/-!
# Numbers of a learner

A learner works with narrow numbers (features, weights, predictions) and keeps its running
totals in wide ones. Its rules are written once, over the classes of this module:

* `Number`: the field operations, the order tests and the whole numbers;
* `Scalar`: a `Number` with square root, exponential, logarithm and the tests for special values;
* `Widening`: the passage between narrow and wide numbers.

At `Float32` and `Float` the rules run in IEEE arithmetic, in the order in which they are
written; a passage between them rounds once, to the nearest number (`toFormat`). At an ordered field
the rules say what they mean without rounding.
-/

namespace OnlineLearning

/-- Field operations, decidable order tests and whole numbers. Nothing is assumed of them. -/
class Number (R : Type) extends Add R, Sub R, Mul R, Div R, Neg R, LT R, LE R, BEq R where
  ofNat : Nat → R
  decLt : DecidableLT R
  decLe : DecidableLE R

namespace Number

variable {R : Type} [Number R]

instance (priority := low) instOfNat (n : Nat) : OfNat R n := ⟨Number.ofNat n⟩

instance (priority := low) instDecidableLT : DecidableLT R := Number.decLt

instance (priority := low) instDecidableLE : DecidableLE R := Number.decLe

end Number

/-- The numbers that features, weights and predictions are made of. -/
class Scalar (R : Type) extends Number R where
  sqrt : R → R
  exp : R → R
  ln : R → R
  abs : R → R
  isNaN : R → Bool
  isFinite : R → Bool
  /-- The largest finite number; a cost of this size stands for an unknown cost. -/
  largest : R
  /-- A total order that agrees with `<` and also places signed zeros and NaN. -/
  totalLe : R → R → Bool

namespace Scalar

variable {R : Type} [Scalar R]

/-- The larger of two numbers; a NaN gives way to the other number, and of two equal numbers
(zeros may differ in sign) it is the second. -/
def maxNum (a b : R) : R :=
  if isNaN a then b else if a ≤ b then b else a

/-- The smaller of two numbers; a NaN gives way to the other number, and of two equal numbers
(zeros may differ in sign) it is the second. -/
def minNum (a b : R) : R :=
  if isNaN a then b else if b ≤ a then b else a

/-- The sign as a number, zero for a zero and for a NaN. -/
def sign (w : R) : R :=
  if 0 < w then 1 else if w < 0 then -1 else 0

/-- The exponential with its exponent cut at 88, so that it never overflows. -/
def correctedExp (exponent : R) : R := exp (minNum exponent 88)

end Scalar

/-- Wide numbers `W` for the running totals over narrow numbers `R`. -/
class Widening (R : Type) (W : outParam Type) where
  widen : R → W
  narrow : W → R

/-- The bits of a binary32 number as an unsigned key in total order: negative numbers come
first and are reversed. -/
def totalKey (x : Float32) : UInt32 :=
  let bits := x.toBits
  if bits < 0x80000000 then bits ||| 0x80000000 else ~~~bits

instance : Number Float32 where
  ofNat := Float32.ofNat
  decLt := inferInstance
  decLe := inferInstance

instance : Number Float where
  ofNat := Float.ofNat
  decLt := inferInstance
  decLe := inferInstance

instance : Scalar Float32 where
  sqrt := Float32.sqrt
  exp := Float32.exp
  ln := Float32.log
  abs := Float32.abs
  isNaN := Float32.isNaN
  isFinite := Float32.isFinite
  largest := Float32.ofBits 0x7F7FFFFF
  totalLe a b := totalKey a ≤ totalKey b

open Float.Model in
/-- The number of a format that is nearest to a number; ties go to even mantissas. -/
def toFormat (spec : Format) : UnpackedFloat → UnpackedFloat
  | .finite sign mantissa exponent _ => .round spec sign mantissa exponent
  | x => x

instance : Widening Float32 Float where
  widen x := .ofModel (.pack (toFormat .binary64 x.toModel.unpack))
  narrow x := .ofModel (.pack (toFormat .binary32 x.toModel.unpack))

end OnlineLearning
