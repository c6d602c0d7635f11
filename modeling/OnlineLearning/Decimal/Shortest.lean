/-!
# Shortest decimals

A binary floating-point number is read back from every decimal that is nearer to it than to any
other. `shortest` picks, among those with the fewest digits, the decimal nearest to the number.

* `Binary.decode` splits the bits of a number into sign and magnitude;
* `Binary.shortest` tries the grids of 1, 2, 3, … digits, on each of which only the two
  neighbours of the number can be hits.
-/

namespace OnlineLearning

/-- An IEEE format: the bits of the fraction and those of the exponent. -/
structure BinaryFormat where
  fractionBits : Nat
  exponentBits : Nat
  deriving DecidableEq, Repr

def binary32 : BinaryFormat := ⟨23, 8⟩

def binary64 : BinaryFormat := ⟨52, 11⟩

namespace BinaryFormat

/-- The leading bit of the mantissa of a normal number, which is not stored. -/
def hiddenBit (f : BinaryFormat) : Nat := Nat.pow 2 f.fractionBits

/-- The stored exponent of infinities and NaN. -/
def specialExponent (f : BinaryFormat) : Nat := Nat.pow 2 f.exponentBits - 1

end BinaryFormat

/-- The positive number `mantissa * 2 ^ exponent`. The distance to the number below is half the
distance to the number above when `nearBelow` is set. -/
structure Binary where
  mantissa : Nat
  exponent : Int
  nearBelow : Bool
  deriving DecidableEq, Repr

inductive Magnitude where
  | zero
  | finite (value : Binary)
  | infinite
  | notANumber
  deriving DecidableEq, Repr

/-- The decimal `digits * 10 ^ exponent`. -/
structure Decimal where
  digits : Nat
  exponent : Int
  deriving DecidableEq, Repr

/-- Which of two nearest decimals is taken. -/
inductive Tie where
  | up
  | even
  deriving DecidableEq, Repr

namespace Binary

/-- The sign (set for negative numbers) and the magnitude of a bit pattern. -/
def decode (f : BinaryFormat) (bits : Nat) : Bool × Magnitude :=
  let fraction := bits % f.hiddenBit
  let biased := bits / f.hiddenBit % (f.specialExponent + 1)
  let negative := bits / (f.hiddenBit * (f.specialExponent + 1)) % 2 == 1
  let bias : Int := f.specialExponent / 2
  let magnitude :=
    if biased == f.specialExponent then
      if fraction == 0 then .infinite else .notANumber
    else if biased == 0 then
      if fraction == 0 then .zero else .finite ⟨fraction, 1 - bias - f.fractionBits, false⟩
    else
      .finite ⟨f.hiddenBit + fraction, biased - bias - f.fractionBits,
        fraction == 0 && 1 < biased⟩
  (negative, magnitude)

/-- The number of decimal digits, none for zero. -/
def digitCount (n : Nat) : Nat := if n = 0 then 0 else digitCount (n / 10) + 1

/-- The exponent of the leading decimal digit of the positive quotient `num / den`. -/
def leadingExponent (num den : Nat) : Int :=
  if den ≤ num then (digitCount (num / den) : Int) - 1
  else -(digitCount ((den + num - 1) / num - 1) : Int)

/-- A power, one if the exponent is negative. -/
def power (base : Nat) (exponent : Int) : Nat := Nat.pow base exponent.toNat

/-- The point of the grid of `n` digits that reads back as `v`: of the two neighbours of `v` the
one inside the interval around it, the nearer one if both are. -/
def onGrid? (v : Binary) (tie : Tie) (n : Nat) : Option Decimal :=
  -- everything is counted in quarters of the distance between two mantissas
  let quarters := 4 * v.mantissa
  let low := if v.nearBelow then quarters - 1 else quarters - 2
  let high := quarters + 2
  let scale := v.exponent - 2
  let lead := leadingExponent (quarters * power 2 scale) (power 2 (-scale))
  let spacing := lead - n + 1
  let a := power 2 scale * power 10 (-spacing)
  let b := power 2 (-scale) * power 10 spacing
  let below := quarters * a / b
  let hit (k : Nat) : Bool :=
    if v.mantissa % 2 == 0 then low * a ≤ k * b && k * b ≤ high * a
    else low * a < k * b && k * b < high * a
  let rest := quarters * a - below * b
  let upward : Bool := match tie with
    | .up => b ≤ 2 * rest
    | .even => b < 2 * rest || (b == 2 * rest && below % 2 == 1)
  let pick (k : Nat) : Option Decimal := if hit k then some ⟨k, spacing⟩ else none
  if upward then pick (below + 1) <|> pick below else pick below <|> pick (below + 1)

/-- The nearest of the shortest decimals that read back as `v`. Seventeen digits suffice for
both formats. -/
def shortest (v : Binary) (tie : Tie) : Decimal :=
  ((List.range 17).findSome? fun n => v.onGrid? tie (n + 1)).getD ⟨0, 0⟩

end Binary

end OnlineLearning
