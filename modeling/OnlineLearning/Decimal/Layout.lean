import OnlineLearning.Decimal.Shortest

/-!
# Texts of floating-point numbers

Every text format writes the shortest decimal of a number; `NumberStyle` records what else it
decides. `NumberStyle.write32` and `NumberStyle.write64` write a number in a style.
-/

namespace OnlineLearning

structure NumberStyle where
  tie : Tie
  /-- Whether a number whose leading digit has this exponent is written without exponent. -/
  isPositional : Int → Bool
  /-- Written before a positive exponent. -/
  exponentSign : String
  infinity : String
  negativeInfinity : String
  notANumber : String

namespace NumberStyle

/-- Digits with a point, and at least one digit on both sides of it. `lead` is the exponent of
the first digit. -/
def positional (digits : List Char) (lead : Int) : String :=
  if lead < 0 then
    "0." ++ String.ofList (List.replicate (-lead - 1).toNat '0' ++ digits)
  else
    let whole := lead.toNat + 1
    let front := digits.take whole ++ List.replicate (whole - digits.length) '0'
    let back := digits.drop whole
    String.ofList front ++ "." ++ (if back.isEmpty then "0" else String.ofList back)

/-- Digits with a point after the first one, if more follow, and an exponent. -/
def scientific (sign : String) (digits : List Char) (lead : Int) : String :=
  let mantissa := match digits with
    | [] => ""
    | [d] => String.singleton d
    | d :: rest => String.ofList (d :: '.' :: rest)
  mantissa ++ "e" ++ (if lead < 0 then toString lead else sign ++ toString lead)

/-- The digits without trailing zeros, and the exponent of the first one. -/
def significant (d : Decimal) : List Char × Int :=
  let digits := Nat.toDigits 10 d.digits
  ((digits.reverse.dropWhile (· == '0')).reverse, d.exponent + digits.length - 1)

def writeFinite (s : NumberStyle) (v : Binary) : String :=
  let (digits, lead) := significant (v.shortest s.tie)
  if s.isPositional lead then positional digits lead
  else scientific s.exponentSign digits lead

def write (s : NumberStyle) (f : BinaryFormat) (bits : Nat) : String :=
  let (negative, magnitude) := Binary.decode f bits
  match magnitude with
  | .zero => if negative then "-0.0" else "0.0"
  | .finite v => (if negative then "-" else "") ++ s.writeFinite v
  | .infinite => if negative then s.negativeInfinity else s.infinity
  | .notANumber => s.notANumber

def write32 (s : NumberStyle) (x : Float32) : String := s.write binary32 x.toBits.toNat

def write64 (s : NumberStyle) (x : Float) : String := s.write binary64 x.toBits.toNat

end NumberStyle

end OnlineLearning
