import OnlineLearning.Decimal.Shortest
import OnlineLearning.Text.Reader
import OnlineLearning.Toml.Value

/-!
# Numbers, dates and truth values in TOML

Digits may be grouped by single underscores. An integer has 64 bits with sign; a float is rounded
to nearest, and may not overflow to positive infinity. Dates and times are checked and kept as
text.
-/

namespace OnlineLearning.Toml

open Reader

/-- Digits, any two of which may have an underscore between them. -/
def digitGroup (p : Char → Bool) : Reader (List Char) := do
  let first ← one p
  let rest ← many (one p <|> do char '_'; one p)
  pure (first :: rest)

/-- The value of a digit, letters following nine. -/
def digitValue (c : Char) : Nat :=
  if c.isDigit then c.toNat - '0'.toNat
  else if 'a' ≤ c then c.toNat - 'a'.toNat + 10
  else c.toNat - 'A'.toNat + 10

def ofDigits (base : Nat) (digits : List Char) : Nat :=
  digits.foldl (fun n c => n * base + digitValue c) 0

/-- A sign; set for a minus. -/
def sign : Reader Bool := do
  match ← maybe (one fun c => c == '+' || c == '-') with
  | some c => pure (c == '-')
  | none => pure false

/-- The digits of a decimal integer, which has no leading zeros. -/
def wholeDigits : Reader (List Char) :=
  (do
    let first ← one fun c => c.isDigit && c != '0'
    let rest ← many (one Char.isDigit <|> do char '_'; one Char.isDigit)
    pure (first :: rest)) <|>
  (fun c => [c]) <$> one Char.isDigit

/-- Whether a number fits into 64 bits. -/
def isInteger (n : Int) : Bool := Int64.minValue.toInt ≤ n && n ≤ Int64.maxValue.toInt

def checked (n : Int) : Reader Value := if isInteger n then pure (.integer n) else failure

def isHexDigit (c : Char) : Bool := c.isDigit || ('a' ≤ c && c ≤ 'f') || ('A' ≤ c && c ≤ 'F')

/-- An integer in another base than ten, behind a mark of its base. -/
def based (mark : String) (base : Nat) (p : Char → Bool) : Reader Value := do
  word mark
  let digits ← digitGroup p
  checked (ofDigits base digits)

def integer : Reader Value :=
  based "0x" 16 isHexDigit <|> based "0o" 8 (fun c => '0' ≤ c && c ≤ '7') <|>
  based "0b" 2 (fun c => c == '0' || c == '1') <|> do
    let negative ← sign
    let n : Int := ofDigits 10 (← wholeDigits)
    checked (if negative then -n else n)

/-- The float nearest to `mantissa * 10 ^ exponent`. Exponents far outside of the range of floats
are not spelled out. -/
def nearestFloat (mantissa : Nat) (exponent : Int) : Float :=
  let lead := exponent + Binary.digitCount mantissa
  if mantissa = 0 ∨ lead < -400 then 0
  else if 400 < lead then 1 / 0
  else Float.ofScientific mantissa (exponent < 0) exponent.natAbs

/-- The exponent of a float. -/
def exponentPart : Reader Int := do
  let _ ← one fun c => c == 'e' || c == 'E'
  let negative ← sign
  let n : Int := ofDigits 10 (← digitGroup Char.isDigit)
  pure (if negative then -n else n)

def finiteFloat : Reader Value := do
  let negative ← sign
  let whole ← wholeDigits
  let (fraction, exponent) ←
    (fun e => ([], e)) <$> exponentPart <|> do
      char '.'
      let fraction ← digitGroup Char.isDigit
      pure (fraction, (← maybe exponentPart).getD 0)
  let magnitude := nearestFloat (ofDigits 10 (whole ++ fraction)) (exponent - fraction.length)
  let x := if negative then -magnitude else magnitude
  if x == 1 / 0 then failure else pure (.float x)

def specialFloat : Reader Value := do
  let negative ← sign
  let magnitude : Float ← (do word "inf"; pure (1 / 0)) <|> (do word "nan"; pure (0 / 0))
  pure (.float (if negative then -magnitude else magnitude))

def boolean : Reader Value :=
  (do word "true"; pure (.boolean true)) <|> (do word "false"; pure (.boolean false))

/-! ## Dates and times -/

/-- A number of `count` digits between two bounds. -/
def numberWithin (count low high : Nat) : Reader Nat := do
  let digits ← (List.replicate count ()).mapM fun _ => one Char.isDigit
  let n := ofDigits 10 digits
  if low ≤ n ∧ n ≤ high then pure n else failure

def isLeapYear (year : Nat) : Bool := year % 4 == 0 && (year % 100 != 0 || year % 400 == 0)

def daysIn (year month : Nat) : Nat :=
  if month == 2 then (if isLeapYear year then 29 else 28)
  else if month == 4 || month == 6 || month == 9 || month == 11 then 30
  else 31

def date : Reader Unit := do
  let year ← numberWithin 4 0 9999
  char '-'
  let month ← numberWithin 2 1 12
  char '-'
  let _ ← numberWithin 2 1 (daysIn year month)

/-- A time of day; a minute may have a leap second. -/
def time : Reader Unit := do
  let _ ← numberWithin 2 0 23
  char ':'
  let _ ← numberWithin 2 0 59
  char ':'
  let _ ← numberWithin 2 0 60
  let _ ← maybe do
    char '.'
    run1 Char.isDigit

def timeOffset : Reader Unit :=
  (do let _ ← one fun c => c == 'Z' || c == 'z') <|> do
    let _ ← one fun c => c == '+' || c == '-'
    let _ ← numberWithin 2 0 23
    char ':'
    let _ ← numberWithin 2 0 59

def dateTime : Reader Value := do
  let text ← source <| (do
    date
    let _ ← maybe do
      let _ ← one fun c => c == 'T' || c == 't' || c == ' '
      time
      maybe timeOffset) <|> time
  pure (.dateTime (String.ofList text))

end OnlineLearning.Toml
