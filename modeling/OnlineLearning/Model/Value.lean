import OnlineLearning.Decimal.Layout
import OnlineLearning.Text.Quoted

/-!
# Values of a model

A model is a sequence of named values. `FieldValue` is what such a value can be; it has a binary
form, `FieldValue.encode`, and a readable one, `FieldValue.text`.

The binary form is little endian and has no tags: a text or a list is preceded by its length in
eight bytes, and the parts of tuples and records follow each other.
-/

namespace OnlineLearning

inductive FieldValue where
  | flag (value : Bool)
  | word32 (value : UInt32)
  | word64 (value : UInt64)
  | single (value : Float32)
  | double (value : Float)
  | text (value : String)
  | bytes (value : List UInt8)
  | list (items : List FieldValue)
  | tuple (items : List FieldValue)
  /-- The names of a record are part of its readable form only. -/
  | record (name : String) (names : List String) (items : List FieldValue)

/-- The low `count` bytes of a number, least significant byte first. -/
def littleEndian : (count : Nat) → Nat → List UInt8
  | 0, _ => []
  | count + 1, n => UInt8.ofNat (n % 256) :: littleEndian count (n / 256)

/-- The number that bytes stand for, least significant byte first. -/
def ofLittleEndian : List UInt8 → Nat
  | [] => 0
  | byte :: rest => byte.toNat + 256 * ofLittleEndian rest

@[simp] theorem length_littleEndian (count n : Nat) : (littleEndian count n).length = count := by
  induction count generalizing n with
  | zero => rfl
  | succ count ih => simp [littleEndian, ih]

namespace FieldValue

/-- A length in front of a content. -/
def encodeLength (n : Nat) : List UInt8 := littleEndian 8 n

mutual

def encode : FieldValue → List UInt8
  | flag b => [if b then 1 else 0]
  | word32 n => littleEndian 4 n.toNat
  | word64 n => littleEndian 8 n.toNat
  | single x => littleEndian 4 x.toBits.toNat
  | double x => littleEndian 8 x.toBits.toNat
  | text s => encodeLength s.toUTF8.size ++ s.toUTF8.toList
  | bytes b => encodeLength b.length ++ b
  | list items => encodeLength items.length ++ encodeAll items
  | tuple items => encodeAll items
  | record _ _ items => encodeAll items

def encodeAll : List FieldValue → List UInt8
  | [] => []
  | v :: rest => encode v ++ encodeAll rest

end

/-- Numbers of a readable model: ties go up, an exponent is written below 0.0001 and from `1e16`
on. -/
def numberStyle : NumberStyle where
  tie := .up
  isPositional lead := -4 ≤ lead && lead < 16
  exponentSign := ""
  infinity := "inf"
  negativeInfinity := "-inf"
  notANumber := "NaN"

/-- Texts with commas between them. -/
def commaList (items : List String) : String := ", ".intercalate items

mutual

def readable : FieldValue → String
  | flag b => if b then "true" else "false"
  | word32 n => toString n.toNat
  | word64 n => toString n.toNat
  | single x => numberStyle.write32 x
  | double x => numberStyle.write64 x
  | text s => quoted s
  | bytes b => "[" ++ commaList (b.map fun x => toString x.toNat) ++ "]"
  | list items => "[" ++ commaList (readableAll items) ++ "]"
  | tuple items => "(" ++ commaList (readableAll items) ++ ")"
  | record name names items =>
    name ++ " \x7b " ++ commaList (names.zipWith (fun n v => n ++ ": " ++ v) (readableAll items))
      ++ " \x7d"

def readableAll : List FieldValue → List String
  | [] => []
  | v :: rest => readable v :: readableAll rest

end

end FieldValue

end OnlineLearning
