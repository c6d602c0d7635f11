import OnlineLearning.Model.Value
import OnlineLearning.Text.Utf8

/-!
# Reading values back

A `Decoder` takes a value off the front of a byte string. A type is `Persistent` if its values can
be written as a `FieldValue` and read from the binary form of one.
-/

namespace OnlineLearning

/-- A reader of bytes that keeps what it did not need. -/
abbrev Decoder := StateT (List UInt8) (Except CodecError)

namespace Decoder

/-- Takes `count` bytes. -/
def take (count : Nat) : Decoder (List UInt8) := fun bytes =>
  let front := bytes.take count
  if front.length = count then .ok (front, bytes.drop count) else .error .outOfBytes

/-- A number of `count` bytes. -/
def number (count : Nat) : Decoder Nat := ofLittleEndian <$> take count

def flag : Decoder Bool := do
  let found ← number 1
  if found = 0 then pure false
  else if found = 1 then pure true
  else throw (.badBool (UInt8.ofNat found))

/-- Bytes behind their length. -/
def block : Decoder (List UInt8) := do take (← number 8)

def text : Decoder String := do
  match decodeUtf8 (← block) with
  | .ok s => pure s
  | .error fault => throw (.badText fault)

/-- A fixed number of values. -/
def many {α : Type} (item : Decoder α) : Nat → Decoder (List α)
  | 0 => pure []
  | count + 1 => do pure ((← item) :: (← many item count))

end Decoder

/-- Types whose values can be stored in a model. -/
class Persistent (α : Type) where
  toValue : α → FieldValue
  decoder : Decoder α

namespace Persistent

instance : Persistent Bool := ⟨.flag, Decoder.flag⟩

instance : Persistent UInt32 := ⟨.word32, UInt32.ofNat <$> Decoder.number 4⟩

instance : Persistent UInt64 := ⟨.word64, UInt64.ofNat <$> Decoder.number 8⟩

instance : Persistent Float32 :=
  ⟨.single, (fun bits => Float32.ofBits (UInt32.ofNat bits)) <$> Decoder.number 4⟩

instance : Persistent Float :=
  ⟨.double, (fun bits => Float.ofBits (UInt64.ofNat bits)) <$> Decoder.number 8⟩

instance : Persistent String := ⟨.text, Decoder.text⟩

instance {α β : Type} [Persistent α] [Persistent β] : Persistent (α × β) where
  toValue p := .tuple [toValue p.1, toValue p.2]
  decoder := do pure (← decoder, ← decoder)

instance {α : Type} [Persistent α] : Persistent (List α) where
  toValue xs := .list (xs.map toValue)
  decoder := do Decoder.many decoder (← Decoder.number 8)

end Persistent

end OnlineLearning
