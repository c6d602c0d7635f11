import OnlineLearning.Model.Codec

/-!
# Model buffers

A `ModelBuffer` holds the image of a model. Fields are appended in one of two formats and read
from the binary one, in the order in which they were written. A field is stored with its name, so
that a reader with another order in mind is told so.

* `ModelBuffer.write` appends fields;
* `ModelBuffer.read` takes the next field; if that fails, the field is still the next one.
-/

namespace OnlineLearning

inductive ModelFormat where
  | binary
  | readable
  deriving DecidableEq, Repr

/-- A named value. -/
abbrev Field := String × FieldValue

namespace Field

def of {α : Type} [Persistent α] (name : String) (value : α) : Field :=
  (name, Persistent.toValue value)

def encode (f : Field) : List UInt8 := (FieldValue.tuple [.text f.1, f.2]).encode

/-- The line of a field in a readable model. -/
def line (f : Field) : String := f.1 ++ " = " ++ f.2.readable ++ "\n"

end Field

structure ModelBuffer where
  bytes : List UInt8
  /-- The bytes that are still to be read. -/
  unread : List UInt8
  /-- The readable fields. -/
  text : String
  deriving DecidableEq, Repr

namespace ModelBuffer

def empty : ModelBuffer := ⟨[], [], ""⟩

def ofBytes (bytes : List UInt8) : ModelBuffer := ⟨bytes, bytes, ""⟩

def remaining (b : ModelBuffer) : Nat := b.unread.length

/-- Goes back to the first field. -/
def rewind (b : ModelBuffer) : ModelBuffer := { b with unread := b.bytes }

def write (b : ModelBuffer) (format : ModelFormat) (fields : List Field) : ModelBuffer :=
  match format with
  | .binary =>
    let added := fields.flatMap Field.encode
    { b with bytes := b.bytes ++ added, unread := b.unread ++ added }
  | .readable => { b with text := b.text ++ String.join (fields.map Field.line) }

/-- The value of the next field, which has to have this name, and the bytes after it. -/
def next? (α : Type) [Persistent α] (name : String) (unread : List UInt8) :
    Except ModelError (α × List UInt8) :=
  match (Persistent.decoder : Decoder (String × α)).run unread with
  | .error cause => .error (.codec name cause)
  | .ok ((found, value), rest) =>
    if found = name then .ok (value, rest) else .error (.fieldMismatch name found)

/-- Takes the next field. -/
def read (α : Type) [Persistent α] (name : String) : ExceptT ModelError (StateM ModelBuffer) α :=
  ExceptT.mk fun b =>
    match next? α name b.unread with
    | .ok (value, rest) => (.ok value, { b with unread := rest })
    | .error e => (.error e, b)

/-- Takes the next field of a model in a format; a readable model cannot be read. -/
def readAs (format : ModelFormat) (α : Type) [Persistent α] (name : String) :
    ExceptT ModelError (StateM ModelBuffer) α :=
  match format with
  | .binary => read α name
  | .readable => throw (.textRead name)

/-- What a buffer shows: its text, or the size of its bytes if it has none. -/
def display (b : ModelBuffer) : String :=
  if b.text.isEmpty then s!"<{b.bytes.length} model bytes>" else b.text

end ModelBuffer

end OnlineLearning
