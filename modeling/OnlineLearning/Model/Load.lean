import OnlineLearning.Model.Buffer

/-!
# Loads

A load takes fields from a buffer and changes a state by them. A load that fails leaves the state as
far as it came.
-/

namespace OnlineLearning

/-- A load reads a buffer and changes a state. -/
abbrev LoadM (σ : Type) := ExceptT ModelError (StateM (ModelBuffer × σ))

namespace LoadM

variable {σ τ α : Type}

/-- Takes the next field. -/
def take (format : ModelFormat) (α : Type) [Persistent α] (name : String) : LoadM σ α :=
  ExceptT.mk fun (buffer, state) =>
    let (result, buffer) := (ModelBuffer.readAs format α name).run buffer
    (result, buffer, state)

def modifyState (f : σ → σ) : LoadM σ Unit := modify fun (buffer, state) => (buffer, f state)

/-- Reads a field into the state, or writes the state as one. -/
def field [Persistent α] (format : ModelFormat) (reads : Bool) (name : String) : LoadM α Unit := do
  if reads then
    let value ← take format α name
    modifyState fun _ => value
  else modify fun (buffer, value) => (buffer.write format [Field.of name value], value)

/-- Loads a part of the state. -/
def onPart (part : τ) (put : τ → σ) (load : LoadM τ α) : LoadM σ α :=
  ExceptT.mk fun (buffer, _) =>
    let (result, buffer, part) := (ExceptT.run load).run (buffer, part)
    (result, buffer, put part)

end LoadM

end OnlineLearning
