import OnlineLearning.Config.Document
import OnlineLearning.Workspace

/-!
# Checkpoints

A checkpoint file holds a version, the configuration of a workspace as a document and its model.
`Checkpoint.restore` builds the workspace anew and loads the model into it.
-/

namespace OnlineLearning.Checkpoint

/-- The version that files carry. -/
def version : UInt32 := 1

def save (w : Workspace Float32 Float) : Except CheckpointError (List UInt8) :=
  match w.config.write with
  | .error cause => .error (.config cause)
  | .ok document =>
    .ok (FieldValue.encodeAll [.word32 version, .text document, .bytes w.model])

/-- The document and the model of a file. -/
def payload (bytes : List UInt8) : Except CheckpointError (String × List UInt8) :=
  match (Persistent.decoder : Decoder UInt32).run bytes with
  | .error cause => .error (.serialization cause)
  | .ok (found, rest) =>
    if found ≠ version then .error (.versionMismatch version found)
    else
      match (do pure (← Decoder.text, ← Decoder.block) : Decoder _).run rest with
      | .error cause => .error (.serialization cause)
      | .ok (parts, _) => .ok parts

/-- The workspace of a file, if there is one. -/
def restore (file : Option (List UInt8)) : Except CheckpointError (Workspace Float32 Float) := do
  match file with
  | none => throw (.io "the file cannot be opened")
  | some bytes =>
    let (document, model) ← payload bytes
    match (do Workspace.new (← Config.read document) : Except ConfigError (Workspace _ _)) with
    | .error cause => throw (.config cause)
    | .ok w =>
      match w.load .binary model with
      | (.error cause, _) => throw (.model (.model cause))
      | (.ok (), w) => pure w

end OnlineLearning.Checkpoint
