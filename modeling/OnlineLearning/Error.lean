/-!
# Errors and their wording

Each layer names the causes of its failures in a type of its own; `message` is the only place
where a cause is put into words.

* `CodecError`: bytes that are no encoded value;
* `ModelError`: a model image that does not fit the learner that reads it;
* `LearnerError`: a call that cannot be carried out;
* `ConfigError`: a configuration that no learner can be built from;
* `CheckpointError`: a checkpoint file that cannot be restored.
-/

namespace OnlineLearning

/-- Why a byte string is not UTF-8: the number of bytes before the fault and, unless the string
only ends too early, the number of bytes of the fault. -/
structure Utf8Fault where
  validUpTo : Nat
  length? : Option Nat
  deriving DecidableEq, Repr

def Utf8Fault.message (e : Utf8Fault) : String :=
  match e.length? with
  | some n => s!"invalid utf-8 sequence of {n} bytes from index {e.validUpTo}"
  | none => s!"incomplete utf-8 byte sequence from index {e.validUpTo}"

inductive CodecError where
  | outOfBytes
  | badBool (found : UInt8)
  | badText (fault : Utf8Fault)
  deriving DecidableEq, Repr

def CodecError.message : CodecError → String
  | outOfBytes => "io error: failed to fill whole buffer"
  | badBool found => s!"invalid u8 while decoding bool, expected 0 or 1, found {found}"
  | badText fault => s!"string is not valid utf8: {fault.message}"

inductive ModelError where
  | codec (field : String) (cause : CodecError)
  | textRead (field : String)
  | fieldMismatch (expected found : String)
  | widthMismatch (expected found : Nat)
  deriving DecidableEq, Repr

def ModelError.message : ModelError → String
  | codec field cause => s!"failed to (de)serialize model field '{field}': {cause.message}"
  | textRead field => s!"text-mode model dumps are write-only (field '{field}')"
  | fieldMismatch expected found => s!"expected model field '{expected}', found '{found}'"
  | widthMismatch expected found =>
    s!"channel width mismatch: store has {expected} channels, model has {found}"

inductive LearnerError where
  | labelMismatch (node expected : String)
  | emptyBatch (node : String)
  | wrongArity (actual : String)
  | model (cause : ModelError)
  | journal (cause : String)
  deriving DecidableEq, Repr

def LearnerError.message : LearnerError → String
  | labelMismatch node expected => s!"{node} expects a {expected} label"
  | emptyBatch node => s!"{node} received an empty batch"
  | wrongArity actual => s!"the stack root is {actual}; call the {actual} entry point instead"
  | model cause => cause.message
  | journal cause => s!"failed to write progress journal: {cause}"

inductive ConfigError where
  | io (cause : String)
  | parse (cause : String)
  | multipleOptimizers (selected : List String)
  | reuseTargetMissing (wanted : String) (enabled : List String)
  | incompatibleDecoder (reason : String)
  | invalidValue (parameter reason : String)
  deriving DecidableEq, Repr

def ConfigError.message : ConfigError → String
  | io cause => s!"IO error: {cause}"
  | parse cause => s!"Parse error: {cause}"
  | multipleOptimizers selected =>
    "You can only use one of 'ftrl', 'pistol', or 'coin' at a time (selected: "
      ++ ", ".intercalate selected ++ ")"
  | reuseTargetMissing wanted enabled =>
    "no learner with name prefix '" ++ wanted ++ "' in the stack (enabled: "
      ++ ", ".intercalate enabled ++ ")"
  | incompatibleDecoder reason => s!"decoder stack is incompatible: {reason}"
  | invalidValue parameter reason => s!"invalid value for {parameter}: {reason}"

inductive CheckpointError where
  | io (cause : String)
  | serialization (cause : CodecError)
  | versionMismatch (expected found : UInt32)
  | config (cause : ConfigError)
  | model (cause : LearnerError)
  deriving DecidableEq, Repr

def CheckpointError.message : CheckpointError → String
  | io cause => s!"I/O error while accessing checkpoint: {cause}"
  | serialization cause => s!"Failed to (de)serialize checkpoint payload: {cause.message}"
  | versionMismatch expected found =>
    s!"Checkpoint version mismatch: expected {expected}, found {found}"
  | config cause => s!"Checkpoint configuration is unusable: {cause.message}"
  | model cause => s!"Failed to replay model state: {cause.message}"

end OnlineLearning
