import OnlineLearning.Config.Basic
import OnlineLearning.Toml.Document
import OnlineLearning.Toml.Writer

/-!
# Configuration documents

A configuration is written as a TOML document with one table per section.

* `Config.read` reads and validates a document. Whatever is absent has its default, and unknown
  keys are of no effect.
* `Config.write` writes every member of every section, but for absent options.
-/

namespace OnlineLearning

open Toml

namespace Config

/-! ## Reading values -/

/-- A reading of a TOML value; `none` if the value is of another type. -/
abbrev Reading (α : Type) := Value → Option α

namespace Reading

def flag : Reading Bool
  | .boolean b => some b
  | _ => none

def text : Reading String
  | .string s => some s
  | _ => none

/-- An integer from zero up to a bound, exclusive. -/
def natural (bound : Nat) : Reading Nat
  | .integer n => if 0 ≤ n ∧ n < bound then some n.toNat else none
  | _ => none

def word32 : Reading UInt32 := fun v => UInt32.ofNat <$> natural UInt32.size v

def word64 : Reading UInt64 := fun v => UInt64.ofNat <$> natural UInt64.size v

def single : Reading Float32
  | .float x => some (Widening.narrow x)
  | .integer n => some (Float32.ofInt n)
  | _ => none

def texts : Reading (List String)
  | .array _ items => items.mapM text
  | _ => none

def option {α : Type} (r : Reading α) : Reading (Option α) := fun v => some <$> r v

/-- One of several names. A name may also be the only key of a table, with nothing behind it. -/
def choice {α : Type} (names : List (String × α)) : Reading α
  | .string s => names.lookup s
  | .table _ [(s, .table _ [])] => names.lookup s
  | .table _ [(s, .array _ [])] => names.lookup s
  | _ => none

def link : Reading LinkFunction :=
  choice ([LinkFunction.identity, .logistic, .glf1, .poisson].map fun l => (l.name, l))

def loss : Reading LossFunction :=
  choice ([LossFunction.squared, .logistic].map fun l => (l.name, l))

end Reading

/-! ## Reading sections -/

/-- The members of a section: by name in a table, by position in an array. -/
def members : Reading (Nat → String → Option Value)
  | .table _ entries => some fun _ name => entries.lookup name
  | .array _ items => some fun position _ => items[position]?
  | .dateTime _ => some fun _ _ => none
  | _ => none

/-- A member, or its default if it is absent. -/
def member {α : Type} (get : Nat → String → Option Value) (position : Nat) (name : String)
    (r : Reading α) (fallback : α) : Option α :=
  match get position name with
  | none => some fallback
  | some v => r v

def readOptimizer (d : OptimizerConfig Float32) : Reading (OptimizerConfig Float32) := fun v => do
  let get ← members v
  pure {
    ftrl := ← member get 0 "ftrl" .flag d.ftrl
    pistol := ← member get 1 "pistol" .flag d.pistol
    coin := ← member get 2 "coin" .flag d.coin
    alpha := ← member get 3 "ftrl_alpha" (.option .single) d.alpha
    beta := ← member get 4 "ftrl_beta" (.option .single) d.beta
    l1 := ← member get 5 "l1_lambda" .single d.l1
    l2 := ← member get 6 "l2_lambda" .single d.l2 }

def readWeights (d : WeightsConfig) : Reading WeightsConfig := fun v => do
  let get ← members v
  pure {
    bits := ← member get 0 "bits" .word32 d.bits
    sparse := ← member get 1 "sparse" .flag d.sparse }

def readScorer (d : ScorerConfig) : Reading ScorerConfig := fun v => do
  let get ← members v
  pure {
    link := ← member get 0 "link" .link d.link
    loss := ← member get 1 "loss_function" .loss d.loss }

def readFeatures (d : FeaturesConfig) : Reading FeaturesConfig := fun v => do
  let get ← members v
  pure { interactions := ← member get 0 "interactions" .texts d.interactions }

def readRun (d : RunConfig) : Reading RunConfig := fun v => do
  let get ← members v
  pure {
    quiet := ← member get 0 "quiet" .flag d.quiet
    saveResume := ← member get 1 "save_resume" .flag d.saveResume
    holdoutOff := ← member get 2 "holdout_off" .flag d.holdoutOff
    earlyTerminate := ← member get 3 "early_terminate" .word32 d.earlyTerminate
    checkHoldoutEvery := ← member get 4 "check_holdout_every_n_passes" .word64 d.checkHoldoutEvery
    progressLog := ← member get 5 "progress_log" .text d.progressLog }

def readBandit (d : BanditConfig) : Reading BanditConfig := fun v => do
  let get ← members v
  pure { enabled := ← member get 0 "enabled" .flag d.enabled }

def readDecoder (d : DecoderConfig) : Reading DecoderConfig := fun v => do
  let get ← members v
  pure {
    link := ← member get 0 "link" .link d.link
    loss := ← member get 1 "loss_function" .loss d.loss
    interactions := ← member get 2 "interactions" (.option .texts) d.interactions }

def readGrounded (d : GroundedConfig Float32) : Reading (GroundedConfig Float32) := fun v => do
  let get ← members v
  pure {
    enabled := ← member get 0 "experimental_igl" .flag d.enabled
    feedbackNamespace := ← member get 1 "feedback_namespace" .text d.feedbackNamespace
    unlabeledPrior := ← member get 2 "p_unlabeled_prior" .single d.unlabeledPrior
    positiveImportance := ← member get 3 "positive_importance" .single d.positiveImportance
    negativeImportance := ← member get 4 "negative_importance" .single d.negativeImportance
    negativeFeedback := ← member get 5 "negative_feedback" .texts d.negativeFeedback
    decoder := ← member get 6 "decoder" (readDecoder d.decoder) d.decoder }

/-- The configuration that a document describes. -/
def ofEntries? (root : Entries) : Option (Config Float32) := do
  let d : Config Float32 := default
  let get (_ : Nat) (name : String) : Option Value := root.lookup name
  pure {
    optimizer := ← member get 0 "optimizer" (readOptimizer d.optimizer) d.optimizer
    weights := ← member get 1 "weights" (readWeights d.weights) d.weights
    scorer := ← member get 2 "scorer" (readScorer d.scorer) d.scorer
    features := ← member get 3 "features" (readFeatures d.features) d.features
    run := ← member get 4 "run" (readRun d.run) d.run
    bandit := ← member get 5 "cb" (readBandit d.bandit) d.bandit
    grounded := ← member get 6 "igl" (readGrounded d.grounded) d.grounded }

/-- Reads and validates a document. -/
def read (text : String) : Except ConfigError (Config Float32) := do
  match Toml.parse? text with
  | none => throw (.parse "the document is not valid")
  | some root =>
    match ofEntries? root with
    | none => throw (.parse "a value has the wrong type")
    | some c =>
      c.validate
      pure c

/-- Reads a document from the bytes of a file, if there is one. -/
def readBytes (bytes : Option (List UInt8)) : Except ConfigError (Config Float32) :=
  match bytes with
  | none => throw (.io "the file cannot be opened")
  | some bytes =>
    match String.fromUTF8? ⟨bytes.toArray⟩ with
    | none => throw (.io "the file is not text")
    | some text => read text

/-! ## Writing -/

/-- The pair of a member. -/
def pair (name : String) (value : Value) : Statement := .pair ⟨[], name⟩ value

def ofFlag (b : Bool) : Value := .boolean b

def ofSingle (x : Float32) : Value := .float (Widening.widen x)

def ofNat (n : Nat) : Value := .integer n

def ofTexts (xs : List String) : Value := .array false (xs.map .string)

def ofOption {α : Type} (name : String) (f : α → Value) : Option α → List Statement
  | none => []
  | some x => [pair name (f x)]

/-- The sections of a document: their headers and their pairs. -/
def sections (c : Config Float32) : List (Key × List Statement) :=
  let d := c.grounded.decoder
  [(⟨[], "optimizer"⟩,
      [pair "ftrl" (ofFlag c.optimizer.ftrl), pair "pistol" (ofFlag c.optimizer.pistol),
        pair "coin" (ofFlag c.optimizer.coin)] ++
      ofOption "ftrl_alpha" ofSingle c.optimizer.alpha ++
      ofOption "ftrl_beta" ofSingle c.optimizer.beta ++
      [pair "l1_lambda" (ofSingle c.optimizer.l1), pair "l2_lambda" (ofSingle c.optimizer.l2)]),
    (⟨[], "weights"⟩,
      [pair "bits" (ofNat c.weights.bits.toNat), pair "sparse" (ofFlag c.weights.sparse)]),
    (⟨[], "scorer"⟩,
      [pair "link" (.string c.scorer.link.name),
        pair "loss_function" (.string c.scorer.loss.name)]),
    (⟨[], "features"⟩, [pair "interactions" (ofTexts c.features.interactions)]),
    (⟨[], "run"⟩,
      [pair "quiet" (ofFlag c.run.quiet), pair "save_resume" (ofFlag c.run.saveResume),
        pair "holdout_off" (ofFlag c.run.holdoutOff),
        pair "early_terminate" (ofNat c.run.earlyTerminate.toNat),
        pair "check_holdout_every_n_passes" (ofNat c.run.checkHoldoutEvery.toNat),
        pair "progress_log" (.string c.run.progressLog)]),
    (⟨[], "cb"⟩, [pair "enabled" (ofFlag c.bandit.enabled)]),
    (⟨[], "igl"⟩,
      [pair "experimental_igl" (ofFlag c.grounded.enabled),
        pair "feedback_namespace" (.string c.grounded.feedbackNamespace),
        pair "p_unlabeled_prior" (ofSingle c.grounded.unlabeledPrior),
        pair "positive_importance" (ofSingle c.grounded.positiveImportance),
        pair "negative_importance" (ofSingle c.grounded.negativeImportance),
        pair "negative_feedback" (ofTexts c.grounded.negativeFeedback)]),
    (⟨["igl"], "decoder"⟩,
      [pair "link" (.string d.link.name), pair "loss_function" (.string d.loss.name)] ++
      ofOption "interactions" ofTexts d.interactions)]

/-- The lines of a document, with blank lines between its sections. -/
def statements (c : Config Float32) : List Statement :=
  [Statement.blank].intercalate (c.sections.map fun (key, pairs) => .header key :: pairs)

/-- The document of a configuration. An integer of a document has 63 bits besides its sign, so
greater numbers cannot be written. -/
def write (c : Config Float32) : Except ConfigError String :=
  if Toml.isInteger c.run.checkHoldoutEvery.toNat then .ok (Toml.render c.statements)
  else .error (.parse "an integer is too great")

/-- The configuration with one member replaced, or taken away where there is no value. The member
is named by its section and its key in a document; the result is not validated. -/
def override (c : Config Float32) (key : Key) (value : Option Value) : Option (Config Float32) := do
  let root ← Toml.ofStatements? c.statements
  let replace (_ : TableKind) (es : Entries) : Option Entries :=
    some (es.filter (·.1 != key.name) ++ value.toList.map fun v => (key.name, v))
  ofEntries? (← root.alter false replace key.parents .header)

end Config

end OnlineLearning
