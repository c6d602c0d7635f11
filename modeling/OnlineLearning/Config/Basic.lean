import OnlineLearning.Error
import OnlineLearning.Example.Interaction
import OnlineLearning.Loss
import OnlineLearning.Optimizer.Mode

/-!
# Configurations

A `Config` tells how a chain of learners is built, section by section.

* `Config.validate` is passed by the configurations that chains can be built from;
* `Config.decoder` is the configuration of the decoder of a grounded chain.
-/

namespace OnlineLearning

/-- At most one mode may be selected. The rates are those of the mode where they are absent. -/
structure OptimizerConfig (R : Type) where
  ftrl : Bool
  pistol : Bool
  coin : Bool
  alpha : Option R
  beta : Option R
  l1 : R
  l2 : R
  deriving BEq

structure WeightsConfig where
  bits : UInt32
  sparse : Bool
  deriving DecidableEq, Repr

structure ScorerConfig where
  link : LinkFunction
  loss : LossFunction
  deriving DecidableEq, Repr

structure FeaturesConfig where
  interactions : List String
  deriving DecidableEq, Repr

structure RunConfig where
  quiet : Bool
  saveResume : Bool
  holdoutOff : Bool
  /-- Passes without a gain after which a run ends. -/
  earlyTerminate : UInt32
  checkHoldoutEvery : UInt64
  /-- The journal file; none if empty. -/
  progressLog : String
  deriving DecidableEq, Repr

structure BanditConfig where
  enabled : Bool
  deriving DecidableEq, Repr

structure DecoderConfig where
  link : LinkFunction
  loss : LossFunction
  /-- Those of the primary policy where they are absent. -/
  interactions : Option (List String)
  deriving DecidableEq, Repr

structure GroundedConfig (R : Type) where
  enabled : Bool
  feedbackNamespace : String
  unlabeledPrior : R
  positiveImportance : R
  negativeImportance : R
  /-- Tokens in the feedback namespace. -/
  negativeFeedback : List String
  decoder : DecoderConfig
  deriving BEq

structure Config (R : Type) where
  optimizer : OptimizerConfig R
  weights : WeightsConfig
  scorer : ScorerConfig
  features : FeaturesConfig
  run : RunConfig
  bandit : BanditConfig
  grounded : GroundedConfig R
  deriving BEq

namespace OptimizerConfig

variable {R : Type}

/-- The names of the modes that are switched on. -/
def selected (c : OptimizerConfig R) : List String :=
  [(c.ftrl, "ftrl"), (c.pistol, "pistol"), (c.coin, "coin")].filterMap fun (on, name) =>
    if on then some name else none

/-- The mode that is selected, coin betting by default. -/
def mode (c : OptimizerConfig R) : Except ConfigError Mode :=
  match c.ftrl, c.pistol, c.coin with
  | false, false, _ => .ok .coinBetting
  | true, false, false => .ok .proximal
  | false, true, false => .ok .pistol
  | _, _, _ => .error (.multipleOptimizers c.selected)

def params [Scalar R] (c : OptimizerConfig R) : Except ConfigError (Params R) := do
  let mode ← c.mode
  pure {
    alpha := c.alpha.getD mode.defaultAlpha
    beta := c.beta.getD mode.defaultBeta
    l1 := c.l1
    l2 := c.l2 }

end OptimizerConfig

namespace Config

variable {R : Type} [Scalar R]

def default : Config R where
  optimizer :=
    { ftrl := false, pistol := false, coin := false, alpha := none, beta := none, l1 := 0, l2 := 0 }
  weights := { bits := 18, sparse := false }
  scorer := { link := .identity, loss := .squared }
  features := { interactions := [] }
  run :=
    { quiet := false, saveResume := true, holdoutOff := true, earlyTerminate := 3
      checkHoldoutEvery := 1, progressLog := "" }
  bandit := { enabled := false }
  grounded :=
    { enabled := false, feedbackNamespace := "F", unlabeledPrior := 1 / 2, positiveImportance := 1
      negativeImportance := 1 / 2, negativeFeedback := ["dislike"]
      decoder := { link := .logistic, loss := .logistic, interactions := none } }

instance : Inhabited (Config R) := ⟨default⟩

omit [Scalar R] in
/-- Whether a chain has a bandit node; a grounded node needs one. -/
def hasBandit (c : Config R) : Bool := c.bandit.enabled || c.grounded.enabled

/-- Refuses a parameter unless `ok` holds. -/
def require (ok : Bool) (parameter reason : String) : Except ConfigError Unit :=
  if ok then pure () else throw (.invalidValue parameter reason)

def validateRates (c : OptimizerConfig R) : Except ConfigError Unit := do
  let p ← c.params
  require (0 < p.alpha && Scalar.isFinite p.alpha) "optimizer.ftrl_alpha" "must be positive"
  require (0 ≤ p.beta && Scalar.isFinite p.beta) "optimizer.ftrl_beta" "must be non-negative"
  require (!(c.l1 < 0 || c.l2 < 0)) "optimizer.l1_lambda/l2_lambda" "must be non-negative"

def validateGrounded (c : GroundedConfig R) : Except ConfigError Unit := do
  require (!c.feedbackNamespace.isEmpty) "igl.feedback_namespace" "must not be empty"
  require (0 < c.unlabeledPrior && c.unlabeledPrior ≤ 1) "igl.p_unlabeled_prior"
    "must be in (0, 1]"
  require (!(c.positiveImportance ≤ 0 || c.negativeImportance ≤ 0))
    "igl.positive_importance/negative_importance" "must be positive"
  let _ ← Term.parseAll (c.decoder.interactions.getD [])

/-- The checks that need no chain. The settings of a grounded node are checked if there is to be
one. -/
def validate (c : Config R) : Except ConfigError Unit := do
  validateRates c.optimizer
  require (1 ≤ c.weights.bits && c.weights.bits ≤ 32) "weights.bits" "must be in 1..=32"
  require (c.run.checkHoldoutEvery != 0) "run.check_holdout_every_n_passes" "must be at least 1"
  let _ ← Term.parseAll c.features.interactions
  if c.grounded.enabled then validateGrounded c.grounded

omit [Scalar R] in
/-- The configuration of the decoder: it scores by the settings of the decoder, is quiet and has
neither a journal nor reductions over it. -/
def decoder (c : Config R) : Config R :=
  let d := c.grounded.decoder
  { c with
    scorer := { link := d.link, loss := d.loss }
    features := { interactions := d.interactions.getD c.features.interactions }
    run := { c.run with quiet := true, progressLog := "" }
    bandit := { enabled := false }
    grounded := { c.grounded with enabled := false } }

end Config

end OnlineLearning
