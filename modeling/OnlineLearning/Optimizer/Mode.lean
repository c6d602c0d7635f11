import OnlineLearning.Optimizer.Proximal
import OnlineLearning.Optimizer.Pistol
import OnlineLearning.Optimizer.Coin

/-!
# Modes of the optimizer

The three update rules under one name each, with the number of channels that a feature needs
and the default rates.
-/

namespace OnlineLearning

inductive Mode where
  | proximal
  | pistol
  | coinBetting
  deriving DecidableEq, Repr

namespace Mode

def name : Mode → String
  | proximal => "Proximal-FTRL"
  | pistol => "PiSTOL"
  | coinBetting => "Coin Betting"

/-- Channels of one feature. -/
@[reducible] def width : Mode → Nat
  | proximal => 3
  | pistol => 4
  | coinBetting => 6

variable {R : Type} [Scalar R]

def defaultAlpha : Mode → R
  | proximal => 5 / 1000
  | pistol => 1
  | coinBetting => 4

def defaultBeta : Mode → R
  | proximal => 1 / 10
  | pistol => 1 / 2
  | coinBetting => 1

/-- The step of a mode on the channels of one feature. -/
def updateGroup (m : Mode) (p : Params R) (average x update : R) :
    Vector R m.width → Vector R m.width :=
  match m with
  | proximal => fun g => ((Proximal.load g).update p x update).channels
  | pistol => fun g => ((Pistol.load g).update x update).channels
  | coinBetting => fun g => ((Coin.load g).update p average x update).channels

/-- The channel that `sensitivityTerm` reads as the sum of squared gradients. -/
def gradientChannel (m : Mode) (g : Vector R m.width) : R :=
  match m with
  | proximal => g[2]
  | pistol => g[2]
  | coinBetting => g[2]

end Mode

end OnlineLearning
