import OnlineLearning.Example.Namespaces
import OnlineLearning.Optimizer.Mode
import OnlineLearning.Weights.Table

/-!
# Predictions from a weight table

* `WeightTable.dot` is the prediction of every mode once the parameters are stored;
* `Mode.preview` is the prediction that learning starts from: proximal updates take the dot
  product, exponential updates refresh the visited parameters first, coin betting sums up the bets
  and measures the norm of the example.
-/

namespace OnlineLearning

variable {R : Type} [Scalar R]

/-- The dot product of features and parameters. -/
def WeightTable.dot {width : Nat} (t : WeightTable R width) (visits : List (Feature R)) : R :=
  visits.foldl (fun sum f => sum + f.value * t.param f.index) 0

/-- Refreshes the parameters of the visited groups one after another, and sums up their
contributions. -/
def Pistol.refreshAll (p : Params R) (t : WeightTable R 4) (visits : List (Feature R)) :
    WeightTable R 4 × R :=
  visits.foldl (fun (t, sum) f =>
    let w := (Pistol.load (t.group f.index)).predict p f.value
    (t.setGroup f.index w.channels, sum + w.contribution f.value)) (t, 0)

/-- The sum of the bets on the visited features. -/
def Coin.rawSum (p : Params R) (t : WeightTable R 6) (visits : List (Feature R)) : R :=
  visits.foldl (fun sum f => sum + Coin.raw p (Coin.load (t.group f.index)) f.value) 0

/-- The squared norm of an example, each feature relative to its magnitude estimate. -/
def Coin.normSum (t : WeightTable R 6) (visits : List (Feature R)) : R :=
  visits.foldl (fun sum f => sum + Coin.normalizedSq (Coin.load (t.group f.index)) f.value) 0

/-- What a mode sees before it learns: the table, the prediction and, where the mode works with
norms, the squared norm that the prediction is still to be normalized by. -/
structure Preview (R : Type) (width : Nat) where
  weights : WeightTable R width
  sum : R
  norm? : Option R

def Mode.preview (m : Mode) (p : Params R) (t : WeightTable R m.width)
    (visits : List (Feature R)) : Preview R m.width :=
  match m with
  | proximal => ⟨t, t.dot visits, none⟩
  | pistol =>
    let (t, sum) := Pistol.refreshAll p t visits
    ⟨t, sum, none⟩
  | coinBetting => ⟨t, Coin.rawSum p t visits, some (Coin.normSum t visits)⟩

end OnlineLearning
