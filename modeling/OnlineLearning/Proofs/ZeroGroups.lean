import OnlineLearning.Optimizer.Basic
import OnlineLearning.Proofs.Signs

/-!
# Groups that are zero

A group is not saved in a model if every channel of it equals zero. A zero with a minus sign equals
zero, but such a group would come back as another one: so it matters that learning leaves no such
zero in a group that is zero.

* `Mode.Tidy`: what holds of the groups of a mode in the course of learning;
* `Mode.tidy_updateGroup` and `Mode.TidyTable.preview`: learning keeps groups tidy;
* `Mode.Tidy.eq_zeroGroup`: a tidy group that is zero is the group that an absent one stands for.
-/

namespace OnlineLearning

theorem notMinusZero_maxNum {x y : Float32} (hx : NotMinusZero x) (hy : NotMinusZero y) :
    NotMinusZero (Scalar.maxNum x y) := by
  unfold Scalar.maxNum
  split
  · exact hy
  · split
    · exact hy
    · exact hx

/-! ## Proximal groups -/

namespace Proximal

structure Tidy (w : Proximal Float32) : Prop where
  z : NotMinusZero w.z
  sumSqGrad : NotMinusZero w.sumSqGrad
  param : (w.z == 0) = true → NotMinusZero w.param

theorem notMinusZero_shrink {p : Params Float32} (hp : ¬ p.l1 < 0) (root : Float32) :
    NotMinusZero (shrink p 0 root) := by
  unfold shrink
  split
  · exact noMinus_zero.notMinusZero
  · rename_i hle
    have hnan : IsNaN p.l1 := isNaN_of_not_le hp hle
    exact (((hnan.mul_left _).sub _).div _).notMinusZero

theorem Tidy.update {p : Params Float32} (hp : ¬ p.l1 < 0) {w : Proximal Float32} (h : w.Tidy)
    (x update : Float32) : (w.update p x update).Tidy := by
  have hz : NotMinusZero (w.update p x update).z := (h.z.add_left _).sub _
  refine ⟨hz, (noMinus_mul_self _).notMinusZero.add_right _, fun hzero => ?_⟩
  have hparam : (w.update p x update).param =
      shrink p (w.update p x update).z (Scalar.sqrt (w.update p x update).sumSqGrad) := rfl
  rw [hparam, hz.eq_zero hzero]
  exact notMinusZero_shrink hp _

end Proximal

/-! ## Groups of exponential updates -/

namespace Pistol

structure Tidy (w : Pistol Float32) : Prop where
  z : NotMinusZero w.z
  sumAbsGrad : NotMinusZero w.sumAbsGrad
  maxAbsX : NotMinusZero w.maxAbsX
  param : (w.maxAbsX == 0) = true → NotMinusZero w.param

theorem refreshed_of_zero (p : Params Float32) (w : Pistol Float32) {maxAbsX : Float32}
    (h : (maxAbsX == 0) = true) : refreshed p w maxAbsX = 0 :=
  if_neg (((vanishes_of_beq_zero h).mul_left _).mul _).not_pos

theorem Tidy.predict {w : Pistol Float32} (h : w.Tidy) (p : Params Float32) (x : Float32) :
    (w.predict p x).Tidy := by
  have hmax := notMinusZero_maxNum h.maxAbsX (noMinus_abs x).notMinusZero
  refine ⟨h.z, h.sumAbsGrad, hmax, fun hzero => ?_⟩
  have hparam : (w.predict p x).param = refreshed p w (w.predict p x).maxAbsX := rfl
  rw [hparam, refreshed_of_zero p w hzero]
  exact noMinus_zero.notMinusZero

theorem Tidy.update {w : Pistol Float32} (h : w.Tidy) (x update : Float32) :
    (w.update x update).Tidy :=
  ⟨h.z.sub _, (noMinus_abs _).notMinusZero.add_right _, h.maxAbsX, h.param⟩

end Pistol

/-! ## Coin betting groups -/

namespace Coin

structure Tidy (w : Coin Float32) : Prop where
  negGradSum : NotMinusZero w.negGradSum
  sumAbsGrad : NotMinusZero w.sumAbsGrad
  maxAbsX : NotMinusZero w.maxAbsX
  wealth : NotMinusZero w.wealth
  maxGrad : NoMinus w.maxGrad
  param : (w.maxGrad == 0) = true → NotMinusZero w.param

theorem bet_of_zero (p : Params Float32) {w : Coin Float32} (h : (w.maxGrad == 0) = true)
    (maxAbsX : Float32) : bet p w maxAbsX = 0 :=
  if_neg ((vanishes_of_beq_zero h).mul _).not_pos

/-- The Lipschitz estimate grows only above what it was, hence above zero. -/
theorem noMinus_maxGrad (p : Params Float32) {w : Coin Float32} (h : w.Tidy) (x update : Float32) :
    NoMinus (w.widen p x update).maxGrad := by
  unfold widen Scalar.maxNum
  dsimp only
  split
  · rename_i hlt
    have hpos := h.maxGrad.pos_of_lt hlt
    split
    · rename_i hnan
      exact absurd hpos (isNaN_iff.mp hnan).not_pos
    · split
      · rename_i hle
        exact noMinus_of_pos (pos_of_le hpos hle)
      · exact noMinus_abs _
  · exact h.maxGrad

theorem Tidy.update {w : Coin Float32} (h : w.Tidy) (p : Params Float32) {average : Float32}
    (haverage : NoMinus average) (x update : Float32) : (w.update p average x update).Tidy := by
  refine ⟨h.negGradSum.sub _, (noMinus_abs _).notMinusZero.add_right _,
    notMinusZero_maxNum h.maxAbsX (noMinus_abs x).notMinusZero, h.wealth.sub _,
    noMinus_maxGrad p h x update, fun hzero => ?_⟩
  have hparam : (w.update p average x update).param =
      bet p (w.update p average x update) (w.update p average x update).maxAbsX / average := rfl
  rw [hparam, bet_of_zero p hzero]
  exact (noMinus_zero.div haverage).notMinusZero

end Coin

/-! ## Groups of a mode -/

namespace Mode

def Tidy : (m : Mode) → Vector Float32 m.width → Prop
  | proximal, g => (Proximal.load g).Tidy
  | pistol, g => (Pistol.load g).Tidy
  | coinBetting, g => (Coin.load g).Tidy

theorem tidy_zeroGroup (m : Mode) : m.Tidy WeightTable.zeroGroup := by
  have hzero : NotMinusZero (0 : Float32) := noMinus_zero.notMinusZero
  cases m with
  | proximal => exact ⟨hzero, hzero, fun _ => hzero⟩
  | pistol => exact ⟨hzero, hzero, hzero, fun _ => hzero⟩
  | coinBetting => exact ⟨hzero, hzero, hzero, hzero, noMinus_zero, fun _ => hzero⟩

theorem tidy_updateGroup {m : Mode} {p : Params Float32} (hp : ¬ p.l1 < 0) {average : Float32}
    (haverage : NoMinus average) (x update : Float32) {g : Vector Float32 m.width} (h : m.Tidy g) :
    m.Tidy (m.updateGroup p average x update g) := by
  cases m with
  | proximal => exact Proximal.Tidy.update hp h x update
  | pistol => exact Pistol.Tidy.update h x update
  | coinBetting => exact Coin.Tidy.update h p haverage x update

/-- A tidy group that is zero is the one that an absent group stands for. -/
theorem Tidy.eq_zeroGroup {m : Mode} {g : Vector Float32 m.width} (h : m.Tidy g)
    (hzero : WeightTable.isNonZero g = false) : g = WeightTable.zeroGroup := by
  have heq (i : Nat) (hi : i < m.width) : (g[i] == 0) = true := by
    have hne := Vector.any_eq_false.mp hzero i hi
    simpa [bne] using hne
  have hall (i : Nat) (hi : i < m.width) : NotMinusZero g[i] := by
    cases m with
    | proximal =>
      match i, hi with
      | 0, _ => exact h.param (heq 1 (by decide))
      | 1, _ => exact h.z
      | 2, _ => exact h.sumSqGrad
    | pistol =>
      match i, hi with
      | 0, _ => exact h.param (heq 3 (by decide))
      | 1, _ => exact h.z
      | 2, _ => exact h.sumAbsGrad
      | 3, _ => exact h.maxAbsX
    | coinBetting =>
      match i, hi with
      | 0, _ => exact h.param (heq 5 (by decide))
      | 1, _ => exact h.negGradSum
      | 2, _ => exact h.sumAbsGrad
      | 3, _ => exact h.maxAbsX
      | 4, _ => exact h.wealth
      | 5, _ => exact h.maxGrad.notMinusZero
  refine Vector.ext fun i hi => ?_
  rw [(hall i hi).eq_zero (heq i hi)]
  simp [WeightTable.zeroGroup]

end Mode

/-! ## Tables -/

theorem zero_bne_zero : ((0 : Float32) != 0) = false := by decide +kernel

theorem WeightTable.isNonZero_zeroGroup (width : Nat) :
    isNonZero (zeroGroup : Vector Float32 width) = false := by
  refine Vector.any_eq_false.mpr fun i hi => ?_
  have hget : (zeroGroup : Vector Float32 width)[i] = 0 := by simp [zeroGroup]
  rw [hget, zero_bne_zero]
  exact Bool.false_ne_true

/-- All groups of a table are tidy. -/
def Mode.TidyTable (m : Mode) (t : WeightTable Float32 m.width) : Prop := ∀ i, m.Tidy (t.group i)

namespace Mode.TidyTable

variable {m : Mode} {t : WeightTable Float32 m.width}

theorem empty (m : Mode) (bits : Nat) (layout : Layout) : m.TidyTable (.empty bits layout) := by
  intro i
  rw [WeightTable.group_empty]
  exact m.tidy_zeroGroup

theorem setGroup (h : m.TidyTable t) (i : UInt64) {g : Vector Float32 m.width} (hg : m.Tidy g) :
    m.TidyTable (t.setGroup i g) := by
  intro j
  rw [WeightTable.group_setGroup]
  split
  · exact hg
  · exact h j

/-- What a preview leaves is tidy: only exponential updates write groups there. -/
theorem preview (h : m.TidyTable t) (p : Params Float32) (visits : List (Feature Float32)) :
    m.TidyTable (m.preview p t visits).weights := by
  cases m with
  | proximal | coinBetting => exact h
  | pistol =>
    refine List.foldlRecOn (motive := fun run : WeightTable Float32 4 × Float32 =>
      Mode.pistol.TidyTable run.1) visits _ h ?_
    rintro ⟨u, sum⟩ hu f -
    exact hu.setGroup f.index (Pistol.Tidy.predict (hu f.index) p f.value)

theorem step {o : Optimizer Float32 Float} (h : o.mode.TidyTable o.weights) (hp : ¬ o.params.l1 < 0)
    (haverage : NoMinus o.averageSquaredNorm) (update : Float32) (visits : List (Feature Float32)) :
    o.mode.TidyTable (o.step update visits).weights := by
  refine List.foldlRecOn (motive := fun t => o.mode.TidyTable t) visits _ h ?_
  intro u hu f _
  exact hu.setGroup f.index (tidy_updateGroup hp haverage f.value update (hu f.index))

end Mode.TidyTable

/-! ## Optimizers -/

namespace Optimizer

/-- What holds of an optimizer in the course of learning: its groups are tidy, and the average norm
is that of the totals, which have no minus sign. -/
structure Tidy (o : Optimizer Float32 Float) : Prop where
  table : o.mode.TidyTable o.weights
  l1 : ¬ o.params.l1 < 0
  average : o.averageSquaredNorm = o.refreshAverage.averageSquaredNorm
  norm : NoMinus o.normalizedSumNorm

theorem noMinus_refreshAverage {o : Optimizer Float32 Float} (h : NoMinus o.normalizedSumNorm) :
    NoMinus o.refreshAverage.averageSquaredNorm := by
  unfold refreshAverage
  dsimp only
  split
  · rename_i hpos
    have hepsilon : NoMinus (normEpsilon : Float) :=
      noMinus_of_pos (show (0 : Float) < normEpsilon by decide +kernel)
    exact ((h.add hepsilon).div (noMinus_of_pos hpos)).narrow
  · exact noMinus_of_pos (show (0 : Float32) < 1 by decide +kernel)

theorem noMinus_normSum (t : WeightTable Float32 6) (visits : List (Feature Float32)) :
    NoMinus (Coin.normSum t visits) := by
  refine List.foldlRecOn (motive := fun sum => NoMinus sum) visits _ noMinus_zero ?_
  intro sum hsum f _
  refine hsum.add ?_
  unfold Coin.normalizedSq
  dsimp only
  split
  · exact noMinus_mul_self _
  · exact noMinus_zero

theorem noMinus_norm {m : Mode} {p : Params Float32} {t : WeightTable Float32 m.width}
    {visits : List (Feature Float32)} {norm : Float32}
    (h : (m.preview p t visits).norm? = some norm) : NoMinus norm := by
  cases m with
  | proximal | pistol => cases h
  | coinBetting =>
    cases h
    exact noMinus_normSum t visits

theorem Tidy.learningPrediction {o : Optimizer Float32 Float} (h : o.Tidy) {weight : Float32}
    (hweight : 0 < weight) (visits : List (Feature Float32)) :
    (o.learningPrediction weight visits).1.Tidy := by
  have htable := h.table.preview o.params visits
  unfold Optimizer.learningPrediction
  dsimp only
  split
  · exact ⟨htable, h.l1, h.average, h.norm⟩
  · rename_i norm hnorm
    exact ⟨htable, h.l1, rfl,
      h.norm.add ((noMinus_of_pos hweight).widen.mul (noMinus_norm hnorm).widen)⟩

theorem Tidy.step {o : Optimizer Float32 Float} (h : o.Tidy) (update : Float32)
    (visits : List (Feature Float32)) : (o.step update visits).Tidy := by
  have haverage : NoMinus o.averageSquaredNorm := by
    rw [h.average]
    exact noMinus_refreshAverage h.norm
  exact ⟨h.table.step h.l1 haverage update visits, h.l1, h.average, h.norm⟩

theorem tidy_new (mode : Mode) {params : Params Float32} (hl1 : ¬ params.l1 < 0) (bits : Nat)
    (layout : Layout) (patience : UInt32) :
    (Optimizer.new mode params bits layout patience : Optimizer Float32 Float).Tidy := by
  have hzero : ¬ (0 : Float) < 0 := (vanishes_of_beq_zero (by decide +kernel)).not_pos
  exact ⟨.empty mode bits layout, hl1, (if_neg hzero).symm, noMinus_zero⟩

end Optimizer

end OnlineLearning
