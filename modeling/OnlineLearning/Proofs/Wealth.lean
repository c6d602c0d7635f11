import Mathlib.Order.Bounds.Basic
import OnlineLearning.Proofs.ScaleFree

/-!
# The wealth of a coin

A feature under coin betting starts with `alpha` and bets on every gradient. Whatever gradients come,
it never loses all that it has. The bet is small because both estimates are widened before it is
settled: no gradient is larger than their product, and the gradient sum is no larger than the sum of
sizes.

* `Coin.play` is a coin after rounds, from a zeroed group on;
* `Coin.mul_bet_lt`: a gradient within the estimates takes less than there is;
* `Coin.Books` is what holds of a coin after rounds; `Coin.play_books` that it does;
* `Coin.play_solvent` says it after every round, with the estimates as the largest sizes seen.
-/

namespace OnlineLearning.Coin

/-- One update of a coin: the feature, the derivative that it is scaled by, and the average norm that
the parameter is divided by. -/
structure Round (R : Type) where
  x : R
  update : R
  average : R

/-- What rounds make of the coin of a zeroed group. -/
def play {R : Type} [Scalar R] (p : Params R) (rounds : List (Round R)) : Coin R :=
  rounds.foldl (fun w r => w.update p r.average r.x r.update) (load WeightTable.zeroGroup)

variable {K : Type} [ExactNumber K] {p : Params K} {w : Coin K} {rounds : List (Round K)}

theorem play_append (p : Params K) (before : List (Round K)) (last : Round K) :
    play p (before ++ [last]) = (play p before).update p last.average last.x last.update := by
  simp [play]

/-! ## Bets -/

/-- A gradient within the estimates takes less than there is. -/
theorem mul_bet_lt {g size : K} (hsolvent : 0 < p.alpha + w.wealth)
    (hsums : |w.negGradSum| ≤ w.sumAbsGrad) (hg : |g| ≤ w.maxGrad * size) :
    g * bet p w size < p.alpha + w.wealth := by
  simp only [bet, ExactNumber.ofNat_eq, Nat.cast_zero]
  split
  · rename_i hscale
    generalize w.maxGrad * size = scale at hg hscale
    have hsum : 0 ≤ w.sumAbsGrad := (abs_nonneg _).trans hsums
    have hden : 0 < scale * (scale + w.sumAbsGrad) :=
      mul_pos hscale (add_pos_of_pos_of_nonneg hscale hsum)
    have hgain : g * w.negGradSum < scale * (scale + w.sumAbsGrad) :=
      calc g * w.negGradSum ≤ |g| * |w.negGradSum| := (le_abs_self _).trans (abs_mul _ _).le
        _ ≤ scale * w.sumAbsGrad := mul_le_mul hg hsums (abs_nonneg _) hscale.le
        _ < scale * (scale + w.sumAbsGrad) :=
          mul_lt_mul_of_pos_left (lt_add_of_pos_left _ hscale) hscale
    calc g * ((p.alpha + w.wealth) / (scale * (scale + w.sumAbsGrad)) * w.negGradSum)
        = (p.alpha + w.wealth) * (g * w.negGradSum / (scale * (scale + w.sumAbsGrad))) := by ring
      _ < (p.alpha + w.wealth) * 1 :=
          mul_lt_mul_of_pos_left ((div_lt_one hden).mpr hgain) hsolvent
      _ = p.alpha + w.wealth := mul_one _
  · rwa [mul_zero]

/-- A gradient is within the estimates that were widened to it. -/
theorem abs_gradient_le (p : Params K) (w : Coin K) (x update : K) :
    |update * x| ≤ (widen p w x update).maxGrad * (widen p w x update).maxAbsX := by
  have hx : |x| ≤ (widen p w x update).maxAbsX := by
    change |x| ≤ widened w x
    rw [widened, ExactNumber.maxNum_eq]
    exact le_max_right _ _
  have hupdate : |update| ≤ (widen p w x update).maxGrad := by
    change |update| ≤ if w.maxGrad < |update| then Scalar.maxNum |update| p.beta else w.maxGrad
    split
    · rw [ExactNumber.maxNum_eq]
      exact le_max_left _ _
    · rename_i hle
      exact not_lt.mp hle
  rw [abs_mul]
  exact mul_le_mul hupdate hx (abs_nonneg x) ((abs_nonneg update).trans hupdate)

/-! ## Sizes -/

/-- The largest size of what rounds are measured by, zero before the first round. -/
def largest (measure : Round K → K) (rounds : List (Round K)) : K :=
  (rounds.map fun r => |measure r|).foldl max 0

variable {measure : Round K → K}

theorem largest_append (before : List (Round K)) (last : Round K) :
    largest measure (before ++ [last]) = max (largest measure before) |measure last| := by
  simp [largest]

theorem largest_nonneg (rounds : List (Round K)) : 0 ≤ largest measure rounds := by
  induction rounds using List.reverseRecOn with
  | nil => exact le_refl _
  | append_singleton before last ih =>
    rw [largest_append]
    exact ih.trans (le_max_left _ _)

theorem isGreatest_largest (hne : rounds ≠ []) :
    IsGreatest {size | ∃ r ∈ rounds, |measure r| = size} (largest measure rounds) := by
  obtain ⟨r, rest, rfl⟩ := List.exists_cons_of_ne_nil hne
  have hmax : ((r :: rest).map fun r => |measure r|).max? = some (largest measure (r :: rest)) := by
    rw [List.map_cons, List.max?_cons', largest, List.map_cons, List.foldl_cons,
      max_eq_right (abs_nonneg _)]
  obtain ⟨hmem, hle⟩ := List.max?_eq_some_iff.mp hmax
  refine ⟨List.mem_map.mp hmem, ?_⟩
  rintro size ⟨r, hr, rfl⟩
  exact hle _ (List.mem_map_of_mem hr)

/-! ## Books -/

/-- What holds of a coin after rounds. -/
structure Books (p : Params K) (rounds : List (Round K)) (w : Coin K) : Prop where
  solvent : 0 < p.alpha + w.wealth
  sums : |w.negGradSum| ≤ w.sumAbsGrad
  maxAbsX_eq : w.maxAbsX = largest Round.x rounds
  maxGrad_eq : w.maxGrad =
    if largest Round.update rounds = 0 then 0 else max p.beta (largest Round.update rounds)

theorem Books.new (halpha : 0 < p.alpha) : Books p [] (load WeightTable.zeroGroup) := by
  refine ⟨?_, ?_, ?_, ?_⟩ <;>
    simp [load, WeightTable.zeroGroup, ExactNumber.ofNat_eq, largest, halpha]

theorem maxGrad_widen {slope : K} (hslope : 0 ≤ slope)
    (h : w.maxGrad = if slope = 0 then 0 else max p.beta slope) (x update : K) :
    (widen p w x update).maxGrad =
      if max slope |update| = 0 then 0 else max p.beta (max slope |update|) := by
  change (if w.maxGrad < |update| then Scalar.maxNum |update| p.beta else w.maxGrad) = _
  rw [ExactNumber.maxNum_eq, h]
  rcases hslope.eq_or_lt with rfl | hpos
  · rw [if_pos rfl, max_eq_right (abs_nonneg update), max_comm p.beta]
    rcases (abs_nonneg update).eq_or_lt with hzero | hupdate
    · rw [← hzero, if_neg (lt_irrefl _), if_pos rfl]
    · rw [if_pos hupdate, if_neg hupdate.ne']
  · rw [if_neg hpos.ne', if_neg (hpos.trans_le (le_max_left _ _)).ne', ← max_assoc]
    split
    · rename_i hlarger
      rw [max_eq_right hlarger.le, max_eq_left ((le_max_left _ _).trans hlarger.le)]
    · rename_i hwithin
      rw [max_eq_left (not_lt.mp hwithin)]

/-- A round keeps the books. -/
theorem Books.update (h : Books p rounds w) (r : Round K) :
    Books p (rounds ++ [r]) (w.update p r.average r.x r.update) := by
  refine ⟨?_, ?_, ?_, ?_⟩
  · have hloss := mul_bet_lt (p := p) (w := widen p w r.x r.update) h.solvent h.sums
      (abs_gradient_le p w r.x r.update)
    change 0 < p.alpha + (w.wealth - r.update * r.x *
      bet p (widen p w r.x r.update) (widen p w r.x r.update).maxAbsX)
    rw [← add_sub_assoc]
    exact sub_pos.mpr hloss
  · calc |w.negGradSum - r.update * r.x| ≤ |w.negGradSum| + |r.update * r.x| := abs_sub _ _
      _ ≤ w.sumAbsGrad + |r.update * r.x| := by gcongr; exact h.sums
  · change widened w r.x = _
    rw [widened, ExactNumber.maxNum_eq, h.maxAbsX_eq, largest_append]
    rfl
  · rw [largest_append]
    exact maxGrad_widen (largest_nonneg _) h.maxGrad_eq r.x r.update

theorem play_books (halpha : 0 < p.alpha) (rounds : List (Round K)) :
    Books p rounds (play p rounds) := by
  induction rounds using List.reverseRecOn with
  | nil => exact .new halpha
  | append_singleton before last ih =>
    rw [play_append]
    exact ih.update last

/-- Coin betting never goes bankrupt. After every round the wealth is above `-alpha` and the gradient
sum within the sum of sizes; the magnitude estimate is the largest feature seen, and the Lipschitz
estimate the largest update seen, but no less than `beta` once an update was other than zero. The
gradient was within these estimates when the bet on it was settled, and the parameter is the next bet
over the average norm of the round. -/
theorem play_solvent (halpha : 0 < p.alpha) (before : List (Round K)) {last : Round K}
    (haverage : 0 < last.average) :
    let seen := before ++ [last]
    let wide := widen p (play p before) last.x last.update
    let next := play p seen
    0 < p.alpha + next.wealth ∧ |next.negGradSum| ≤ next.sumAbsGrad ∧
      IsGreatest {size | ∃ r ∈ seen, |r.x| = size} next.maxAbsX ∧
      ((∀ r ∈ seen, r.update = 0) → next.maxGrad = 0) ∧
      ((∃ r ∈ seen, r.update ≠ 0) → ∃ slope,
        IsGreatest {size | ∃ r ∈ seen, |r.update| = size} slope ∧
          next.maxGrad = max p.beta slope) ∧
      |last.update * last.x| ≤ wide.maxGrad * wide.maxAbsX ∧
      next.param * last.average = bet p next next.maxAbsX := by
  intro seen wide next
  have hbooks : Books p seen next := play_books halpha seen
  have hne : seen ≠ [] := List.append_ne_nil_of_right_ne_nil _ (List.cons_ne_nil _ _)
  have hslope : IsGreatest {size | ∃ r ∈ seen, |r.update| = size} (largest Round.update seen) :=
    isGreatest_largest hne
  refine ⟨hbooks.solvent, hbooks.sums, ?_, ?_, ?_, abs_gradient_le p _ _ _, ?_⟩
  · rw [hbooks.maxAbsX_eq]
    exact isGreatest_largest hne
  · intro hzero
    obtain ⟨r, hr, hsize⟩ := hslope.1
    rw [hzero r hr, abs_zero] at hsize
    rw [hbooks.maxGrad_eq, if_pos hsize.symm]
  · rintro ⟨r, hr, hupdate⟩
    have hpos : 0 < largest Round.update seen :=
      (abs_pos.mpr hupdate).trans_le (hslope.2 ⟨r, hr, rfl⟩)
    refine ⟨_, hslope, ?_⟩
    rw [hbooks.maxGrad_eq, if_neg hpos.ne']
  · have hnext : next = (play p before).update p last.average last.x last.update :=
      play_append p before last
    rw [hnext]
    exact div_mul_cancel₀ _ haverage.ne'

/-- Three rounds on a feature of one value, the last one with a gradient downwards. -/
theorem play_solvent_three_rounds :
    let p : Params ℝ := ⟨4, 1, 0, 0⟩
    let before : List (Round ℝ) := [⟨7 / 10, -2, 1⟩, ⟨7 / 10, 1 / 2, 4 / 5⟩]
    let last : Round ℝ := ⟨7 / 10, -1, 13 / 10⟩
    let next := play p (before ++ [last])
    (0 < p.alpha ∧ 0 < last.average) ∧ 0 < p.alpha + next.wealth ∧
      next.param * last.average = bet p next next.maxAbsX := by
  intro p before last next
  have halpha : 0 < p.alpha := by norm_num [p]
  have haverage : 0 < last.average := by norm_num [last]
  obtain ⟨hsolvent, -, -, -, -, -, hparam⟩ := play_solvent halpha before haverage
  exact ⟨⟨halpha, haverage⟩, hsolvent, hparam⟩

end OnlineLearning.Coin
