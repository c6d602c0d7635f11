import OnlineLearning.Proofs.Configured
import OnlineLearning.Proofs.Order

/-!
# Bounds of predictions

The bounds of a context start around zero and are widened by labels, which may be no numbers or
infinite ones. So zero is always within them, and a raw prediction moved into them is a number within
them, whatever it was.

* `Context.Spans`: bounds around zero, which labels keep so;
* `Context.Bounds`: numbers within the bounds, of which a bounded raw prediction is one;
* `Context.lossOf_eq` and `Context.derivativeOf_bound`: there the squared loss is a square, and its
  derivative moves nothing into the bounds.
-/

namespace OnlineLearning

/-! ## Moving numbers between bounds -/

/-- A number moved between two others. -/
def clamp {R : Type} [Scalar R] (low high x : R) : R :=
  Scalar.minNum (Scalar.maxNum x low) high

section

variable {low high x y : Float32}

theorem maxNum_of_le (hx : ¬ IsNaN x) (h : x ≤ y) : Scalar.maxNum x y = y := by
  unfold Scalar.maxNum
  rw [if_neg (mt isNaN_iff.mp hx), if_pos h]

theorem maxNum_of_less (h : y < x) : Scalar.maxNum x y = x := by
  unfold Scalar.maxNum
  rw [if_neg (mt isNaN_iff.mp (lt_iff_place.mp h).2.1), if_neg (not_le_of_less h)]

theorem minNum_of_le (hx : ¬ IsNaN x) (h : y ≤ x) : Scalar.minNum x y = y := by
  unfold Scalar.minNum
  rw [if_neg (mt isNaN_iff.mp hx), if_pos h]

theorem minNum_of_less (h : x < y) : Scalar.minNum x y = x := by
  unfold Scalar.minNum
  rw [if_neg (mt isNaN_iff.mp (lt_iff_place.mp h).1), if_neg (not_le_of_less h)]

/-- A number moved between two others is one of the three: the upper one, the lower one if that is
less, or it is between them and is left where it was. -/
theorem clamp_cases (hx : ¬ IsNaN x) (h : low ≤ high) :
    clamp low high x = high ∨ clamp low high x = low ∧ low < high ∨
      clamp low high x = x ∧ low < x ∧ x < high := by
  obtain ⟨hlow, hhigh⟩ := not_isNaN_of_le h
  unfold clamp
  by_cases hle : x ≤ low
  · rw [maxNum_of_le hx hle]
    by_cases hcross : high ≤ low
    · exact .inl (minNum_of_le hlow hcross)
    · have hless := less_of_not_le hhigh hlow hcross
      exact .inr (.inl ⟨minNum_of_less hless, hless⟩)
  · have hless := less_of_not_le hx hlow hle
    rw [maxNum_of_less hless]
    by_cases hcross : high ≤ x
    · exact .inl (minNum_of_le hx hcross)
    · have hbelow := less_of_not_le hhigh hx hcross
      exact .inr (.inr ⟨minNum_of_less hbelow, hless, hbelow⟩)

theorem clamp_between (hx : ¬ IsNaN x) (h : low ≤ high) :
    low ≤ clamp low high x ∧ clamp low high x ≤ high := by
  obtain ⟨hlow, hhigh⟩ := not_isNaN_of_le h
  rcases clamp_cases hx h with heq | ⟨heq, -⟩ | ⟨heq, hless, hbelow⟩
  · rw [heq]
    exact ⟨h, le_self hhigh⟩
  · rw [heq]
    exact ⟨le_self hlow, h⟩
  · rw [heq]
    exact ⟨le_of_less hless, le_of_less hbelow⟩

/-- A number that is between two others, or the upper one of them, is not moved. -/
theorem clamp_of_less (hless : low < x) (hbelow : x < high) : clamp low high x = x := by
  unfold clamp
  rw [maxNum_of_less hless, minNum_of_less hbelow]

theorem clamp_low (h : low < high) : clamp low high low = low := by
  have hlow := (lt_iff_place.mp h).1
  unfold clamp
  rw [maxNum_of_le hlow (le_self hlow), minNum_of_less h]

theorem clamp_high (h : low ≤ high) : clamp low high high = high := by
  obtain ⟨hlow, hhigh⟩ := not_isNaN_of_le h
  unfold clamp
  by_cases hcross : high ≤ low
  · rw [maxNum_of_le hhigh hcross, minNum_of_le hlow hcross]
  · rw [maxNum_of_less (less_of_not_le hhigh hlow hcross), minNum_of_le hhigh (le_self hhigh)]

theorem clamp_clamp (hx : ¬ IsNaN x) (h : low ≤ high) :
    clamp low high (clamp low high x) = clamp low high x := by
  rcases clamp_cases hx h with heq | ⟨heq, hless⟩ | ⟨heq, hless, hbelow⟩
  · rw [heq, clamp_high h]
  · rw [heq, clamp_low hless]
  · rw [heq, clamp_of_less hless hbelow]

end

/-! ## Contexts -/

namespace Context

section

variable {R W : Type} [Scalar R] [Number W] [Widening R W]

/-- Bounds around zero. A bound that is not beyond zero is zero itself, without a minus sign. -/
structure Spans (c : Context R W) : Prop where
  minLabel : c.stats.minLabel = 0 ∨ c.stats.minLabel < 0
  maxLabel : c.stats.maxLabel = 0 ∨ 0 < c.stats.maxLabel

/-- A number within the bounds of a context. -/
structure Bounds (c : Context R W) (x : R) : Prop where
  isNumber : Scalar.isNaN x = false
  minLabel : c.stats.minLabel ≤ x
  maxLabel : x ≤ c.stats.maxLabel

instance (c : Context R W) (x : R) : Decidable (c.Bounds x) :=
  decidable_of_iff (Scalar.isNaN x = false ∧ c.stats.minLabel ≤ x ∧ x ≤ c.stats.maxLabel)
    ⟨fun h => ⟨h.1, h.2.1, h.2.2⟩, fun h => ⟨h.isNumber, h.minLabel, h.maxLabel⟩⟩

/-- The loss of a prediction, the squared loss as if there were no bounds. -/
def plainLoss (c : Context R W) (prediction label : R) : R :=
  match c.loss with
  | .squared => (prediction - label) * (prediction - label)
  | .logistic => c.lossOf prediction label

/-- The derivative of the loss, that of the squared loss as if there were no bounds. -/
def plainDerivative (c : Context R W) (prediction label : R) : R :=
  match c.loss with
  | .squared => 2 * (prediction - label)
  | .logistic => c.derivativeOf prediction label

omit [Number W] [Widening R W] in
/-- Within the bounds the squared loss is a square. -/
theorem lossOf_eq {c : Context R W} {prediction : R}
    (h : c.loss = .squared → c.Bounds prediction) (label : R) :
    c.lossOf prediction label = c.plainLoss prediction label := by
  unfold plainLoss
  cases hloss : c.loss with
  | logistic => rfl
  | squared =>
    unfold lossOf
    rw [hloss]
    exact if_pos ⟨(h hloss).maxLabel, (h hloss).minLabel⟩

end

variable {c : NarrowContext}

theorem zero_isNumber : ¬ IsNaN (0 : Float32) := nofun

theorem Spans.minLabel_le (h : c.Spans) : c.stats.minLabel ≤ 0 := by
  rcases h.minLabel with hzero | hless
  · rw [hzero]
    exact le_self zero_isNumber
  · exact le_of_less hless

theorem Spans.le_maxLabel (h : c.Spans) : 0 ≤ c.stats.maxLabel := by
  rcases h.maxLabel with hzero | hless
  · rw [hzero]
    exact le_self zero_isNumber
  · exact le_of_less hless

theorem Spans.ordered (h : c.Spans) : c.stats.minLabel ≤ c.stats.maxLabel :=
  le_of_le_of_le h.minLabel_le h.le_maxLabel

theorem Spans.bounds_zero (h : c.Spans) : c.Bounds 0 := ⟨rfl, h.minLabel_le, h.le_maxLabel⟩

/-- A context whose bounds are at least as wide as those of another one. -/
structure Widens (start c : NarrowContext) : Prop where
  minLabel : c.stats.minLabel ≤ start.stats.minLabel
  maxLabel : start.stats.maxLabel ≤ c.stats.maxLabel

theorem Spans.widens_self (h : c.Spans) : c.Widens c :=
  ⟨le_self (not_isNaN_of_le h.minLabel_le).1, le_self (not_isNaN_of_le h.le_maxLabel).2⟩

theorem Spans.coverLabel (h : c.Spans) (label : Float32) :
    (c.coverLabel label).Spans ∧ c.Widens (c.coverLabel label) := by
  unfold Context.coverLabel
  split
  · have hmin : (label < c.stats.minLabel → label < 0 ∧ label ≤ c.stats.minLabel) := fun hless =>
      ⟨less_of_less_of_le hless h.minLabel_le, le_of_less hless⟩
    have hmax : (c.stats.maxLabel < label → 0 < label ∧ c.stats.maxLabel ≤ label) := fun hless =>
      ⟨less_of_le_of_less h.le_maxLabel hless, le_of_less hless⟩
    have hself := h.widens_self
    refine ⟨⟨?_, ?_⟩, ?_, ?_⟩ <;> dsimp only <;> split
    · exact .inr (hmin ‹_›).1
    · exact h.minLabel
    · exact .inr (hmax ‹_›).1
    · exact h.maxLabel
    · exact (hmin ‹_›).2
    · exact hself.minLabel
    · exact (hmax ‹_›).2
    · exact hself.maxLabel
  · exact ⟨h, h.widens_self⟩

/-- A label that is a number is within the bounds that cover it, where labels widen these. -/
theorem Spans.bounds_label (h : c.Spans) {label : Float32} (hlabel : Scalar.isNaN label = false)
    (hloss : c.loss = .squared) : (c.coverLabel label).Bounds label := by
  have hnumber : ¬ IsNaN label := fun hnan => Bool.false_ne_true (hlabel ▸ isNaN_iff.mpr hnan)
  have htracks : c.loss.tracksLabelRange = true := by
    rw [hloss]
    rfl
  unfold Context.coverLabel
  rw [if_pos htracks]
  refine ⟨hlabel, ?_, ?_⟩ <;> dsimp only <;> split
  · exact le_self hnumber
  · exact le_of_not_less hnumber (not_isNaN_of_le h.minLabel_le).1 ‹_›
  · exact le_self hnumber
  · exact le_of_not_less (not_isNaN_of_le h.le_maxLabel).2 hnumber ‹_›

theorem bound_eq (c : NarrowContext) (raw : Float32) : c.bound raw =
    if Scalar.isNaN raw then 0 else clamp c.stats.minLabel c.stats.maxLabel raw := rfl

theorem Spans.clamp_zero (h : c.Spans) : clamp c.stats.minLabel c.stats.maxLabel 0 = 0 := by
  have hlow : Scalar.maxNum 0 c.stats.minLabel = 0 := by
    rcases h.minLabel with hzero | hless
    · rw [hzero]
      exact maxNum_of_le zero_isNumber (le_self zero_isNumber)
    · exact maxNum_of_less hless
  unfold clamp
  rw [hlow]
  rcases h.maxLabel with hzero | hless
  · rw [hzero]
    exact minNum_of_le zero_isNumber (le_self zero_isNumber)
  · exact minNum_of_less hless

/-- A bounded prediction is a number within the bounds, whatever the raw one is. -/
theorem Spans.bounds_bound (h : c.Spans) (raw : Float32) : c.Bounds (c.bound raw) := by
  have hbounds {x : Float32} (hmin : c.stats.minLabel ≤ x) (hmax : x ≤ c.stats.maxLabel) :
      c.Bounds x :=
    ⟨Bool.eq_false_iff.mpr (mt isNaN_iff.mp (not_isNaN_of_le hmax).1), hmin, hmax⟩
  rw [bound_eq]
  split
  · exact hbounds h.minLabel_le h.le_maxLabel
  · rename_i hraw
    obtain ⟨hmin, hmax⟩ := clamp_between (mt isNaN_iff.mpr hraw) h.ordered
    exact hbounds hmin hmax

/-- The derivative at a bounded prediction is that at this prediction: it is within the bounds. -/
theorem Spans.derivativeOf_bound (h : c.Spans) (raw label : Float32) :
    c.derivativeOf (c.bound raw) label = c.plainDerivative (c.bound raw) label := by
  have hclamp : clamp c.stats.minLabel c.stats.maxLabel (c.bound raw) = c.bound raw := by
    rw [bound_eq]
    split
    · exact h.clamp_zero
    · rename_i hraw
      exact clamp_clamp (mt isNaN_iff.mpr hraw) h.ordered
  unfold plainDerivative
  cases hloss : c.loss with
  | logistic => rfl
  | squared =>
    unfold derivativeOf
    rw [hloss]
    exact congrArg (fun x => 2 * (x - label)) hclamp

/-- The bounds before any label. -/
theorem spans_initial {stats : Stats Float32 Float} {loss : LossFunction}
    (hstats : stats = Stats.initial loss) (c : NarrowContext) : Spans { c with stats } := by
  subst hstats
  cases loss with
  | squared => exact ⟨.inl rfl, .inl rfl⟩
  | logistic =>
    have hlow : (LossFunction.logistic.initialBounds : Float32 × Float32).1 < 0 := by decide +kernel
    have hhigh : 0 < (LossFunction.logistic.initialBounds : Float32 × Float32).2 := by decide +kernel
    exact ⟨.inr hlow, .inr hhigh⟩

end Context

end OnlineLearning
