import OnlineLearning.Proofs.Signs

/-!
# The order of numbers

Numbers that are none are not comparable to anything, and all others are ordered by their place on
the line. So comparisons with what is not a number fail, and all others are those of a linear order,
in which the two zeros have one place.

* `place` is the place of a number;
* `lt_iff_place` and `le_iff_place`: comparisons are those of places;
* `le_of_le_of_le`, `lt_of_not_le` and their like are what follows.
-/

namespace OnlineLearning

open Float.Model (UnpackedFloat)
open Float.Model.UnpackedFloat

/-! ## Places -/

section Unpacked

/-- The place of an unpacked number on the line: by its kind, then by exponent and mantissa. -/
def place : UnpackedFloat → ℤ ×ₗ ℤ ×ₗ ℤ
  | .infinity .negative => toLex (-2, toLex (0, 0))
  | .finite .negative mantissa exponent _ => toLex (-1, toLex (-exponent, -(mantissa : ℤ)))
  | .zero _ | .notANumber => toLex (0, toLex (0, 0))
  | .finite .positive mantissa exponent _ => toLex (1, toLex (exponent, (mantissa : ℤ)))
  | .infinity .positive => toLex (2, toLex (0, 0))

variable {u v : UnpackedFloat}

theorem then_eq_lt_iff {m m' : Nat} {e e' : Int} :
    (compare e e').then (compare m m') = .lt ↔ e < e' ∨ e = e' ∧ m < m' := by
  rw [Ordering.then_eq_lt, compare_lt_iff_lt, compare_eq_iff_eq, compare_lt_iff_lt]

theorem then_eq_gt_iff {m m' : Nat} {e e' : Int} :
    (compare e e').then (compare m m') = .gt ↔ e' < e ∨ e = e' ∧ m' < m := by
  rw [Ordering.then_eq_gt, compare_gt_iff_gt, compare_eq_iff_eq, compare_gt_iff_gt]

theorem compare_eq_lt_iff (hu : sign? u ≠ none) (hv : sign? v ≠ none) :
    u.compare v = some .lt ↔ place u < place v := by
  cases u with
  | notANumber => exact absurd rfl hu
  | infinity s | zero s | finite s =>
    cases v with
    | notANumber => exact absurd rfl hv
    | infinity s' | zero s' | finite s' =>
      have hsign : compare Sign.negative Sign.positive = .lt := rfl
      cases s <;> cases s' <;>
        simp [UnpackedFloat.compare, place, Prod.Lex.lt_iff, then_eq_lt_iff, then_eq_gt_iff, hsign]

theorem compare_eq_eq_iff (hu : sign? u ≠ none) (hv : sign? v ≠ none) :
    u.compare v = some .eq ↔ place u = place v := by
  cases u with
  | notANumber => exact absurd rfl hu
  | infinity s | zero s | finite s =>
    cases v with
    | notANumber => exact absurd rfl hv
    | infinity s' | zero s' | finite s' =>
      have hsign (s : Sign) : compare s s = .eq := by cases s <;> rfl
      cases s <;> cases s' <;> simp [UnpackedFloat.compare, place, Ordering.then_eq_eq, hsign]

theorem sign?_of_compare {o : Ordering} (h : u.compare v = some o) :
    sign? u ≠ none ∧ sign? v ≠ none := by
  cases u with
  | notANumber => cases h
  | infinity | zero | finite =>
    cases v with
    | notANumber => cases h
    | infinity | zero | finite => exact ⟨nofun, nofun⟩

end Unpacked

/-! ## Comparisons -/

variable {F : Type} [Number F] [Packed F] {x y z : F}

open Packed

theorem lt_iff_place : x < y ↔ ¬ IsNaN x ∧ ¬ IsNaN y ∧ place (unpacked x) < place (unpacked y) := by
  rw [lt_iff]
  constructor
  · intro h
    obtain ⟨hx, hy⟩ := sign?_of_compare h
    exact ⟨hx, hy, (compare_eq_lt_iff hx hy).mp h⟩
  · rintro ⟨hx, hy, h⟩
    exact (compare_eq_lt_iff hx hy).mpr h

theorem le_iff_place : x ≤ y ↔ ¬ IsNaN x ∧ ¬ IsNaN y ∧ place (unpacked x) ≤ place (unpacked y) := by
  rw [le_iff, le_iff_lt_or_eq]
  constructor
  · rintro (h | h)
    · obtain ⟨hx, hy⟩ := sign?_of_compare h
      exact ⟨hx, hy, .inl ((compare_eq_lt_iff hx hy).mp h)⟩
    · obtain ⟨hx, hy⟩ := sign?_of_compare h
      exact ⟨hx, hy, .inr ((compare_eq_eq_iff hx hy).mp h)⟩
  · rintro ⟨hx, hy, h⟩
    exact h.imp (compare_eq_lt_iff hx hy).mpr (compare_eq_eq_iff hx hy).mpr

theorem le_self (hx : ¬ IsNaN x) : x ≤ x := le_iff_place.mpr ⟨hx, hx, le_refl _⟩

theorem le_of_less (h : x < y) : x ≤ y := by
  obtain ⟨hx, hy, hlt⟩ := lt_iff_place.mp h
  exact le_iff_place.mpr ⟨hx, hy, hlt.le⟩

theorem le_of_le_of_le (h : x ≤ y) (h' : y ≤ z) : x ≤ z := by
  obtain ⟨hx, -, hxy⟩ := le_iff_place.mp h
  obtain ⟨-, hz, hyz⟩ := le_iff_place.mp h'
  exact le_iff_place.mpr ⟨hx, hz, hxy.trans hyz⟩

theorem less_of_less_of_le (h : x < y) (h' : y ≤ z) : x < z := by
  obtain ⟨hx, -, hxy⟩ := lt_iff_place.mp h
  obtain ⟨-, hz, hyz⟩ := le_iff_place.mp h'
  exact lt_iff_place.mpr ⟨hx, hz, hxy.trans_le hyz⟩

theorem less_of_le_of_less (h : x ≤ y) (h' : y < z) : x < z := by
  obtain ⟨hx, -, hxy⟩ := le_iff_place.mp h
  obtain ⟨-, hz, hyz⟩ := lt_iff_place.mp h'
  exact lt_iff_place.mpr ⟨hx, hz, hxy.trans_lt hyz⟩

theorem less_of_not_le (hx : ¬ IsNaN x) (hy : ¬ IsNaN y) (h : ¬ x ≤ y) : y < x := by
  refine lt_iff_place.mpr ⟨hy, hx, lt_of_not_ge fun hle => h ?_⟩
  exact le_iff_place.mpr ⟨hx, hy, hle⟩

theorem le_of_not_less (hx : ¬ IsNaN x) (hy : ¬ IsNaN y) (h : ¬ x < y) : y ≤ x := by
  refine le_iff_place.mpr ⟨hy, hx, le_of_not_gt fun hlt => h ?_⟩
  exact lt_iff_place.mpr ⟨hx, hy, hlt⟩

theorem not_le_of_less (h : x < y) : ¬ y ≤ x := fun hle =>
  (lt_iff_place.mp h).2.2.not_ge (le_iff_place.mp hle).2.2

theorem not_isNaN_of_le (h : x ≤ y) : ¬ IsNaN x ∧ ¬ IsNaN y :=
  ⟨(le_iff_place.mp h).1, (le_iff_place.mp h).2.1⟩

end OnlineLearning
