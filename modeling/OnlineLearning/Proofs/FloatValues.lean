import Mathlib
import OnlineLearning.Proofs.Exact
import OnlineLearning.Proofs.Order
import OnlineLearning.Proofs.Widening

/-!
# What floats stand for

A float stands for a real number or for an infinity, unless it is no number. Floats are compared by
exponent and mantissa; as a mantissa uses all its bits unless the exponent is the least one, this is
the order of the numbers that they stand for.

* `number?` is the number that a float stands for, if it does for one;
* `lt_iff_number` and `le_iff_number`: floats are compared as these numbers are;
* `zero_lt_iff_number` and its like: what the comparisons with zero and one say of a float.
-/

namespace OnlineLearning

open Float.Model (Format UnpackedFloat)
open Float.Model.UnpackedFloat

/-! ## Unpacked numbers -/

/-- The size of a finite number. -/
noncomputable def magnitude (mantissa : ℕ) (exponent : ℤ) : ℝ := mantissa * 2 ^ exponent

/-- The number that an unpacked one stands for. -/
noncomputable def numberOf? : UnpackedFloat → Option EReal
  | .notANumber => none
  | .infinity .negative => some ⊥
  | .finite .negative mantissa exponent _ => some ↑(-magnitude mantissa exponent)
  | .zero _ => some 0
  | .finite .positive mantissa exponent _ => some (magnitude mantissa exponent)
  | .infinity .positive => some ⊤

section

variable {spec : Format} {m m' : ℕ} {e e' : ℤ} {s s' : Sign} {hpos : 0 < m} {hpos' : 0 < m'}

theorem magnitude_pos (hpos : 0 < m) (e : ℤ) : 0 < magnitude m e := by
  unfold magnitude
  positivity

/-- A greater exponent makes a greater number, as the mantissa beside it uses all its bits. -/
theorem magnitude_lt_of_exponent_lt (h : Canonical spec (.finite s m e hpos))
    (h' : Full spec (.finite s' m' e' hpos')) (hlt : e < e') : magnitude m e < magnitude m' e' := by
  have hbits : spec.mantissaBits = 1 + spec.mantissaBitsWithoutImplicit := rfl
  have hfull : 2 ^ spec.mantissaBitsWithoutImplicit ≤ m' :=
    h'.resolve_left (fun heq => absurd h.2 (by omega))
  have hmantissa : m < 2 * 2 ^ spec.mantissaBitsWithoutImplicit := by
    rw [← Nat.pow_succ', ← Nat.one_add, ← hbits]
    exact h.1
  have hdouble : (m : ℝ) < 2 * m' := by exact_mod_cast hmantissa.trans_le (by omega)
  calc (m : ℝ) * 2 ^ e < 2 * m' * 2 ^ e := mul_lt_mul_of_pos_right hdouble (by positivity)
    _ = m' * 2 ^ (e + 1) := by rw [zpow_add₀ two_ne_zero, zpow_one]; ring
    _ ≤ m' * 2 ^ e' :=
      mul_le_mul_of_nonneg_left (zpow_le_zpow_right₀ one_le_two hlt) (Nat.cast_nonneg _)

/-- The order by exponent and mantissa is that of the numbers. -/
theorem magnitude_lt_iff (h : Canonical spec (.finite s m e hpos))
    (hfull : Full spec (.finite s m e hpos)) (h' : Canonical spec (.finite s' m' e' hpos'))
    (hfull' : Full spec (.finite s' m' e' hpos')) :
    magnitude m e < magnitude m' e' ↔ e < e' ∨ e = e' ∧ m < m' := by
  have hpower : (0 : ℝ) < 2 ^ e := by positivity
  rcases lt_trichotomy e e' with hlt | rfl | hgt
  · exact iff_of_true (magnitude_lt_of_exponent_lt h hfull' hlt) (.inl hlt)
  · rw [magnitude, magnitude, mul_lt_mul_iff_left₀ hpower, Nat.cast_lt]
    simp
  · refine iff_of_false (magnitude_lt_of_exponent_lt h' hfull hgt).not_gt ?_
    omega

end

/-- Unpacked numbers of one format are ordered as what they stand for. -/
theorem place_lt_iff {spec : Format} {u v : UnpackedFloat} (hu : Canonical spec u)
    (hu' : Full spec u) (hv : Canonical spec v) (hv' : Full spec v) {a b : EReal}
    (ha : a ∈ numberOf? u) (hb : b ∈ numberOf? v) : place u < place v ↔ a < b := by
  cases u with
  | notANumber => cases ha
  | infinity s =>
    cases v with
    | notANumber => cases hb
    | infinity s' => cases s <;> cases s' <;> cases ha <;> cases hb <;> simp [place, Prod.Lex.lt_iff]
    | zero => cases s <;> cases ha <;> cases hb <;> simp [place, Prod.Lex.lt_iff]
    | finite s' m' e' hpos' =>
      cases s <;> cases s' <;> cases ha <;> cases hb <;>
        simp [place, Prod.Lex.lt_iff, - EReal.coe_neg]
  | zero =>
    cases v with
    | notANumber => cases hb
    | infinity s' => cases s' <;> cases ha <;> cases hb <;> simp [place, Prod.Lex.lt_iff]
    | zero => cases ha; cases hb; simp [place]
    | finite s' m' e' hpos' =>
      have hsize := magnitude_pos hpos' e'
      cases s' <;> cases ha <;> cases hb <;> simp [place, Prod.Lex.lt_iff, hsize, hsize.le]
  | finite s m e hpos =>
    have hsize := magnitude_pos hpos e
    cases v with
    | notANumber => cases hb
    | infinity s' =>
      cases s <;> cases s' <;> cases ha <;> cases hb <;>
        simp [place, Prod.Lex.lt_iff, - EReal.coe_neg]
    | zero => cases s <;> cases ha <;> cases hb <;> simp [place, Prod.Lex.lt_iff, hsize, hsize.le]
    | finite s' m' e' hpos' =>
      have hsize' := magnitude_pos hpos' e'
      have hless := magnitude_lt_iff hu hu' hv hv'
      have hmore := magnitude_lt_iff hv hv' hu hu'
      cases s <;> cases s' <;> cases ha <;> cases hb <;>
        simp [place, Prod.Lex.lt_iff, hless, hmore, eq_comm, - EReal.coe_neg] <;> linarith

/-! ## Numbers of floats -/

section

variable {F : Type} [Number F] [Packed F] {x y : F}

open Packed

theorem Packed.full (x : F) : Full (spec F) (unpacked x) := by
  rw [← ofUnpacked_unpacked x, unpacked_ofUnpacked]
  exact full_unpack _

/-- The number that a float stands for; one that is no number stands for none. -/
noncomputable def number? (x : F) : Option EReal := numberOf? (unpacked x)

theorem number?_eq_none : number? x = none ↔ IsNaN x := by
  unfold number? IsNaN
  generalize unpacked x = u
  cases u with
  | notANumber => exact iff_of_true rfl rfl
  | infinity s | zero s | finite s => cases s <;> exact iff_of_false nofun nofun

theorem exists_number (h : ¬ IsNaN x) : ∃ a, a ∈ number? x :=
  Option.ne_none_iff_exists'.mp (mt number?_eq_none.mp h)

theorem not_isNaN_of_number {a : EReal} (h : a ∈ number? x) : ¬ IsNaN x := fun hnan =>
  Option.not_mem_none a (number?_eq_none.mpr hnan ▸ h)

theorem place_lt_iff_number {a b : EReal} (ha : a ∈ number? x) (hb : b ∈ number? y) :
    place (unpacked x) < place (unpacked y) ↔ a < b :=
  place_lt_iff (canonical x) (Packed.full x) (canonical y) (Packed.full y) ha hb

/-- A float is less than another if both stand for numbers and these are ordered so. -/
theorem lt_iff_number : x < y ↔ ∃ a ∈ number? x, ∃ b ∈ number? y, a < b := by
  rw [lt_iff_place]
  constructor
  · rintro ⟨hx, hy, hlt⟩
    obtain ⟨a, ha⟩ := exists_number hx
    obtain ⟨b, hb⟩ := exists_number hy
    exact ⟨a, ha, b, hb, (place_lt_iff_number ha hb).mp hlt⟩
  · rintro ⟨a, ha, b, hb, hlt⟩
    exact ⟨not_isNaN_of_number ha, not_isNaN_of_number hb, (place_lt_iff_number ha hb).mpr hlt⟩

theorem le_iff_number : x ≤ y ↔ ∃ a ∈ number? x, ∃ b ∈ number? y, a ≤ b := by
  rw [le_iff_place]
  constructor
  · rintro ⟨hx, hy, hle⟩
    obtain ⟨a, ha⟩ := exists_number hx
    obtain ⟨b, hb⟩ := exists_number hy
    exact ⟨a, ha, b, hb, not_lt.mp (mt (place_lt_iff_number hb ha).mpr hle.not_gt)⟩
  · rintro ⟨a, ha, b, hb, hle⟩
    refine ⟨not_isNaN_of_number ha, not_isNaN_of_number hb, not_lt.mp fun hlt => ?_⟩
    exact hle.not_gt ((place_lt_iff_number hb ha).mp hlt)

@[simp] theorem number?_zero : number? (0 : F) = some 0 := by rw [number?, unpacked_zero, numberOf?]

theorem zero_lt_iff_number : 0 < x ↔ ∃ a ∈ number? x, 0 < a := by simp [lt_iff_number]

theorem zero_le_iff_number : 0 ≤ x ↔ ∃ a ∈ number? x, 0 ≤ a := by simp [le_iff_number]

/-- What is no number is not negative. -/
theorem not_lt_zero_iff_number : ¬ x < 0 ↔ ∀ a ∈ number? x, 0 ≤ a := by simp [lt_iff_number]

/-- What is no number is not at most zero. -/
theorem not_le_zero_iff_number : ¬ x ≤ 0 ↔ ∀ a ∈ number? x, 0 < a := by simp [le_iff_number]

end

/-! ## Narrow floats -/

section

variable {x : Float32}

@[simp] theorem number?_one : number? (1 : Float32) = some 1 := by
  have hone : magnitude (2 ^ 23) (-23) = 1 := by
    rw [magnitude]
    norm_num
  exact congrArg (fun r : ℝ => some (r : EReal)) hone

theorem le_one_iff_number : x ≤ 1 ↔ ∃ a ∈ number? x, a ≤ 1 := by simp [le_iff_number]

theorem isFinite_iff_number : Scalar.isFinite x = true ↔ ∃ r : ℝ, number? x = some ↑r := by
  change x.toModel.unpack.isFinite = true ↔ ∃ r : ℝ, numberOf? x.toModel.unpack = some ↑r
  cases x.toModel.unpack with
  | notANumber => exact iff_of_false nofun nofun
  | infinity s =>
    refine iff_of_false nofun ?_
    cases s <;> simp [numberOf?]
  | zero s => exact iff_of_true rfl ⟨0, rfl⟩
  | finite s m e => cases s <;> exact iff_of_true rfl ⟨_, rfl⟩

theorem exists_and_isFinite_iff {p : EReal → Prop} :
    (∃ a ∈ number? x, p a) ∧ Scalar.isFinite x = true ↔ ∃ r : ℝ, number? x = some ↑r ∧ p r := by
  rw [isFinite_iff_number]
  constructor
  · rintro ⟨⟨a, ha, hp⟩, r, hr⟩
    obtain rfl := Option.mem_unique ha hr
    exact ⟨r, hr, hp⟩
  · rintro ⟨r, hr, hp⟩
    exact ⟨⟨r, hr, hp⟩, r, hr⟩

end

end OnlineLearning
