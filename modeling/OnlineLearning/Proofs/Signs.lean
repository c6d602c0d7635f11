import OnlineLearning.Proofs.Packing

/-!
# Signs of numbers

Learning tells a zero from a zero with a minus sign only where it divides by it, but a model does
not tell them apart where a whole group is zero. What is known of signs of narrow and of wide numbers
follows from what is known of packed ones:

* `Packed` are the numbers that are packed in a format;
* `NoMinus`: numbers without a minus sign, which sums, products and quotients of such numbers are;
* `NotMinusZero`: numbers that are not a zero with a minus sign. A sum is not if one of its terms is
  not, and a difference is not if it is taken from one that is not.
-/

namespace OnlineLearning

open Float.Model (Format UnpackedFloat)
open Float.Model.UnpackedFloat

/-- Numbers that are unpacked for operations, and packed again. -/
class Packed (F : Type) [Number F] where
  spec : Format
  unpacked : F → UnpackedFloat
  ofUnpacked : UnpackedFloat → F
  canonical (x : F) : Canonical spec (unpacked x)
  unpacked_ofUnpacked (u : UnpackedFloat) : unpacked (ofUnpacked u) = unpack spec (pack spec u)
  ofUnpacked_unpacked (x : F) : ofUnpacked (unpacked x) = x
  add_eq (x y : F) : x + y = ofUnpacked (UnpackedFloat.add spec (unpacked x) (unpacked y))
  sub_eq (x y : F) : x - y = ofUnpacked (UnpackedFloat.sub spec (unpacked x) (unpacked y))
  mul_eq (x y : F) : x * y = ofUnpacked (UnpackedFloat.mul spec (unpacked x) (unpacked y))
  div_eq (x y : F) : x / y = ofUnpacked (UnpackedFloat.div spec (unpacked x) (unpacked y))
  lt_iff (x y : F) : x < y ↔ (unpacked x).compare (unpacked y) = some .lt
  le_iff (x y : F) : x ≤ y ↔ (unpacked x).compare (unpacked y) = some .lt ∨
    (unpacked x).compare (unpacked y) = some .eq
  beq_iff (x y : F) : (x == y) = true ↔ (unpacked x).compare (unpacked y) = some .eq
  unpacked_zero : unpacked 0 = .zero .positive

theorem isLE_compare {u v : UnpackedFloat} :
    (u.compare v).any (·.isLE) = true ↔ u.compare v = some .lt ∨ u.compare v = some .eq := by
  generalize u.compare v = order
  rcases order with _ | _ | _ | _ <;> simp

instance : Packed Float32 where
  spec := .binary32
  unpacked x := x.toModel.unpack
  ofUnpacked u := .ofModel (.pack u)
  canonical x := canonical_unpack _
  unpacked_ofUnpacked _ := rfl
  ofUnpacked_unpacked x := by
    obtain ⟨⟨bits, valid⟩⟩ := x
    have hbits := congrArg UInt32.ofBitVec (pack_unpack_of_valid valid)
    exact congrArg Float32.ofModel (Float32.Model.mk.injEq _ _ _ _ ▸ hbits)
  add_eq _ _ := rfl
  sub_eq _ _ := rfl
  mul_eq _ _ := rfl
  div_eq _ _ := rfl
  lt_iff x y := by
    change decide (x.toModel < y.toModel) = true ↔ _
    rw [decide_eq_true_iff]
    exact beq_iff_eq
  le_iff x y := by
    change decide (x.toModel ≤ y.toModel) = true ↔ _
    rw [decide_eq_true_iff]
    exact isLE_compare
  beq_iff x y := by
    change (x.toModel.unpack.compare y.toModel.unpack == some .eq) = true ↔ _
    exact beq_iff_eq
  unpacked_zero := rfl

instance : Packed Float where
  spec := .binary64
  unpacked x := x.toModel.unpack
  ofUnpacked u := .ofModel (.pack u)
  canonical x := canonical_unpack _
  unpacked_ofUnpacked _ := rfl
  ofUnpacked_unpacked x := by
    obtain ⟨⟨bits, valid⟩⟩ := x
    have hbits := congrArg UInt64.ofBitVec (pack_unpack_of_valid valid)
    exact congrArg Float.ofModel (Float.Model.mk.injEq _ _ _ _ ▸ hbits)
  add_eq _ _ := rfl
  sub_eq _ _ := rfl
  mul_eq _ _ := rfl
  div_eq _ _ := rfl
  lt_iff x y := by
    change decide (x.toModel < y.toModel) = true ↔ _
    rw [decide_eq_true_iff]
    exact beq_iff_eq
  le_iff x y := by
    change decide (x.toModel ≤ y.toModel) = true ↔ _
    rw [decide_eq_true_iff]
    exact isLE_compare
  beq_iff x y := by
    change (x.toModel.unpack.compare y.toModel.unpack == some .eq) = true ↔ _
    exact beq_iff_eq
  unpacked_zero := rfl

/-! ## Signs of unpacked results -/

section Unpacked

variable {spec : Format} {u v : UnpackedFloat}

@[simp] theorem sign?_roundWithAccuracy (s : Sign) (mantissa : Nat) (exponent : Int)
    (accuracy : Accuracy) :
    sign? (roundWithAccuracy spec s mantissa exponent accuracy) = some s := by
  unfold roundWithAccuracy
  dsimp only
  split <;> rfl

theorem signs_of_mul {s : Sign} (h : sign? (UnpackedFloat.mul spec u v) = some s) :
    ∃ a b, sign? u = some a ∧ sign? v = some b ∧ s = a * b := by
  cases u <;> cases v
  case finite.finite =>
    exact ⟨_, _, rfl, rfl, (Option.some.inj ((sign?_roundWithAccuracy _ _ _ _).symm.trans h)).symm⟩
  all_goals cases h <;> exact ⟨_, _, rfl, rfl, rfl⟩

theorem signs_of_div {s : Sign} (h : sign? (UnpackedFloat.div spec u v) = some s) :
    ∃ a b, sign? u = some a ∧ sign? v = some b ∧ s = a / b := by
  cases u <;> cases v
  case finite.finite =>
    exact ⟨_, _, rfl, rfl, (Option.some.inj ((sign?_roundWithAccuracy _ _ _ _).symm.trans h)).symm⟩
  all_goals cases h <;> exact ⟨_, _, rfl, rfl, rfl⟩

@[simp] theorem sign?_round (s : Sign) (mantissa : Nat) (exponent : Int) :
    sign? (round spec s mantissa exponent) = some s :=
  sign?_roundWithAccuracy _ _ _ _

theorem sign?_normalize_of_nonneg {mantissa : Int} (h : 0 ≤ mantissa) (exponent : Int) :
    sign? (normalize spec mantissa exponent .positive) = some .positive := by
  unfold UnpackedFloat.normalize
  split
  · rename_i hlt
    exact absurd (Int.compare_eq_lt.mp hlt) (by omega)
  · rfl
  · simp

/-- A sum with a minus sign has a term with one. -/
theorem negative_of_add (h : sign? (UnpackedFloat.add spec u v) = some .negative) :
    sign? u = some .negative ∨ sign? v = some .negative := by
  cases u <;> cases v
  case infinity.infinity s s' =>
    have hsum : UnpackedFloat.add spec (.infinity s) (.infinity s') =
        if s == s' then .infinity s else .notANumber := rfl
    rw [hsum] at h
    split at h
    · exact .inl h
    · cases h
  case zero.zero s s' =>
    cases s with
    | negative => exact .inl rfl
    | positive => cases s' <;> cases h
  case finite.finite s m e hm s' m' e' hm' =>
    cases s with
    | negative => exact .inl rfl
    | positive =>
      cases s' with
      | negative => exact .inr rfl
      | positive =>
        have hpos := (sign?_normalize_of_nonneg (Int.add_nonneg (Int.natCast_nonneg _)
          (Int.natCast_nonneg _)) _).symm.trans h
        cases hpos
  all_goals first | exact .inl h | exact .inr h

theorem negative_of_mul_self : sign? (UnpackedFloat.mul spec u u) ≠ some .negative := by
  intro h
  obtain ⟨a, b, ha, hb, hab⟩ := signs_of_mul h
  obtain rfl := Option.some.inj (ha.symm.trans hb)
  cases a <;> exact nomatch hab

def isZero : UnpackedFloat → Bool
  | .zero _ => true
  | _ => false

theorem zero_compare_lt {s : Sign} :
    (UnpackedFloat.zero s).compare u = some .lt ↔ sign? u = some .positive ∧ isZero u = false := by
  cases u with
  | notANumber => simp [UnpackedFloat.compare, sign?]
  | infinity s' | zero s' | finite s' => cases s' <;> simp [UnpackedFloat.compare, sign?, isZero]

theorem compare_zero_eq {s : Sign} : u.compare (.zero s) = some .eq ↔ isZero u = true := by
  cases u with
  | notANumber => simp [UnpackedFloat.compare, isZero]
  | infinity s' | zero s' | finite s' => cases s' <;> simp [UnpackedFloat.compare, isZero]

theorem positive_of_compare_lt (hu : sign? u ≠ some .negative) (h : u.compare v = some .lt) :
    sign? v = some .positive ∧ isZero v = false := by
  cases v with
  | notANumber => cases u <;> cases h
  | infinity s | finite s =>
    cases s with
    | positive => exact ⟨rfl, rfl⟩
    | negative =>
      cases u with
      | notANumber => cases h
      | infinity s | zero s | finite s => cases s <;> first | exact absurd rfl hu | cases h
  | zero =>
    cases u with
    | notANumber => cases h
    | infinity s | zero s | finite s => cases s <;> first | exact absurd rfl hu | cases h

theorem positive_of_compare_eq (hu : sign? u = some .positive ∧ isZero u = false)
    (h : u.compare v = some .eq) : sign? v = some .positive ∧ isZero v = false := by
  obtain ⟨hsign, hzero⟩ := hu
  cases u with
  | notANumber => cases hsign
  | zero => cases hzero
  | infinity s | finite s =>
    cases hsign
    cases v with
    | notANumber => cases h
    | infinity s' | zero s' | finite s' => cases s' <;> first | exact ⟨rfl, rfl⟩ | cases h

theorem mul_of_isZero (h : isZero u = true ∨ sign? u = none) :
    (∃ s, UnpackedFloat.mul spec u v = .zero s) ∨ UnpackedFloat.mul spec u v = .notANumber := by
  cases u with
  | notANumber => exact .inr rfl
  | infinity | finite => rcases h with h | h <;> cases h
  | zero =>
    cases v with
    | notANumber | infinity => exact .inr rfl
    | zero | finite => exact .inl ⟨_, rfl⟩

theorem mul_of_isZero_right (h : isZero v = true ∨ sign? v = none) :
    (∃ s, UnpackedFloat.mul spec u v = .zero s) ∨ UnpackedFloat.mul spec u v = .notANumber := by
  cases v with
  | notANumber => cases u <;> exact .inr rfl
  | infinity | finite => rcases h with h | h <;> cases h
  | zero =>
    cases u with
    | notANumber | infinity => exact .inr rfl
    | zero | finite => exact .inl ⟨_, rfl⟩

end Unpacked

/-! ## Numbers without a minus sign -/

variable {F : Type} [Number F] [Packed F] {x y z : F}

open Packed

/-- A number has no minus sign, or is not a number. -/
def NoMinus (x : F) : Prop := sign? (unpacked x) ≠ some .negative

/-- A number is not the zero with a minus sign. -/
def NotMinusZero (x : F) : Prop := unpacked x ≠ .zero .negative

theorem NoMinus.notMinusZero (h : NoMinus x) : NotMinusZero x := by
  intro hzero
  exact h (congrArg sign? hzero)

theorem noMinus_zero : NoMinus (0 : F) := by
  unfold NoMinus
  rw [unpacked_zero]
  exact nofun

theorem NoMinus.add (hx : NoMinus x) (hy : NoMinus y) : NoMinus (x + y) := by
  unfold NoMinus
  rw [add_eq, unpacked_ofUnpacked, sign?_unpack_pack]
  exact fun h => (negative_of_add h).elim hx hy

theorem NoMinus.mul (hx : NoMinus x) (hy : NoMinus y) : NoMinus (x * y) := by
  unfold NoMinus
  rw [mul_eq, unpacked_ofUnpacked, sign?_unpack_pack]
  intro h
  obtain ⟨a, b, ha, hb, hab⟩ := signs_of_mul h
  cases a with
  | negative => exact hx ha
  | positive =>
    cases b with
    | negative => exact hy hb
    | positive => cases hab

theorem noMinus_mul_self (x : F) : NoMinus (x * x) := by
  unfold NoMinus
  rw [mul_eq, unpacked_ofUnpacked, sign?_unpack_pack]
  exact negative_of_mul_self

theorem NoMinus.div (hx : NoMinus x) (hy : NoMinus y) : NoMinus (x / y) := by
  unfold NoMinus
  rw [div_eq, unpacked_ofUnpacked, sign?_unpack_pack]
  intro h
  obtain ⟨a, b, ha, hb, hab⟩ := signs_of_div h
  cases a with
  | negative => exact hx ha
  | positive =>
    cases b with
    | negative => exact hy hb
    | positive => cases hab

theorem NotMinusZero.add_left (hx : NotMinusZero x) (y : F) : NotMinusZero (x + y) := by
  intro h
  rw [add_eq, unpacked_ofUnpacked] at h
  exact hx (eq_of_packsMinusZero_add (canonical x) (canonical y) h).1

theorem NotMinusZero.add_right (x : F) (hy : NotMinusZero y) : NotMinusZero (x + y) := by
  intro h
  rw [add_eq, unpacked_ofUnpacked] at h
  exact hy (eq_of_packsMinusZero_add (canonical x) (canonical y) h).2

theorem NotMinusZero.sub (hx : NotMinusZero x) (y : F) : NotMinusZero (x - y) := by
  intro h
  rw [sub_eq, unpacked_ofUnpacked] at h
  exact hx (eq_of_packsMinusZero_sub (canonical x) (canonical y) h)

/-! ## Comparisons -/

theorem unpacked_inj (h : unpacked x = unpacked y) : x = y := by
  rw [← ofUnpacked_unpacked x, h, ofUnpacked_unpacked]

theorem zero_lt_iff :
    0 < x ↔ sign? (unpacked x) = some .positive ∧ isZero (unpacked x) = false := by
  rw [lt_iff, unpacked_zero, zero_compare_lt]

theorem beq_zero_iff : (x == 0) = true ↔ isZero (unpacked x) = true := by
  rw [beq_iff, unpacked_zero, compare_zero_eq]

/-- What equals zero and has no minus sign is zero. -/
theorem NotMinusZero.eq_zero (hx : NotMinusZero x) (h : (x == 0) = true) : x = 0 := by
  rw [beq_zero_iff] at h
  apply unpacked_inj
  rw [unpacked_zero]
  unfold NotMinusZero at hx
  generalize unpacked x = u at hx h
  cases u with
  | zero s =>
    cases s with
    | negative => exact absurd rfl hx
    | positive => rfl
  | notANumber | infinity | finite => cases h

theorem noMinus_of_pos (h : 0 < x) : NoMinus x := by
  unfold NoMinus
  rw [(zero_lt_iff.mp h).1]
  exact nofun

/-- What is above a number without a minus sign is above zero. -/
theorem NoMinus.pos_of_lt (hx : NoMinus x) (h : x < y) : 0 < y := by
  rw [lt_iff] at h
  exact zero_lt_iff.mpr (positive_of_compare_lt hx h)

theorem pos_of_le (hx : 0 < x) (h : x ≤ y) : 0 < y := by
  have hpos := zero_lt_iff.mp hx
  rw [le_iff] at h
  rcases h with h | h
  · exact (noMinus_of_pos hx).pos_of_lt ((lt_iff x y).mpr h)
  · exact zero_lt_iff.mpr (positive_of_compare_eq hpos h)

/-! ## Zeros and what is not a number -/

/-- A number is zero or not a number. -/
def Vanishes (x : F) : Prop := isZero (unpacked x) = true ∨ sign? (unpacked x) = none

theorem vanishes_of_beq_zero (h : (x == 0) = true) : Vanishes x := .inl (beq_zero_iff.mp h)

theorem Vanishes.not_pos (h : Vanishes x) : ¬ 0 < x := by
  intro hpos
  obtain ⟨hsign, hzero⟩ := zero_lt_iff.mp hpos
  rcases h with h | h
  · rw [hzero] at h
    cases h
  · rw [hsign] at h
    cases h

theorem vanishes_of_unpacked {u : UnpackedFloat} (hx : x = ofUnpacked u)
    (h : (∃ s, u = .zero s) ∨ u = .notANumber) : Vanishes x := by
  unfold Vanishes
  rw [hx, unpacked_ofUnpacked, sign?_unpack_pack]
  rcases h with ⟨s, rfl⟩ | rfl
  · have hzero : unpack (Packed.spec F) (pack (Packed.spec F) (.zero s)) = .zero s :=
      unpack_packedZero
    rw [hzero]
    exact .inl rfl
  · exact .inr rfl

theorem Vanishes.mul (hx : Vanishes x) (y : F) : Vanishes (x * y) :=
  vanishes_of_unpacked (mul_eq x y) (mul_of_isZero hx)

theorem Vanishes.mul_left (x : F) (hy : Vanishes y) : Vanishes (x * y) :=
  vanishes_of_unpacked (mul_eq x y) (mul_of_isZero_right hy)

/-- A number is none. -/
def IsNaN (x : F) : Prop := sign? (unpacked x) = none

theorem IsNaN.notMinusZero (h : IsNaN x) : NotMinusZero x := by
  refine NoMinus.notMinusZero ?_
  unfold NoMinus
  rw [h]
  exact nofun

theorem IsNaN.mul_left (x : F) (hy : IsNaN y) : IsNaN (x * y) := by
  unfold IsNaN at *
  rw [mul_eq, unpacked_ofUnpacked, sign?_unpack_pack]
  generalize unpacked y = v at hy
  cases v with
  | notANumber => cases unpacked x <;> rfl
  | infinity | zero | finite => cases hy

theorem IsNaN.sub (hx : IsNaN x) (y : F) : IsNaN (x - y) := by
  unfold IsNaN at *
  rw [sub_eq, unpacked_ofUnpacked, sign?_unpack_pack]
  generalize unpacked x = u at hx
  cases u with
  | notANumber => rfl
  | infinity | zero | finite => cases hx

theorem IsNaN.div (hx : IsNaN x) (y : F) : IsNaN (x / y) := by
  unfold IsNaN at *
  rw [div_eq, unpacked_ofUnpacked, sign?_unpack_pack]
  generalize unpacked x = u at hx
  cases u with
  | notANumber => rfl
  | infinity | zero | finite => cases hx

/-- What is neither below zero nor from zero on is no number. -/
theorem isNaN_of_not_le (hlt : ¬ x < 0) (hle : ¬ 0 ≤ x) : IsNaN x := by
  rw [lt_iff, unpacked_zero] at hlt
  rw [le_iff, unpacked_zero] at hle
  unfold IsNaN
  generalize unpacked x = u at hlt hle
  cases u with
  | notANumber => rfl
  | infinity s | zero s | finite s =>
    cases s <;>
      first | exact absurd rfl hlt | exact absurd (.inl rfl) hle | exact absurd (.inr rfl) hle

theorem IsNaN.not_pos (h : IsNaN x) : ¬ 0 < x :=
  Vanishes.not_pos (.inr h)

/-! ## Narrow and wide numbers -/

theorem isNaN_iff {x : Float32} : Scalar.isNaN x = true ↔ IsNaN x := by
  change x.toModel.unpack.isNaN = true ↔ sign? x.toModel.unpack = none
  cases x.toModel.unpack <;> simp [UnpackedFloat.isNaN, sign?]

theorem noMinus_abs (x : Float32) : NoMinus (Scalar.abs x) := by
  change sign? (unpack .binary32 (pack .binary32 x.toModel.unpack.abs)) ≠ _
  rw [sign?_unpack_pack]
  cases x.toModel.unpack <;> exact nofun

theorem sign?_toFormat (spec : Format) (u : UnpackedFloat) : sign? (toFormat spec u) = sign? u := by
  cases u <;> first | rfl | exact sign?_round _ _ _

theorem NoMinus.widen {x : Float32} (h : NoMinus x) : NoMinus (Widening.widen x : Float) := by
  change sign? (unpack .binary64 (pack .binary64 (toFormat .binary64 x.toModel.unpack))) ≠ _
  rw [sign?_unpack_pack, sign?_toFormat]
  exact h

theorem NoMinus.narrow {x : Float} (h : NoMinus x) : NoMinus (Widening.narrow x : Float32) := by
  change sign? (unpack .binary32 (pack .binary32 (toFormat .binary32 x.toModel.unpack))) ≠ _
  rw [sign?_unpack_pack, sign?_toFormat]
  exact h

end OnlineLearning
