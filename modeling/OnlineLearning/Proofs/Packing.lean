import Mathlib
import OnlineLearning.Scalar

/-!
# Packed numbers

Numbers are unpacked for an operation, and its result is rounded and packed again. What is known of
a number after that:

* `sign?_unpack_pack`: packing keeps the sign, and tells what is no number from what is one;
* `unpack_pack_large`, `unpack_pack_normal` and `unpack_pack_subnormal`: what a finite number is
  after packing, so that packing makes no zero of a canonical one;
* `eq_of_packsMinusZero_add` and `eq_of_packsMinusZero_sub`: a sum or a difference is a zero with a
  minus sign only where its terms make it one.
-/

namespace OnlineLearning

open Float.Model (Format UnpackedFloat totalExponent)
open Float.Model.UnpackedFloat

variable {spec : Format}

/-! ## The parts of a packed number -/

theorem toNat_neg_one : (-1#(spec.exponentBits)).toNat = 2 ^ spec.exponentBits - 1 := by
  rw [BitVec.neg_one_eq_allOnes, BitVec.toNat_allOnes]

theorem zero_ne_neg_one : (0#(spec.exponentBits)) ≠ -1#_ := by
  intro h
  have hsize : 1 < 2 ^ spec.exponentBits := Nat.one_lt_two_pow (Nat.ne_of_gt spec.he)
  have h' := congrArg BitVec.toNat h
  rw [toNat_neg_one, BitVec.toNat_ofNat, Nat.zero_mod] at h'
  omega

theorem toNat_implicit {width : Nat} (mantissa : BitVec width) :
    (1#1 ++ mantissa).toNat = 2 ^ width + mantissa.toNat := by
  rw [BitVec.toNat_append, ← Nat.shiftLeft_add_eq_or_of_lt mantissa.isLt, Nat.shiftLeft_eq]
  simp

theorem minExponent_eq :
    spec.minExponent = 1 - (spec.exponentBias + spec.mantissaBitsWithoutImplicit) := by
  have hbias : 1 ≤ 2 ^ (spec.exponentBits - 1) := Nat.one_le_two_pow
  unfold Format.minExponent Format.exponentBias Format.mantissaBits
  push_cast [hbias]
  omega

/-! ## Canonical numbers -/

/-- A finite number with the mantissa and exponent that the format has room for. -/
def Canonical (spec : Format) : UnpackedFloat → Prop
  | .finite _ mantissa exponent _ => mantissa < 2 ^ spec.mantissaBits ∧ spec.minExponent ≤ exponent
  | _ => True

theorem canonical_unpack (b : BitVec spec.numBits) : Canonical spec (unpack spec b) := by
  have hmantissa := (unpackMantissa b).isLt
  have hsize : 2 ^ spec.mantissaBits = 2 * 2 ^ spec.mantissaBitsWithoutImplicit := by
    rw [Format.mantissaBits, Nat.add_comm, Nat.pow_succ, Nat.mul_comm]
  unfold unpack
  dsimp only
  split
  · split <;> trivial
  · split
    · split
      · trivial
      · rename_i hexponent _
        refine ⟨by omega, ?_⟩
        rw [minExponent_eq, hexponent]
        simp
        omega
    · rename_i hexponent
      refine ⟨?_, ?_⟩
      · rw [toNat_implicit]
        omega
      · have hpos : 0 < (unpackExponent b).toNat := by
          rwa [BitVec.toNat_pos, BitVec.pos_iff_ne_zero]
        rw [minExponent_eq]
        omega

/-- What a finite number of the exponent `biased`, given as it is stored, is packed to. -/
theorem pack_finite {sign : Sign} {mantissa : Nat} {exponent : Int} (hpos : 0 < mantissa)
    (biased : Nat)
    (hbiased : exponent + spec.exponentBias + spec.mantissaBitsWithoutImplicit = biased)
    (hfits : biased + 1 < 2 ^ spec.exponentBits) :
    pack spec (.finite sign mantissa exponent hpos) =
      packComponents spec sign
        (if mantissa.log2 + 1 = spec.mantissaBits then BitVec.ofNat _ biased else 0#_)
        (BitVec.ofNat _ mantissa) := by
  unfold pack
  dsimp only
  rw [hbiased, Int.toNat_natCast, if_neg (by omega)]
  split <;> rfl

theorem log2_lt {mantissa : Nat} (hpos : 0 < mantissa) (bits : Nat) :
    mantissa.log2 < bits ↔ mantissa < 2 ^ bits :=
  Nat.log2_lt (Nat.ne_of_gt hpos)

/-! ## Signs -/

/-- The sign of a number, none for what is not a number. -/
def sign? : UnpackedFloat → Option Sign
  | .notANumber => none
  | .infinity s | .zero s | .finite s _ _ _ => some s

theorem sign?_unpack_packComponents {sign : Sign} {exponent : BitVec spec.exponentBits}
    {mantissa : BitVec spec.mantissaBitsWithoutImplicit} (h : exponent = -1#_ → mantissa = 0#_) :
    sign? (unpack spec (packComponents spec sign exponent mantissa)) = some sign := by
  unfold unpack
  simp only [unpackExponent_packComponents, unpackMantissa_packComponents,
    unpackSign_packComponents, Sign.ofBitVec_toBitVec]
  split
  · rename_i hspecial
    rw [if_pos (h hspecial)]
    rfl
  · split
    · split <;> rfl
    · rfl

/-- Packing keeps signs. -/
@[simp] theorem sign?_unpack_pack (u : UnpackedFloat) :
    sign? (unpack spec (pack spec u)) = sign? u := by
  fun_cases pack spec u with
  | case1 => rw [unpack_packedNaN]
  | case2 s => exact sign?_unpack_packComponents fun _ => rfl
  | case3 s => exact sign?_unpack_packComponents fun _ => rfl
  | case4 s m e hm biased hfits => exact sign?_unpack_packComponents fun _ => rfl
  | case5 s m e hm bits biased hfits hbits =>
    refine sign?_unpack_packComponents fun h => ?_
    have h' := congrArg BitVec.toNat h
    rw [toNat_neg_one, BitVec.toNat_ofNat, Nat.mod_eq_of_lt (by omega)] at h'
    omega
  | case6 s m e hm bits biased hfits hbits =>
    exact sign?_unpack_packComponents fun h => absurd h zero_ne_neg_one

/-! ## Numbers by their parts -/

theorem unpack_packedInfinity (sign : Sign) :
    unpack spec (packedInfinity spec sign) = .infinity sign := by
  unfold unpack packedInfinity
  simp only [unpackExponent_packComponents, unpackMantissa_packComponents,
    unpackSign_packComponents, Sign.ofBitVec_toBitVec]
  rw [if_pos trivial]
  exact if_pos rfl

theorem unpack_packComponents_normal (sign : Sign) {exponent : BitVec spec.exponentBits}
    (mantissa : BitVec spec.mantissaBitsWithoutImplicit) (hspecial : exponent ≠ -1#_)
    (hzero : exponent ≠ 0#_) :
    ∃ hpos, unpack spec (packComponents spec sign exponent mantissa) =
      .finite sign (2 ^ spec.mantissaBitsWithoutImplicit + mantissa.toNat)
        (exponent.toNat - (spec.exponentBias + spec.mantissaBitsWithoutImplicit)) hpos := by
  have hpos : 0 < 2 ^ spec.mantissaBitsWithoutImplicit + mantissa.toNat :=
    Nat.add_pos_left (Nat.two_pow_pos _) _
  refine ⟨hpos, ?_⟩
  unfold unpack
  simp only [unpackExponent_packComponents, unpackMantissa_packComponents,
    unpackSign_packComponents, Sign.ofBitVec_toBitVec, toNat_implicit]
  rw [if_neg hspecial, if_neg hzero]

theorem unpack_packComponents_subnormal (sign : Sign)
    {mantissa : BitVec spec.mantissaBitsWithoutImplicit} (hmantissa : mantissa ≠ 0#_) :
    ∃ hpos, unpack spec (packComponents spec sign 0#_ mantissa) =
      .finite sign mantissa.toNat spec.minExponent hpos := by
  have hpos : 0 < mantissa.toNat := by rwa [BitVec.toNat_pos, BitVec.pos_iff_ne_zero]
  have hexponent : ((0#(spec.exponentBits)).toNat : Int) -
      (spec.exponentBias + spec.mantissaBitsWithoutImplicit) + 1 = spec.minExponent := by
    rw [minExponent_eq, BitVec.toNat_zero]
    omega
  refine ⟨hpos, ?_⟩
  unfold unpack
  simp only [unpackExponent_packComponents, unpackMantissa_packComponents,
    unpackSign_packComponents, Sign.ofBitVec_toBitVec, hexponent]
  rw [if_neg zero_ne_neg_one, if_pos trivial, dif_neg hmantissa]

/-! ## Packed finite numbers -/

section

variable {sign : Sign} {mantissa : Nat} {exponent : Int} {hpos : 0 < mantissa}

/-- A number that is too large for the format is packed to an infinity. -/
theorem unpack_pack_large (hlarge : (2 ^ spec.exponentBits : Nat) ≤
      exponent + spec.exponentBias + spec.mantissaBitsWithoutImplicit + 1) :
    unpack spec (pack spec (.finite sign mantissa exponent hpos)) = .infinity sign := by
  have hpack : pack spec (.finite sign mantissa exponent hpos) = packedInfinity spec sign := by
    unfold pack
    dsimp only
    rw [if_pos (by omega)]
  rw [hpack, unpack_packedInfinity]

variable (hmin : spec.minExponent ≤ exponent)
  (hfits : exponent + spec.exponentBias + spec.mantissaBitsWithoutImplicit + 1 <
    (2 ^ spec.exponentBits : Nat))
include hmin hfits

/-- A number that uses all bits of the mantissa is packed without a loss. -/
theorem unpack_pack_normal (hlower : 2 ^ spec.mantissaBitsWithoutImplicit ≤ mantissa)
    (hupper : mantissa < 2 ^ spec.mantissaBits) :
    unpack spec (pack spec (.finite sign mantissa exponent hpos)) =
      .finite sign mantissa exponent hpos := by
  rw [minExponent_eq] at hmin
  obtain ⟨biased, hbiased⟩ := Int.eq_ofNat_of_zero_le
    (a := exponent + spec.exponentBias + spec.mantissaBitsWithoutImplicit) (by omega)
  have hfield : (BitVec.ofNat spec.exponentBits biased).toNat = biased := by
    rw [BitVec.toNat_ofNat, Nat.mod_eq_of_lt (by omega)]
  have hspecial : BitVec.ofNat spec.exponentBits biased ≠ -1#_ := by
    intro h
    have h := congrArg BitVec.toNat h
    rw [hfield, toNat_neg_one] at h
    omega
  have hzero : BitVec.ofNat spec.exponentBits biased ≠ 0#_ := by
    intro h
    have h := congrArg BitVec.toNat h
    rw [hfield, BitVec.toNat_zero] at h
    omega
  have hbits : spec.mantissaBits = 1 + spec.mantissaBitsWithoutImplicit := rfl
  have hlog : mantissa.log2 + 1 = spec.mantissaBits := by
    have hleast := (Nat.le_log2 (Nat.ne_of_gt hpos)).mpr hlower
    have hmost := (log2_lt hpos _).mpr hupper
    omega
  have hdouble : mantissa < 2 ^ spec.mantissaBitsWithoutImplicit * 2 := by
    rwa [hbits, Nat.add_comm, Nat.pow_succ] at hupper
  obtain ⟨_, hunpack⟩ :=
    unpack_packComponents_normal sign (BitVec.ofNat _ mantissa) hspecial hzero
  rw [pack_finite hpos biased hbiased (by omega), if_pos hlog, hunpack]
  congr 1
  · rw [BitVec.toNat_ofNat, Nat.mod_eq_sub_mod hlower, Nat.mod_eq_of_lt (by omega)]
    omega
  · omega

/-- A number that does not use them all gets the least exponent. -/
theorem unpack_pack_subnormal (hupper : mantissa < 2 ^ spec.mantissaBitsWithoutImplicit) :
    unpack spec (pack spec (.finite sign mantissa exponent hpos)) =
      .finite sign mantissa spec.minExponent hpos := by
  rw [minExponent_eq] at hmin
  obtain ⟨biased, hbiased⟩ := Int.eq_ofNat_of_zero_le
    (a := exponent + spec.exponentBias + spec.mantissaBitsWithoutImplicit) (by omega)
  have hlog : mantissa.log2 + 1 ≠ spec.mantissaBits := by
    have hmost := (log2_lt hpos _).mpr hupper
    unfold Format.mantissaBits
    omega
  have hvalue : (BitVec.ofNat spec.mantissaBitsWithoutImplicit mantissa).toNat = mantissa := by
    rw [BitVec.toNat_ofNat, Nat.mod_eq_of_lt hupper]
  have hzero : BitVec.ofNat spec.mantissaBitsWithoutImplicit mantissa ≠ 0#_ := by
    intro h
    have h := congrArg BitVec.toNat h
    rw [hvalue, BitVec.toNat_zero] at h
    omega
  obtain ⟨_, hunpack⟩ := unpack_packComponents_subnormal sign hzero
  rw [pack_finite hpos biased hbiased (by omega), if_neg hlog, hunpack]
  congr 1

end

/-- Packing makes no zero of a canonical finite number. -/
theorem unpack_pack_finite_ne_zero {sign : Sign} {mantissa : Nat} {exponent : Int}
    {hpos : 0 < mantissa} (h : Canonical spec (.finite sign mantissa exponent hpos))
    (sign' : Sign) :
    unpack spec (pack spec (.finite sign mantissa exponent hpos)) ≠ .zero sign' := by
  obtain ⟨hmantissa, hexponent⟩ := h
  by_cases hfits : exponent + spec.exponentBias + spec.mantissaBitsWithoutImplicit + 1 <
      (2 ^ spec.exponentBits : Nat)
  · by_cases hfull : 2 ^ spec.mantissaBitsWithoutImplicit ≤ mantissa
    · rw [unpack_pack_normal hexponent hfits hfull hmantissa]
      exact UnpackedFloat.noConfusion
    · rw [unpack_pack_subnormal hexponent hfits (by omega)]
      exact UnpackedFloat.noConfusion
  · rw [unpack_pack_large (by omega)]
    exact UnpackedFloat.noConfusion

/-! ## Rounding -/

theorem mantissa_shiftRight (em : ExtendedMantissa) (n : Nat) :
    (em >>> n).mantissa = em.mantissa / 2 ^ n := by
  change (n.repeat ExtendedMantissa.shiftRightOne em).mantissa = _
  induction n with
  | zero => simp [Nat.repeat]
  | succ n ih =>
    rw [Nat.repeat, ExtendedMantissa.shiftRightOne, ih, Nat.div_div_eq_div_mul, Nat.pow_succ]

/-- A mantissa with an exponent that the format has room for keeps its leading bit when it is
shifted to what the format has room for. -/
theorem shiftToTargetExponent_bounds {mantissa : Nat} {exponent : Int} (hpos : 0 < mantissa)
    (hexponent : spec.minExponent ≤ exponent) (accuracy : Accuracy) :
    let shifted := shiftToTargetExponent spec mantissa exponent accuracy
    0 < shifted.1.mantissa ∧ shifted.1.mantissa < 2 ^ spec.mantissaBits ∧
      spec.minExponent ≤ shifted.2 := by
  have hshift : (spec.targetExponent (totalExponent mantissa exponent) - exponent).toNat =
      mantissa.log2 + 1 - spec.mantissaBits := by
    unfold Format.targetExponent totalExponent
    omega
  have hstart : (ExtendedMantissa.ofMantissaAndAccuracy mantissa accuracy).mantissa = mantissa := by
    unfold ExtendedMantissa.ofMantissaAndAccuracy
    split <;> rfl
  unfold shiftToTargetExponent shiftToExponent
  dsimp only
  rw [hshift, mantissa_shiftRight, hstart]
  have hbits : 0 < spec.mantissaBits := by
    unfold Format.mantissaBits
    omega
  have hlower := Nat.log2_self_le (Nat.ne_of_gt hpos)
  have hupper : mantissa < 2 ^ (mantissa.log2 + 1) := Nat.lt_log2_self
  refine ⟨Nat.div_pos ?_ (Nat.two_pow_pos _), ?_, by omega⟩
  · exact Nat.le_trans (Nat.pow_le_pow_right (by decide) (by omega)) hlower
  · rw [Nat.div_lt_iff_lt_mul (Nat.two_pow_pos _), ← Nat.pow_add]
    exact Nat.lt_of_lt_of_le hupper (Nat.pow_le_pow_right (by decide) (by omega))

theorem roundedMantissa_pos {em : ExtendedMantissa} (h : 0 < em.mantissa) :
    0 < em.roundedMantissa := by
  unfold ExtendedMantissa.roundedMantissa Accuracy.roundToNearestEven
  split <;> omega

/-- Rounding makes no zero of a finite number with an exponent that the format has room for. -/
theorem roundWithAccuracy_finite (sign : Sign) {mantissa : Nat} {exponent : Int}
    (hpos : 0 < mantissa) (hexponent : spec.minExponent ≤ exponent) (accuracy : Accuracy) :
    ∃ m e hm, roundWithAccuracy spec sign mantissa exponent accuracy = .finite sign m e hm ∧
      Canonical spec (.finite sign m e hm) := by
  obtain ⟨hfirst, -, hexponent'⟩ := shiftToTargetExponent_bounds hpos hexponent accuracy
  unfold roundWithAccuracy
  generalize shiftToTargetExponent spec mantissa exponent accuracy = first at hfirst hexponent' ⊢
  obtain ⟨hsecond, hmantissa, hexponent''⟩ := shiftToTargetExponent_bounds
    (roundedMantissa_pos hfirst) hexponent' .exact
  dsimp only
  rw [dif_neg (Nat.ne_of_gt hsecond)]
  exact ⟨_, _, _, rfl, hmantissa, hexponent''⟩

theorem round_finite (sign : Sign) {mantissa : Nat} {exponent : Int} (hpos : 0 < mantissa)
    (hexponent : spec.minExponent ≤ exponent) :
    ∃ m e hm, round spec sign mantissa exponent = .finite sign m e hm ∧
      Canonical spec (.finite sign m e hm) := by
  unfold UnpackedFloat.round decreaseExponent
  dsimp only
  refine roundWithAccuracy_finite sign ?_ ?_ .exact
  · rw [Nat.shiftLeft_eq]
    exact Nat.mul_pos hpos (Nat.two_pow_pos _)
  · unfold Format.targetExponent
    omega

/-! ## Sums -/

/-- The packed form of a number is a zero with a minus sign. -/
def PacksMinusZero (spec : Format) (u : UnpackedFloat) : Prop :=
  unpack spec (pack spec u) = .zero .negative

theorem not_packsMinusZero_of_sign? {u : UnpackedFloat} (h : sign? u ≠ some .negative) :
    ¬ PacksMinusZero spec u := by
  intro hzero
  have hsign : sign? (unpack spec (pack spec u)) = sign? u := sign?_unpack_pack u
  refine h (hsign.symm.trans ?_)
  rw [hzero]
  rfl

theorem not_packsMinusZero_notANumber : ¬ PacksMinusZero spec .notANumber :=
  not_packsMinusZero_of_sign? nofun

theorem not_packsMinusZero_infinity (sign : Sign) : ¬ PacksMinusZero spec (.infinity sign) := by
  intro hzero
  exact nomatch (unpack_packedInfinity sign).symm.trans hzero

theorem not_packsMinusZero_finite {sign : Sign} {mantissa : Nat} {exponent : Int}
    {hpos : 0 < mantissa} (h : Canonical spec (.finite sign mantissa exponent hpos)) :
    ¬ PacksMinusZero spec (.finite sign mantissa exponent hpos) :=
  unpack_pack_finite_ne_zero h _

theorem not_packsMinusZero_normalize (mantissa : Int) {exponent : Int}
    (hexponent : spec.minExponent ≤ exponent) :
    ¬ PacksMinusZero spec (normalize spec mantissa exponent .positive) := by
  have key (sign : Sign) {n : Nat} (hpos : 0 < n) :
      ¬ PacksMinusZero spec (round spec sign n exponent) := by
    obtain ⟨m, e, hm, heq, hcanonical⟩ := round_finite sign hpos hexponent
    rw [heq]
    exact unpack_pack_finite_ne_zero hcanonical _
  unfold UnpackedFloat.normalize
  split
  · rename_i hlt
    exact key _ (by have := Int.compare_eq_lt.mp hlt; omega)
  · exact not_packsMinusZero_of_sign? fun h => Sign.noConfusion (Option.some.inj h)
  · rename_i hgt
    exact key _ (by have := Int.compare_eq_gt.mp hgt; omega)

theorem packsMinusZero_zero {sign : Sign} (h : PacksMinusZero spec (.zero sign)) :
    sign = .negative := by
  cases sign with
  | negative => rfl
  | positive => exact absurd h (not_packsMinusZero_of_sign? nofun)

/-- The sign of a sum of zeros. -/
def addSigns : Sign → Sign → Sign
  | .negative, .negative => .negative
  | _, _ => .positive

theorem addSigns_eq_negative {s s' : Sign} (h : addSigns s s' = .negative) :
    s = .negative ∧ s' = .negative := by
  cases s <;> cases s' <;> first | exact ⟨rfl, rfl⟩ | exact nomatch h

/-- Only a sum of two zeros with a minus sign is one. -/
theorem eq_of_packsMinusZero_add {a b : UnpackedFloat} (ha : Canonical spec a)
    (hb : Canonical spec b) (h : PacksMinusZero spec (add spec a b)) :
    a = .zero .negative ∧ b = .zero .negative := by
  cases a with
  | notANumber => exact absurd h not_packsMinusZero_notANumber
  | infinity s =>
    cases b with
    | notANumber => exact absurd h not_packsMinusZero_notANumber
    | infinity s' =>
      have hsum : add spec (.infinity s) (.infinity s') =
          if s == s' then .infinity s else .notANumber := rfl
      rw [hsum] at h
      split at h
      · exact absurd h (not_packsMinusZero_infinity _)
      · exact absurd h not_packsMinusZero_notANumber
    | zero | finite => exact absurd h (not_packsMinusZero_infinity s)
  | zero s =>
    cases b with
    | notANumber => exact absurd h not_packsMinusZero_notANumber
    | infinity s' => exact absurd h (not_packsMinusZero_infinity s')
    | zero s' =>
      have hsum : add spec (.zero s) (.zero s') = .zero (addSigns s s') := by
        cases s <;> cases s' <;> rfl
      rw [hsum] at h
      obtain ⟨rfl, rfl⟩ := addSigns_eq_negative (packsMinusZero_zero h)
      exact ⟨rfl, rfl⟩
    | finite => exact absurd h (not_packsMinusZero_finite hb)
  | finite =>
    cases b with
    | notANumber => exact absurd h not_packsMinusZero_notANumber
    | infinity s' => exact absurd h (not_packsMinusZero_infinity s')
    | zero => exact absurd h (not_packsMinusZero_finite ha)
    | finite =>
      refine absurd h (not_packsMinusZero_normalize _ ?_)
      exact Int.le_min.mpr ⟨ha.2, hb.2⟩

/-- To take a number away is to add its opposite. -/
theorem sub_eq_add_opposite (a b : UnpackedFloat) : sub spec a b = add spec a (neg b) := by
  cases a with
  | finite s m e hm =>
    cases b with
    | finite s' m' e' hm' =>
      have hopposite (n : Int) : (-s').apply n = -(s'.apply n) := by
        cases s' with
        | positive => rfl
        | negative => exact (Int.neg_neg n).symm
      simp only [sub, add, neg, hopposite, ← Int.sub_eq_add_neg]
    | _ => rfl
  | _ => cases b <;> rfl

theorem canonical_neg {u : UnpackedFloat} (h : Canonical spec u) : Canonical spec (neg u) := by
  cases u with
  | _ => exact h

/-- Only what is taken from a zero with a minus sign leaves one. -/
theorem eq_of_packsMinusZero_sub {a b : UnpackedFloat} (ha : Canonical spec a)
    (hb : Canonical spec b) (h : PacksMinusZero spec (sub spec a b)) : a = .zero .negative := by
  rw [sub_eq_add_opposite] at h
  exact (eq_of_packsMinusZero_add ha (canonical_neg hb) h).1

end OnlineLearning
