import OnlineLearning.Proofs.Signs

/-!
# Numbers that rounding keeps

A number is left as it is where it is rounded to a format that has room for it. So a narrow number
that is widened and narrowed again is the number that it was.

* `Full`: finite numbers with as many bits of the mantissa as the format has, or with the least
  exponent; all unpacked numbers are full;
* `round_exact`: such a number is rounded to itself, however many zeros are put behind its mantissa;
* `unpack_pack_full`: it is packed without a loss;
* `narrow_widen`: what this makes of narrow numbers.
-/

namespace OnlineLearning

open Float.Model (Format UnpackedFloat totalExponent)
open Float.Model.UnpackedFloat

variable {spec : Format} {sign : Sign} {mantissa : Nat} {exponent : Int}

/-! ## Shifts -/

/-- An exact mantissa loses nothing by zeros that are shifted out of it. -/
theorem shiftRight_exact (mantissa n : Nat) :
    ExtendedMantissa.ofMantissaAndAccuracy (2 ^ n * mantissa) .exact >>> n =
      .ofMantissaAndAccuracy mantissa .exact := by
  change n.repeat ExtendedMantissa.shiftRightOne _ = _
  induction n generalizing mantissa with
  | zero => simp [Nat.repeat]
  | succ n ih =>
    have hsplit : 2 ^ (n + 1) * mantissa = 2 ^ n * (2 * mantissa) := by ring
    rw [Nat.repeat, hsplit, ih]
    simp [ExtendedMantissa.shiftRightOne, ExtendedMantissa.ofMantissaAndAccuracy]

theorem totalExponent_shift (hpos : 0 < mantissa) (exponent : Int) (n : Nat) :
    totalExponent (2 ^ n * mantissa) (-n + exponent) = totalExponent mantissa exponent := by
  have hlog : (2 ^ n * mantissa).log2 = n + mantissa.log2 := by
    have hlower := Nat.log2_self_le (Nat.ne_of_gt hpos)
    have hupper : mantissa < 2 ^ (mantissa.log2 + 1) := Nat.lt_log2_self
    refine (Nat.log2_eq_iff (Nat.mul_pos (Nat.two_pow_pos n) hpos).ne').mpr ⟨?_, ?_⟩
    · rw [Nat.pow_add]
      exact Nat.mul_le_mul_left _ hlower
    · rw [Nat.add_assoc, Nat.pow_add]
      exact Nat.mul_lt_mul_of_pos_left hupper (Nat.two_pow_pos n)
  unfold totalExponent
  omega

theorem shiftToTargetExponent_exact (hpos : 0 < mantissa)
    (htarget : spec.targetExponent (totalExponent mantissa exponent) = exponent) (n : Nat) :
    shiftToTargetExponent spec (2 ^ n * mantissa) (-n + exponent) .exact =
      (.ofMantissaAndAccuracy mantissa .exact, exponent) := by
  have hshift : (exponent - (-n + exponent)).toNat = n := by omega
  have hexponent : -(n : Int) + exponent + n = exponent := by omega
  unfold shiftToTargetExponent shiftToExponent
  dsimp only
  rw [totalExponent_shift hpos, htarget, hshift, shiftRight_exact, hexponent]

/-- A number that the format has room for is kept, also with zeros behind its mantissa. -/
theorem roundWithAccuracy_exact (sign : Sign) (hpos : 0 < mantissa)
    (htarget : spec.targetExponent (totalExponent mantissa exponent) = exponent) (n : Nat) :
    roundWithAccuracy spec sign (2 ^ n * mantissa) (-n + exponent) .exact =
      .finite sign mantissa exponent hpos := by
  have hfirst := shiftToTargetExponent_exact hpos htarget n
  have hsecond : shiftToTargetExponent spec mantissa exponent .exact =
      (.ofMantissaAndAccuracy mantissa .exact, exponent) := by
    simpa using shiftToTargetExponent_exact hpos htarget 0
  have hrounded : (ExtendedMantissa.ofMantissaAndAccuracy mantissa .exact).roundedMantissa =
    mantissa := rfl
  unfold roundWithAccuracy
  rw [hfirst]
  dsimp only
  rw [hrounded, hsecond]
  exact dif_neg (Nat.ne_of_gt hpos)

theorem round_exact (sign : Sign) (hpos : 0 < mantissa)
    (htarget : spec.targetExponent (totalExponent mantissa exponent) = exponent) (n : Nat) :
    UnpackedFloat.round spec sign (2 ^ n * mantissa) (-n + exponent) =
      .finite sign mantissa exponent hpos := by
  have hshift : (-(n : Int) + exponent - exponent).toNat = 0 := by omega
  unfold UnpackedFloat.round decreaseExponent
  dsimp only
  rw [totalExponent_shift hpos, htarget, hshift, Nat.shiftLeft_zero, Int.natCast_zero, Int.sub_zero]
  exact roundWithAccuracy_exact sign hpos htarget n

/-! ## Full numbers -/

/-- A finite number uses all bits of the mantissa, unless it has the least exponent. -/
def Full (spec : Format) : UnpackedFloat → Prop
  | .finite _ mantissa exponent _ =>
    exponent = spec.minExponent ∨ 2 ^ spec.mantissaBitsWithoutImplicit ≤ mantissa
  | _ => True

theorem full_unpack (b : BitVec spec.numBits) : Full spec (unpack spec b) := by
  unfold unpack
  dsimp only
  split
  · split <;> trivial
  · split
    · split
      · trivial
      · rename_i hexponent _
        refine .inl ?_
        rw [hexponent, minExponent_eq, BitVec.toNat_zero]
        omega
    · refine .inr ?_
      rw [toNat_implicit]
      exact Nat.le_add_right _ _

theorem targetExponent_of_full {hpos : 0 < mantissa}
    (hcanonical : Canonical spec (.finite sign mantissa exponent hpos))
    (hfull : Full spec (.finite sign mantissa exponent hpos)) :
    spec.targetExponent (totalExponent mantissa exponent) = exponent := by
  obtain ⟨hmantissa, hmin⟩ := hcanonical
  have hbits : spec.mantissaBits = 1 + spec.mantissaBitsWithoutImplicit := rfl
  have hlog : mantissa.log2 < spec.mantissaBits := (log2_lt hpos _).mpr hmantissa
  have hlog' : exponent = spec.minExponent ∨ spec.mantissaBitsWithoutImplicit ≤ mantissa.log2 :=
    hfull.imp_right (Nat.le_log2 (Nat.ne_of_gt hpos)).mpr
  unfold Format.targetExponent totalExponent
  omega

/-- A full number with an exponent that is not too large is packed without a loss. -/
theorem unpack_pack_full {hpos : 0 < mantissa}
    (hcanonical : Canonical spec (.finite sign mantissa exponent hpos))
    (hfull : Full spec (.finite sign mantissa exponent hpos))
    (hmax : exponent + spec.exponentBias + spec.mantissaBitsWithoutImplicit + 1 <
      (2 ^ spec.exponentBits : Nat)) :
    unpack spec (pack spec (.finite sign mantissa exponent hpos)) =
      .finite sign mantissa exponent hpos := by
  obtain ⟨hmantissa, hmin⟩ := hcanonical
  by_cases hlower : 2 ^ spec.mantissaBitsWithoutImplicit ≤ mantissa
  · exact unpack_pack_normal hmin hmax hlower hmantissa
  · have hleast : exponent = spec.minExponent := hfull.resolve_right hlower
    rw [unpack_pack_subnormal hmin hmax (Nat.lt_of_not_le hlower), hleast]

/-! ## Narrow numbers as wide ones -/

theorem exponent_lt_of_unpack (hbits : 2 ≤ spec.exponentBits) {b : BitVec spec.numBits}
    {hpos : 0 < mantissa} (h : unpack spec b = .finite sign mantissa exponent hpos) :
    exponent + spec.exponentBias + spec.mantissaBitsWithoutImplicit + 1 <
      (2 ^ spec.exponentBits : Nat) := by
  have hfield := (unpackExponent b).isLt
  have hspecial : (unpackExponent b).toNat ≠ 2 ^ spec.exponentBits - 1 ∨
      unpackExponent b = -1#_ := by
    rw [← toNat_neg_one, Ne, BitVec.toNat_inj]
    exact (Classical.em _).symm
  have hsize : 2 ^ 2 ≤ 2 ^ spec.exponentBits := Nat.pow_le_pow_right two_pos hbits
  unfold unpack at h
  dsimp only at h
  split at h
  · split at h <;> cases h
  · rename_i hfinite
    have hless := hspecial.resolve_right hfinite
    split at h
    · rename_i hzero
      split at h
      · cases h
      · have hzero := congrArg BitVec.toNat hzero
        rw [BitVec.toNat_zero] at hzero
        cases h
        omega
    · cases h
      omega

/-- A number with at most as many bits as a wide one is rounded to it by zeros behind its mantissa. -/
theorem exists_round_binary64 (sign : Sign) (hpos : 0 < mantissa) (hmin : -1022 ≤ exponent)
    (hmantissa : mantissa < 2 ^ 53) :
    ∃ (n : Nat) (hn : 0 < 2 ^ n * mantissa),
      UnpackedFloat.round .binary64 sign mantissa exponent =
        .finite sign (2 ^ n * mantissa) (-n + exponent) hn ∧
      Canonical .binary64 (.finite sign (2 ^ n * mantissa) (-n + exponent) hn) ∧
      Full .binary64 (.finite sign (2 ^ n * mantissa) (-n + exponent) hn) := by
  have hlog : mantissa.log2 < 53 := (log2_lt hpos 53).mpr hmantissa
  have hleast : Format.binary64.minExponent = -1074 := by decide
  obtain ⟨n, hn⟩ : ∃ n, n = 52 - mantissa.log2 := ⟨_, rfl⟩
  have hpos' : 0 < 2 ^ n * mantissa := Nat.mul_pos (Nat.two_pow_pos n) hpos
  have htarget : Format.binary64.targetExponent (totalExponent mantissa exponent) =
      -n + exponent := by
    unfold Format.targetExponent totalExponent
    rw [hleast]
    change max (_ - 53) _ = _
    omega
  have hround : UnpackedFloat.round .binary64 sign mantissa exponent =
      .finite sign (2 ^ n * mantissa) (-n + exponent) hpos' := by
    have htarget' : Format.binary64.targetExponent
        (totalExponent (2 ^ n * mantissa) (-n + exponent)) = -n + exponent := by
      rw [totalExponent_shift hpos, htarget]
    have hshift : (exponent - (-n + exponent)).toNat = n := by omega
    have hexponent : exponent - n = -n + exponent := by omega
    have hkept := roundWithAccuracy_exact sign hpos' htarget' 0
    rw [Nat.pow_zero, Nat.one_mul, Int.natCast_zero, Int.neg_zero, Int.zero_add] at hkept
    unfold UnpackedFloat.round decreaseExponent
    dsimp only
    rw [htarget, hshift, Nat.shiftLeft_eq, Nat.mul_comm mantissa, hexponent]
    exact hkept
  refine ⟨n, hpos', hround, ⟨?_, ?_⟩, .inr ?_⟩
  · change _ < 2 ^ 53
    have hsplit : 53 = n + (mantissa.log2 + 1) := by omega
    rw [hsplit, Nat.pow_add]
    exact Nat.mul_lt_mul_of_pos_left Nat.lt_log2_self (Nat.two_pow_pos n)
  · rw [hleast]
    omega
  · change 2 ^ 52 ≤ _
    have hsplit : 52 = n + mantissa.log2 := by omega
    rw [hsplit, Nat.pow_add]
    exact Nat.mul_le_mul_left _ (Nat.log2_self_le (Nat.ne_of_gt hpos))

/-- What is unpacked of a narrow number is left as it is by the passage to wide numbers and back. -/
theorem toFormat_unpack_pack_toFormat (b : BitVec Format.binary32.numBits) :
    toFormat .binary32
        (unpack .binary64 (pack .binary64 (toFormat .binary64 (unpack .binary32 b)))) =
      unpack .binary32 b := by
  have hcanonical : Canonical .binary32 (unpack .binary32 b) := canonical_unpack b
  have hfull : Full .binary32 (unpack .binary32 b) := full_unpack b
  generalize hu : unpack .binary32 b = u at hcanonical hfull
  cases u with
  | notANumber => rfl
  | infinity s => cases s <;> rfl
  | zero s => cases s <;> rfl
  | finite s mantissa exponent hpos =>
    have htarget := targetExponent_of_full hcanonical hfull
    have hmax : exponent + 127 + 23 + 1 < 256 := exponent_lt_of_unpack (by decide) hu
    obtain ⟨hmantissa, hmin⟩ := hcanonical
    obtain ⟨n, hn, hround, hcanonical', hfull'⟩ := exists_round_binary64 s hpos
      (Int.le_trans (by decide) hmin) (Nat.lt_trans hmantissa (by decide))
    have hpacked := unpack_pack_full hcanonical' hfull' (by
      change -(n : Int) + exponent + 1023 + 52 + 1 < 2048
      omega)
    change toFormat .binary32 (unpack .binary64 (pack .binary64
      (UnpackedFloat.round .binary64 s mantissa exponent))) = _
    rw [hround, hpacked]
    exact round_exact s hpos htarget n

open Packed

/-- Nothing of a narrow number is lost while it is a wide one. -/
theorem narrow_widen (x : Float32) : Widening.narrow (Widening.widen x : Float) = x := by
  have hunpacked : toFormat .binary32 (unpacked (Widening.widen x : Float)) = unpacked x :=
    toFormat_unpack_pack_toFormat x.toModel.toBits.toBitVec
  exact (congrArg ofUnpacked hunpacked).trans (ofUnpacked_unpacked x)

end OnlineLearning
