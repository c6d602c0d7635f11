import OnlineLearning.Proofs.Widening
import OnlineLearning.Reduction.Grounded

/-!
# Costs that count as known

The largest number stands for an unknown cost. No cost that a grounded node writes is that large:
the prior is at least the least positive number, so that its inverse is either too large for a
number or stays below the largest one by some units in the last place, and that many are not made up
by the two sums around it.

* `Bounded` are the unpacked numbers up to a bound, `Rounded` those that are packed to such;
* `AtMost` is the bound of a number; `AtMost.add`, `AtMost.one_mul` and `atMost_inverse` are
  the operations that a cost is made of;
* `Grounded.extremeCost_known`: a confident decoder leaves a cost that counts as known;
* `Grounded.extremeCost_eq`: what it is, if it is in range.
-/

namespace OnlineLearning

open Float.Model (Format UnpackedFloat totalExponent)
open Float.Model.UnpackedFloat

variable {bound : Nat}

/-! ## Mantissas up to a bound -/

/-- A mantissa is at most `bound`, with what was cut off it. -/
def Fits (bound : Nat) (em : ExtendedMantissa) : Prop :=
  em.mantissa ≤ bound ∧ ((em.roundBit || em.stickyBit) = true → em.mantissa < bound)

theorem Fits.shiftRightOne {em : ExtendedMantissa} (h : Fits (2 * bound) em) :
    Fits bound em.shiftRightOne := by
  obtain ⟨hle, hlt⟩ := h
  refine ⟨by change em.mantissa / 2 ≤ bound; omega, fun hcut => ?_⟩
  change em.mantissa / 2 < bound
  have hcut : (em.mantissa % 2 != 0 || (em.roundBit || em.stickyBit)) = true := hcut
  rcases Bool.or_eq_true_iff.mp hcut with hodd | hcut
  · have hodd : em.mantissa % 2 ≠ 0 := by simpa using hodd
    omega
  · have := hlt hcut
    omega

theorem Fits.shiftRight {n : Nat} {em : ExtendedMantissa} (h : Fits (bound * 2 ^ n) em) :
    Fits bound (em >>> n) := by
  change Fits bound (n.repeat ExtendedMantissa.shiftRightOne em)
  induction n generalizing bound with
  | zero => simpa [Nat.repeat] using h
  | succ n ih =>
    rw [Nat.repeat]
    refine Fits.shiftRightOne (ih ?_)
    rwa [Nat.mul_comm 2, Nat.mul_assoc, Nat.mul_comm 2, ← Nat.pow_succ]

theorem Fits.roundedMantissa_le {em : ExtendedMantissa} (h : Fits bound em) :
    em.roundedMantissa ≤ bound := by
  obtain ⟨mantissa, roundBit, stickyBit⟩ := em
  obtain ⟨hle, hlt⟩ := h
  cases roundBit with
  | false => cases stickyBit <;> exact hle
  | true =>
    have hbelow : mantissa < bound := hlt rfl
    cases stickyBit with
    | false =>
      change mantissa + mantissa % 2 ≤ bound
      omega
    | true => exact hbelow

theorem fits_exact {mantissa : Nat} (h : mantissa ≤ bound) :
    Fits bound (.ofMantissaAndAccuracy mantissa .exact) :=
  ⟨h, nofun⟩

/-- A quotient with what is left over. -/
theorem fits_quotient {dividend divisor : Nat} (hdivisor : 0 < divisor)
    (h : dividend ≤ bound * divisor) :
    Fits bound (.ofMantissaAndAccuracy (dividend / divisor)
      (accuracyOfFraction (dividend % divisor) divisor)) := by
  unfold accuracyOfFraction
  split
  · exact fits_exact (Nat.div_le_of_le_mul (Nat.mul_comm bound divisor ▸ h))
  · rename_i hrest
    have hlt : dividend / divisor < bound := by
      rw [Nat.div_lt_iff_lt_mul hdivisor]
      refine Nat.lt_of_le_of_ne h fun heq => hrest ?_
      rw [heq, Nat.mul_mod_left]
    cases compare (2 * (dividend % divisor)) divisor <;> exact ⟨hlt.le, fun _ => hlt⟩

/-! ## Unpacked numbers up to a bound -/

/-- No positive number above `bound * 2 ^ 104`, in the format. -/
def Bounded (bound : Nat) : UnpackedFloat → Prop
  | .finite .positive mantissa exponent _ =>
    exponent ≤ 104 ∧ -149 ≤ exponent ∧ mantissa ≤ bound * 2 ^ (104 - exponent).toNat
  | _ => True

/-- No positive number above `bound * 2 ^ 104`, but for those that are too large for the format. -/
def Rounded (bound : Nat) : UnpackedFloat → Prop
  | .finite .positive mantissa exponent _ =>
    104 < exponent ∨ -149 ≤ exponent ∧ mantissa ≤ bound * 2 ^ (104 - exponent).toNat
  | _ => True

theorem targetExponent_le {mantissa : Nat} {exponent : Int} (hexponent : exponent ≤ 104)
    (h : mantissa < 2 ^ (128 - exponent).toNat) :
    Format.binary32.targetExponent (totalExponent mantissa exponent) ≤ 104 := by
  have hlog : mantissa.log2 < (128 - exponent).toNat := by
    by_cases hzero : mantissa = 0
    · rw [hzero, Nat.log2_zero]
      omega
    · exact (Nat.log2_lt hzero).mpr h
  have hmin : Format.binary32.minExponent = -149 := by decide
  have hbits : Format.binary32.mantissaBits = 24 := rfl
  unfold Format.targetExponent totalExponent
  omega

theorem shiftToTargetExponent_fits (hbound : bound < 2 ^ 24) {mantissa : Nat} {exponent : Int}
    (hexponent : exponent ≤ 104) {accuracy : Accuracy}
    (h : Fits (bound * 2 ^ (104 - exponent).toNat) (.ofMantissaAndAccuracy mantissa accuracy)) :
    let shifted := shiftToTargetExponent .binary32 mantissa exponent accuracy
    shifted.2 ≤ 104 ∧ -149 ≤ shifted.2 ∧
      Fits (bound * 2 ^ (104 - shifted.2).toNat) shifted.1 := by
  have hstart : (ExtendedMantissa.ofMantissaAndAccuracy mantissa accuracy).mantissa = mantissa := by
    unfold ExtendedMantissa.ofMantissaAndAccuracy
    split <;> rfl
  have hmantissa : mantissa < 2 ^ (128 - exponent).toNat := by
    have hsplit : (128 - exponent).toNat = 24 + (104 - exponent).toNat := by omega
    rw [hsplit, Nat.pow_add]
    exact Nat.lt_of_le_of_lt (hstart ▸ h.1) (Nat.mul_lt_mul_of_pos_right hbound (Nat.two_pow_pos _))
  have htarget := targetExponent_le hexponent hmantissa
  have hmin : -149 ≤ Format.binary32.targetExponent (totalExponent mantissa exponent) :=
    Int.le_max_right _ _
  unfold shiftToTargetExponent shiftToExponent
  generalize Format.binary32.targetExponent (totalExponent mantissa exponent) = target
    at htarget hmin
  dsimp only
  refine ⟨by omega, by omega, Fits.shiftRight ?_⟩
  have hsplit : (104 - exponent).toNat =
      (104 - (exponent + (target - exponent).toNat)).toNat + (target - exponent).toNat := by
    omega
  rwa [Nat.mul_assoc, ← Nat.pow_add, ← hsplit]

/-- Rounding does not go beyond a bound. -/
theorem roundWithAccuracy_rounded (hbound : bound < 2 ^ 24) (sign : Sign) {mantissa : Nat}
    {exponent : Int} (hexponent : exponent ≤ 104) {accuracy : Accuracy}
    (h : Fits (bound * 2 ^ (104 - exponent).toNat) (.ofMantissaAndAccuracy mantissa accuracy)) :
    Rounded bound (roundWithAccuracy .binary32 sign mantissa exponent accuracy) := by
  obtain ⟨hexponent', -, hfits⟩ := shiftToTargetExponent_fits hbound hexponent h
  unfold roundWithAccuracy
  generalize shiftToTargetExponent .binary32 mantissa exponent accuracy = first
    at hexponent' hfits ⊢
  obtain ⟨-, hmin, hfits⟩ :=
    shiftToTargetExponent_fits hbound hexponent' (fits_exact hfits.roundedMantissa_le)
  dsimp only
  split
  · trivial
  · cases sign with
    | negative => trivial
    | positive => exact .inr ⟨hmin, hfits.1⟩

theorem round_rounded (hbound : bound < 2 ^ 24) (sign : Sign) {mantissa : Nat} {exponent : Int}
    (hexponent : exponent ≤ 104) (h : mantissa ≤ bound * 2 ^ (104 - exponent).toNat) :
    Rounded bound (round .binary32 sign mantissa exponent) := by
  unfold UnpackedFloat.round decreaseExponent
  dsimp only
  refine roundWithAccuracy_rounded hbound sign (by omega) (fits_exact ?_)
  rw [Nat.shiftLeft_eq]
  generalize (exponent - _).toNat = shift
  have hsplit : (104 - (exponent - shift)).toNat = (104 - exponent).toNat + shift := by omega
  rw [hsplit, Nat.pow_add, ← Nat.mul_assoc]
  exact Nat.mul_le_mul_right _ h

/-- What is beyond the format stays so. -/
theorem roundWithAccuracy_overflows (sign : Sign) {mantissa : Nat} {exponent : Int}
    (hexponent : exponent ≤ 128) (accuracy : Accuracy)
    (h : 2 ^ (128 - exponent).toNat ≤ mantissa) :
    Rounded bound (roundWithAccuracy .binary32 sign mantissa exponent accuracy) := by
  have hpos : mantissa ≠ 0 := Nat.ne_of_gt (Nat.lt_of_lt_of_le (Nat.two_pow_pos _) h)
  have hlog : (128 - exponent).toNat ≤ mantissa.log2 := (Nat.le_log2 hpos).mpr h
  have hbits : Format.binary32.mantissaBits = 24 := rfl
  have hfirst : 104 < (shiftToTargetExponent .binary32 mantissa exponent accuracy).2 := by
    unfold shiftToTargetExponent shiftToExponent Format.targetExponent totalExponent
    dsimp only
    omega
  unfold roundWithAccuracy
  generalize shiftToTargetExponent .binary32 mantissa exponent accuracy = first at hfirst ⊢
  have hsecond : 104 <
      (shiftToTargetExponent .binary32 first.1.roundedMantissa first.2 .exact).2 := by
    unfold shiftToTargetExponent shiftToExponent
    dsimp only
    omega
  dsimp only
  split
  · trivial
  · cases sign with
    | negative => trivial
    | positive => exact .inl hsecond

/-! ## Packing -/

theorem bounded_of_sign? {u : UnpackedFloat} (h : sign? u ≠ some .positive) : Bounded bound u := by
  cases u with
  | finite sign _ _ _ =>
    cases sign with
    | positive => exact absurd rfl h
    | negative => trivial
  | _ => trivial

theorem bounded_packComponents_zero {mantissa : BitVec 23} (h : mantissa.toNat ≤ bound * 2 ^ 253) :
    Bounded bound (unpack .binary32 (packComponents .binary32 .positive 0#8 mantissa)) := by
  by_cases hzero : mantissa = 0#23
  · have hunpack : unpack .binary32 (packComponents .binary32 .positive 0#8 mantissa) =
        .zero .positive := by
      rw [hzero]
      exact unpack_packedZero
    rw [hunpack]
    trivial
  · obtain ⟨_, hunpack⟩ :=
      @unpack_packComponents_subnormal .binary32 .positive mantissa hzero
    rw [hunpack]
    exact ⟨by decide, by decide, h⟩

/-- What is too large for the format is packed to an infinity, all else to what is not larger. -/
theorem bounded_unpack_pack {u : UnpackedFloat} (h : Rounded bound u) :
    Bounded bound (unpack .binary32 (pack .binary32 u)) := by
  by_cases hsign : sign? u = some .positive
  case neg => exact bounded_of_sign? (by rwa [sign?_unpack_pack])
  cases u with
  | notANumber => cases hsign
  | infinity s =>
    cases hsign
    trivial
  | zero s =>
    cases hsign
    trivial
  | finite s mantissa exponent hpos =>
    cases hsign
    by_cases hlarge : 104 < exponent
    · have hinfinite : (256 : Nat) ≤ exponent + (127 : Nat) + (23 : Nat) + 1 := by omega
      have hpacked : unpack .binary32 (pack .binary32 (.finite .positive mantissa exponent hpos)) =
          .infinity .positive := unpack_pack_large hinfinite
      rw [hpacked]
      trivial
    obtain ⟨hmin, hle⟩ := h.resolve_left hlarge
    by_cases hlog : mantissa.log2 = 23
    · have hlower : 2 ^ 23 ≤ mantissa := (Nat.le_log2 (Nat.ne_of_gt hpos)).mp hlog.ge
      have hupper : mantissa < 2 ^ 24 := (Nat.log2_lt (Nat.ne_of_gt hpos)).mp (by omega)
      have hfits : exponent + (127 : Nat) + (23 : Nat) + 1 < (256 : Nat) := by omega
      have hleast : Format.binary32.minExponent = -149 := by decide
      have hkept : unpack .binary32 (pack .binary32 (.finite .positive mantissa exponent hpos)) =
          .finite .positive mantissa exponent hpos :=
        unpack_pack_normal (by rwa [hleast]) hfits hlower hupper
      rw [hkept]
      exact ⟨by omega, hmin, hle⟩
    · have hbiased : exponent + (127 : Nat) + (23 : Nat) = (exponent + 150).toNat := by omega
      have hfits : (exponent + 150).toNat + 1 < 256 := by omega
      have hbits : mantissa.log2 + 1 ≠ Format.binary32.mantissaBits := by
        change _ ≠ 24
        omega
      rw [pack_finite hpos _ hbiased hfits, if_neg hbits]
      refine bounded_packComponents_zero ?_
      calc (BitVec.ofNat 23 mantissa).toNat = mantissa % 2 ^ 23 := BitVec.toNat_ofNat ..
        _ ≤ mantissa := Nat.mod_le _ _
        _ ≤ bound * 2 ^ (104 - exponent).toNat := hle
        _ ≤ bound * 2 ^ 253 :=
          Nat.mul_le_mul_left _ (Nat.pow_le_pow_right (by decide) (by omega))

/-! ## Operations -/

theorem rounded_of_sign? {u : UnpackedFloat} (h : sign? u ≠ some .positive) : Rounded bound u := by
  cases u with
  | finite sign _ _ _ =>
    cases sign with
    | positive => exact absurd rfl h
    | negative => trivial
  | _ => trivial

theorem Bounded.rounded {u : UnpackedFloat} (h : Bounded bound u) {bound' : Nat}
    (hbound : bound ≤ bound') : Rounded bound' u := by
  cases u with
  | finite sign mantissa exponent _ =>
    cases sign with
    | negative => trivial
    | positive =>
      obtain ⟨-, hmin, hle⟩ := h
      exact .inr ⟨hmin, hle.trans (Nat.mul_le_mul_right _ hbound)⟩
  | _ => trivial

theorem normalize_rounded (hbound : bound < 2 ^ 24) {mantissa exponent : Int}
    (hexponent : 0 < mantissa → exponent ≤ 104)
    (h : mantissa ≤ (bound * 2 ^ (104 - exponent).toNat : Nat)) :
    Rounded bound (normalize .binary32 mantissa exponent .positive) := by
  unfold UnpackedFloat.normalize
  split
  · exact rounded_of_sign? (by rw [sign?_round]; exact nofun)
  · trivial
  · rename_i hgt
    have hpos : 0 < mantissa := Int.compare_eq_gt.mp hgt
    exact round_rounded hbound .positive (hexponent hpos) (by omega)

/-- A term of a sum, written with a smaller exponent. -/
theorem Bounded.apply_le {sign : Sign} {mantissa : Nat} {exponent : Int} {hpos : 0 < mantissa}
    (h : Bounded bound (.finite sign mantissa exponent hpos)) {smaller : Int}
    (hsmaller : smaller ≤ exponent) :
    sign.apply (mantissa <<< (exponent - smaller).toNat : Nat) ≤
      (bound * 2 ^ (104 - smaller).toNat : Nat) := by
  cases sign with
  | negative =>
    have hneg : -((mantissa <<< (exponent - smaller).toNat : Nat) : Int) ≤ 0 :=
      Int.neg_nonpos_of_nonneg (Int.natCast_nonneg _)
    exact hneg.trans (Int.natCast_nonneg _)
  | positive =>
    obtain ⟨hexponent, -, hle⟩ := h
    have hsplit : (104 - smaller).toNat = (104 - exponent).toNat + (exponent - smaller).toNat := by
      omega
    change ((mantissa <<< (exponent - smaller).toNat : Nat) : Int) ≤ _
    rw [Nat.shiftLeft_eq, hsplit, Nat.pow_add, ← Nat.mul_assoc]
    exact Int.ofNat_le.mpr (Nat.mul_le_mul_right _ hle)

theorem add_rounded {bound' : Nat} (hbound : bound + bound' < 2 ^ 24) {u v : UnpackedFloat}
    (hu : Bounded bound u) (hv : Bounded bound' v) :
    Rounded (bound + bound') (add .binary32 u v) := by
  cases u with
  | notANumber => trivial
  | infinity s =>
    cases v with
    | infinity s' =>
      change Rounded _ (if s == s' then _ else _)
      split <;> trivial
    | _ => trivial
  | zero s =>
    cases v with
    | zero s' =>
      change Rounded _ (if s == s' then _ else _)
      split <;> trivial
    | finite => exact hv.rounded (Nat.le_add_left _ _)
    | _ => trivial
  | finite s mantissa exponent hpos =>
    cases v with
    | zero s' => exact hu.rounded (Nat.le_add_right _ _)
    | finite s' mantissa' exponent' hpos' =>
      have hle := hu.apply_le (Int.min_le_left exponent exponent')
      have hle' := hv.apply_le (Int.min_le_right exponent exponent')
      refine normalize_rounded hbound (fun hsum => ?_) ?_
      · cases s with
        | positive => exact (Int.min_le_left _ _).trans hu.1
        | negative =>
          cases s' with
          | positive => exact (Int.min_le_right _ _).trans hv.1
          | negative =>
            -- no sum of two negative terms is positive
            have hneg (n n' : Nat) : ¬ (0 : Int) < -n + -n' := by omega
            exact absurd hsum (hneg _ _)
      · rw [Nat.add_mul]
        push_cast at hle hle' ⊢
        exact Int.add_le_add hle hle'
    | _ => trivial

/-! ### One -/

/-- One as it is unpacked. -/
def unpackedOne : UnpackedFloat := .finite .positive (2 ^ 23) (-23) (by decide)

theorem mul_one_rounded (hbound : bound < 2 ^ 24) {u : UnpackedFloat} (h : Bounded bound u) :
    Rounded bound (mul .binary32 unpackedOne u) := by
  cases u with
  | finite s mantissa exponent hpos =>
    have hmul : mul .binary32 unpackedOne (.finite s mantissa exponent hpos) =
      roundWithAccuracy .binary32 (.positive * s) (2 ^ 23 * mantissa) (-23 + exponent) .exact := rfl
    rw [hmul]
    cases s with
    | negative => exact rounded_of_sign? (by rw [sign?_roundWithAccuracy]; exact nofun)
    | positive =>
      obtain ⟨hexponent, -, hle⟩ := h
      refine roundWithAccuracy_rounded hbound _ (by omega) (fits_exact ?_)
      have hsplit : (104 - (-23 + exponent)).toNat = (104 - exponent).toNat + 23 := by omega
      rw [hsplit, Nat.pow_add, ← Nat.mul_assoc, Nat.mul_comm]
      exact Nat.mul_le_mul_right _ hle
  | _ => trivial

theorem mul_zero_rounded (u : UnpackedFloat) :
    Rounded bound (mul .binary32 (.zero .positive) u) := by
  cases u <;> trivial

/-- The quotient that an inverse is rounded from, and the room that there is for it. -/
theorem exists_div_one {mantissa : Nat} (exponent : Int) (hpos : 0 < mantissa) :
    ∃ target : Int, target ≤ -23 - exponent ∧
      target ≤ max (-mantissa.log2 - exponent - 24) (-149) ∧
      div .binary32 unpackedOne (.finite .positive mantissa exponent hpos) =
        let dividend := 2 ^ (-exponent - target).toNat
        roundWithAccuracy .binary32 .positive (dividend / mantissa) target
          (accuracyOfFraction (dividend % mantissa) mantissa) := by
  have htotal : totalExponent (2 ^ 23) (-23) = 1 := by decide
  have hbits : Format.binary32.mantissaBits = 24 := rfl
  have hmin : Format.binary32.minExponent = -149 := by decide
  obtain ⟨room, hroom⟩ : ∃ room, room = Format.binary32.targetExponent
    (totalExponent (2 ^ 23) (-23) - totalExponent mantissa exponent) := ⟨_, rfl⟩
  have hdiv : div .binary32 unpackedOne (.finite .positive mantissa exponent hpos) =
      let target := min (-23 - exponent) room
      let dividend := 2 ^ 23 <<< (-23 - exponent - target).toNat
      roundWithAccuracy .binary32 .positive (dividend / mantissa) target
        (accuracyOfFraction (dividend % mantissa) mantissa) := by
    rw [hroom]
    rfl
  have hshift : 2 ^ 23 <<< (-23 - exponent - min (-23 - exponent) room).toNat =
      2 ^ (-exponent - min (-23 - exponent) room).toNat := by
    rw [Nat.shiftLeft_eq, ← Nat.pow_add]
    congr 1
    omega
  refine ⟨min (-23 - exponent) room, Int.min_le_left _ _, (Int.min_le_right _ _).trans ?_, ?_⟩
  · rw [hroom, htotal]
    unfold Format.targetExponent totalExponent
    omega
  · rw [hdiv]
    dsimp only
    rw [hshift]

/-- The inverse of a positive number is too large for the format, or it is at most the inverse of
the least number of which it is not. -/
theorem div_one_rounded {u : UnpackedFloat} (hcanonical : Canonical .binary32 u)
    (hsign : sign? u = some .positive) (hzero : isZero u = false) :
    Rounded (2 ^ 24 - 7) (div .binary32 unpackedOne u) := by
  cases u with
  | notANumber => cases hsign
  | infinity s => trivial
  | zero s => cases hzero
  | finite s mantissa exponent hpos =>
    cases hsign
    have hmin : -149 ≤ exponent := hcanonical.2
    obtain ⟨target, hshift, hroom, hdiv⟩ := exists_div_one exponent hpos
    -- the number is `mantissa * scale` of the least ones, whose inverse is `2 ^ 149`
    obtain ⟨scale, hscale⟩ : ∃ scale, scale = 2 ^ (exponent + 149).toNat := ⟨_, rfl⟩
    have hscale_pos : 0 < scale := hscale ▸ Nat.two_pow_pos _
    have hdividend : 2 ^ (-exponent - target).toNat * scale = 2 ^ (149 - target).toNat := by
      rw [hscale, ← Nat.pow_add]
      congr 1
      omega
    rw [hdiv]
    by_cases hlarge : mantissa * scale ≤ 2 ^ 21
    · refine roundWithAccuracy_overflows .positive (by omega) _ ?_
      rw [Nat.le_div_iff_mul_le hpos]
      refine Nat.le_of_mul_le_mul_right ?_ hscale_pos
      have hsplit : (149 - target).toNat = (128 - target).toNat + 21 := by omega
      rw [hdividend, hsplit, Nat.pow_add, Nat.mul_assoc]
      exact Nat.mul_le_mul_left _ hlarge
    · have htarget : target ≤ 104 := by
        have hlog : 2 ^ 21 < 2 ^ (mantissa.log2 + 1 + (exponent + 149).toNat) := by
          rw [Nat.pow_add, ← hscale]
          exact (Nat.lt_of_not_le hlarge).trans
            (Nat.mul_lt_mul_of_pos_right Nat.lt_log2_self hscale_pos)
        have hlog := (Nat.pow_lt_pow_iff_right (by decide)).mp hlog
        omega
      refine roundWithAccuracy_rounded (by decide) .positive htarget (fits_quotient hpos ?_)
      refine Nat.le_of_mul_le_mul_right ?_ hscale_pos
      have hsplit : (149 - target).toNat = 45 + (104 - target).toNat := by omega
      calc 2 ^ (-exponent - target).toNat * scale
          = 2 ^ 45 * 2 ^ (104 - target).toNat := by rw [hdividend, hsplit, Nat.pow_add]
        _ ≤ (2 ^ 24 - 7) * (mantissa * scale) * 2 ^ (104 - target).toNat :=
          Nat.mul_le_mul_right _ (by omega)
        _ = (2 ^ 24 - 7) * 2 ^ (104 - target).toNat * mantissa * scale := by ring

/-! ### A factor of one -/

theorem mul_one_eq {u : UnpackedFloat} (hcanonical : Canonical .binary32 u)
    (hfull : Full .binary32 u) : mul .binary32 unpackedOne u = u := by
  have hsign (s : Sign) : Sign.positive * s = s := by cases s <;> rfl
  cases u with
  | notANumber => rfl
  | infinity s => exact congrArg UnpackedFloat.infinity (hsign s)
  | zero s => exact congrArg UnpackedFloat.zero (hsign s)
  | finite s mantissa exponent hpos =>
    have hmul : mul .binary32 unpackedOne (.finite s mantissa exponent hpos) =
      roundWithAccuracy .binary32 (.positive * s) (2 ^ 23 * mantissa) (-(23 : Nat) + exponent)
        .exact := rfl
    rw [hmul, hsign]
    exact roundWithAccuracy_exact s hpos (targetExponent_of_full hcanonical hfull) 23

/-! ## Numbers up to a bound -/

open Packed

/-- A number is not above `bound * 2 ^ 104`. -/
def AtMost (bound : Nat) (x : Float32) : Prop := Bounded bound (unpacked x)

theorem AtMost.of_rounded {u : UnpackedFloat} (h : Rounded bound u) :
    AtMost bound (ofUnpacked u) :=
  bounded_unpack_pack h

theorem AtMost.add {bound' : Nat} (hbound : bound + bound' < 2 ^ 24) {x y : Float32}
    (hx : AtMost bound x) (hy : AtMost bound' y) : AtMost (bound + bound') (x + y) :=
  .of_rounded (add_rounded hbound hx hy)

theorem atMost_one : AtMost 1 1 := by
  change Bounded 1 unpackedOne
  exact ⟨by decide, by decide, by decide⟩

theorem AtMost.one_mul (hbound : bound < 2 ^ 24) {x : Float32} (hx : AtMost bound x) :
    AtMost bound (1 * x) :=
  .of_rounded (mul_one_rounded hbound hx)

theorem atMost_zero_mul (x : Float32) : AtMost bound (0 * x) := .of_rounded (mul_zero_rounded _)

theorem atMost_neg_one : AtMost 0 (-1) := trivial

theorem atMost_inverse {x : Float32} (hx : 0 < x) : AtMost (2 ^ 24 - 7) (1 / x) := by
  obtain ⟨hsign, hzero⟩ := zero_lt_iff.mp hx
  exact .of_rounded (div_one_rounded (canonical x) hsign hzero)

/-- What stays below the largest number counts as known. -/
theorem AtMost.ne_largest (hbound : bound < 2 ^ 24 - 1) {x : Float32} (hx : AtMost bound x) :
    (x != Scalar.largest) = true := by
  have hlargest : unpacked (Scalar.largest : Float32) =
    .finite .positive (2 ^ 24 - 1) 104 (by decide) := rfl
  rw [bne, Bool.not_eq_true', ← Bool.not_eq_true, beq_iff, hlargest]
  intro heq
  unfold AtMost at hx
  generalize unpacked x = u at hx heq
  cases u with
  | notANumber => cases heq
  | infinity s => cases s <;> cases heq
  | zero s => cases heq
  | finite s mantissa exponent hpos =>
    cases s with
    | negative => cases heq
    | positive =>
      have heq : (compare exponent 104).then (compare mantissa (2 ^ 24 - 1)) = .eq :=
        Option.some.inj heq
      obtain ⟨hexponent, hmantissa⟩ := Ordering.then_eq_eq.mp heq
      have hexponent : exponent = 104 := compare_eq_iff_eq.mp hexponent
      have hmantissa : mantissa = 2 ^ 24 - 1 := compare_eq_iff_eq.mp hmantissa
      obtain ⟨-, -, hle⟩ := hx
      rw [hexponent, hmantissa] at hle
      simp at hle
      omega

theorem one_mul_eq (x : Float32) : 1 * x = x :=
  (congrArg ofUnpacked (mul_one_eq (canonical x) (full_unpack _))).trans (ofUnpacked_unpacked x)

theorem unpacked_zero_mul (x : Float32) :
    unpacked (0 * x) =
      unpack .binary32 (pack .binary32 (mul .binary32 (.zero .positive) (unpacked x))) :=
  rfl

theorem unpack_pack_zero (sign : Sign) :
    unpack .binary32 (pack .binary32 (.zero sign)) = .zero sign := by
  cases sign <;> rfl

theorem exists_zero_mul {u : UnpackedFloat} (h : u.isFinite = true) :
    ∃ sign, mul .binary32 (.zero .positive) u = .zero sign := by
  cases u with
  | notANumber | infinity => cases h
  | zero sign => exact ⟨.positive * sign, rfl⟩
  | finite sign mantissa exponent hpos => exact ⟨.positive * sign, rfl⟩

theorem exists_unpacked_zero_mul {x : Float32} (h : Scalar.isFinite x = true) :
    ∃ sign, unpacked (0 * x) = .zero sign := by
  obtain ⟨sign, hmul⟩ := exists_zero_mul (u := unpacked x) h
  exact ⟨sign, by rw [unpacked_zero_mul, hmul, unpack_pack_zero]⟩

theorem neg_one_add_eq {x : Float32} {sign : Sign} (h : unpacked x = .zero sign) : -1 + x = -1 := by
  have hadd : -1 + x = ofUnpacked (add .binary32 (unpacked (-1 : Float32)) (unpacked x)) := rfl
  rw [hadd, h]
  exact ofUnpacked_unpacked (-1 : Float32)

/-! ## Costs -/

namespace Grounded

variable {s : GroundedSettings Float32}

/-- The cost that a confident decoder leaves counts as known. -/
theorem extremeCost_known (hprior : 0 < s.unlabeledPrior) (negative : Bool) :
    (extremeCost s negative != Scalar.largest) = true := by
  have hsum : AtMost (2 ^ 24 - 6) (1 + 1 / s.unlabeledPrior) :=
    .add (by decide) atMost_one (atMost_inverse hprior)
  have hloss : AtMost (2 ^ 24 - 6)
      ((if negative then 1 else 0) * (1 + 1 / s.unlabeledPrior)) := by
    cases negative with
    | false => exact atMost_zero_mul _
    | true => exact .one_mul (by decide) hsum
  have hcost : AtMost (0 + (2 ^ 24 - 6)) (extremeCost s negative) :=
    .add (by decide) atMost_neg_one hloss
  exact hcost.ne_largest (by decide)

/-- Where the loss is in the range of the numbers, a confident decoder leaves a gain of one, or the
loss taken from it. -/
theorem extremeCost_eq (hfinite : Scalar.isFinite (1 + 1 / s.unlabeledPrior) = true)
    (negative : Bool) :
    extremeCost s negative = if negative then -1 + (1 + 1 / s.unlabeledPrior) else -1 := by
  cases negative with
  | true =>
    exact congrArg (-1 + ·) (one_mul_eq (1 + 1 / s.unlabeledPrior))
  | false =>
    obtain ⟨sign, hzero⟩ := exists_unpacked_zero_mul hfinite
    exact neg_one_add_eq hzero

end Grounded

end OnlineLearning
