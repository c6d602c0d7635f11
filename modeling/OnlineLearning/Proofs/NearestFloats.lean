import OnlineLearning.Proofs.ShortestDecimals
import OnlineLearning.Toml.Scalar

/-!
# Floats that are read from decimals

A decimal is read as the float that it is nearest to, and so the shortest decimal of a float is read
as this float again.

* `Denotes`: what the bits of a float stand for, as an unpacked number;
* `nearestFloat_nearest`: decimals are read correctly rounded;
* `nearestFloat_shortest`: the shortest decimal of a float is read back.
-/

namespace OnlineLearning

open Float.Model (Format UnpackedFloat totalExponent)
open Float.Model.UnpackedFloat
open Packed

/-! ## Bits -/

/-- What a magnitude is as an unpacked number of a sign. A finite one is in the format. -/
def Denotes (sign : Sign) (u : UnpackedFloat) : Magnitude → Prop
  | .zero => u = .zero sign
  | .infinite => u = .infinity sign
  | .notANumber => u = .notANumber
  | .finite v => ∃ hpos, u = .finite sign v.mantissa v.exponent hpos ∧
      (v.nearBelow = true ↔ v.mantissa = 2 ^ 52 ∧ -1074 < v.exponent)

section

variable (b : BitVec Format.binary64.numBits)

theorem toNat_unpackMantissa : (unpackMantissa b).toNat = b.toNat % 2 ^ 52 := by
  unfold unpackMantissa
  rw [BitVec.toNat_cast, BitVec.extractLsb_toNat, Nat.shiftRight_zero]
  rfl

theorem toNat_unpackExponent : (unpackExponent b).toNat = b.toNat / 2 ^ 52 % 2 ^ 11 := by
  unfold unpackExponent
  rw [BitVec.toNat_cast, BitVec.extractLsb_toNat, Nat.shiftRight_eq_div_pow]
  rfl

theorem toNat_unpackSign : (unpackSign b).toNat = b.toNat / 2 ^ 63 % 2 := by
  unfold unpackSign
  rw [BitVec.toNat_cast, BitVec.extractLsb_toNat, Nat.shiftRight_eq_div_pow]
  rfl

theorem ofBitVec_unpackSign :
    Sign.ofBitVec (unpackSign b) = if b.toNat / 2 ^ 63 % 2 == 1 then .negative else .positive := by
  have hbit := toNat_unpackSign b
  unfold Sign.ofBitVec
  by_cases hzero : unpackSign b = 0#1
  · rw [hzero] at hbit ⊢
    rw [← hbit]
    rfl
  · have hone : b.toNat / 2 ^ 63 % 2 = 1 := by
      have hne : (unpackSign b).toNat ≠ 0 := fun h => hzero (BitVec.eq_of_toNat_eq h)
      omega
    rw [if_neg hzero, hone]
    rfl

/-- The bits of a float are decoded to the number that it is. -/
theorem denotes_unpack :
    Denotes (if (Binary.decode binary64 b.toNat).1 then .negative else .positive)
      (unpack .binary64 b) (Binary.decode binary64 b.toNat).2 := by
  have hsign : Sign.ofBitVec (unpackSign b) =
      if (Binary.decode binary64 b.toNat).1 then .negative else .positive := ofBitVec_unpackSign b
  have hfraction : b.toNat % binary64.hiddenBit = (unpackMantissa b).toNat :=
    (toNat_unpackMantissa b).symm
  have hbiased : b.toNat / binary64.hiddenBit % (binary64.specialExponent + 1) =
    (unpackExponent b).toNat := (toNat_unpackExponent b).symm
  have hfew := (unpackMantissa b).isLt
  have hzero : unpackMantissa b = 0#_ ↔ ((unpackMantissa b).toNat == 0) = true := by
    rw [beq_iff_eq, ← BitVec.toNat_inj, BitVec.toNat_zero]
  have hspecial : unpackExponent b = -1#_ ↔
      ((unpackExponent b).toNat == binary64.specialExponent) = true := by
    rw [beq_iff_eq, ← BitVec.toNat_inj, toNat_neg_one]
    rfl
  have hleast : unpackExponent b = 0#_ ↔ ((unpackExponent b).toNat == 0) = true := by
    rw [beq_iff_eq, ← BitVec.toNat_inj, BitVec.toNat_zero]
  rw [← hsign]
  unfold Binary.decode unpack
  rw [hfraction, hbiased]
  dsimp only
  by_cases h : unpackExponent b = -1#_
  · rw [if_pos h, if_pos (hspecial.mp h)]
    by_cases h' : unpackMantissa b = 0#_
    · rw [if_pos h', if_pos (hzero.mp h')]
      rfl
    · rw [if_neg h', if_neg (fun hmantissa => h' (hzero.mpr hmantissa))]
      rfl
  · rw [if_neg h, if_neg (fun hexponent => h (hspecial.mpr hexponent))]
    by_cases h'' : unpackExponent b = 0#_
    · rw [if_pos h'', if_pos (hleast.mp h'')]
      by_cases h' : unpackMantissa b = 0#_
      · rw [dif_pos h', if_pos (hzero.mp h')]
        rfl
      · rw [dif_neg h', if_neg (fun hmantissa => h' (hzero.mpr hmantissa)), h'']
        have hpos : 0 < (unpackMantissa b).toNat := by rwa [BitVec.toNat_pos, BitVec.pos_iff_ne_zero]
        refine ⟨hpos, rfl, ?_⟩
        change false = true ↔ (unpackMantissa b).toNat = 2 ^ 52 ∧ _
        simp only [Bool.false_eq_true, false_iff, not_and]
        exact fun hequal => absurd hequal (Nat.ne_of_lt hfew)
    · rw [if_neg h'', if_neg (fun hexponent => h'' (hleast.mpr hexponent))]
      have hpos : 0 < (unpackExponent b).toNat := by rwa [BitVec.toNat_pos, BitVec.pos_iff_ne_zero]
      refine ⟨Nat.add_pos_left (by decide) _, ?_, ?_⟩
      · congr 1
        · exact toNat_implicit _
        · change ((unpackExponent b).toNat : Int) - (1023 + 52) = (unpackExponent b).toNat - 1023 - 52
          omega
      · rw [Bool.and_eq_true, beq_iff_eq, decide_eq_true_eq]
        change _ ↔ 2 ^ 52 + (unpackMantissa b).toNat = 2 ^ 52 ∧
          -1074 < ((unpackExponent b).toNat : Int) - 1023 - 52
        omega

end

/-! ## Powers of ten -/

/-- Whether an unpacked number is a power of ten. -/
def isPowerOfTen (k : Nat) : UnpackedFloat → Bool
  | .finite .positive mantissa exponent _ =>
    mantissa * 2 ^ exponent.toNat == 10 ^ k * 2 ^ (-exponent).toNat
  | _ => false

theorem exists_of_isPowerOfTen {k : Nat} {u : UnpackedFloat} (h : isPowerOfTen k u = true) :
    ∃ (mantissa : Nat) (exponent : Int) (hpos : 0 < mantissa),
      u = .finite .positive mantissa exponent hpos ∧ (mantissa : ℚ) * 2 ^ exponent = 10 ^ k := by
  match u, h with
  | .finite .positive mantissa exponent hpos, h =>
    refine ⟨mantissa, exponent, hpos, rfl, ?_⟩
    have h : ((mantissa * 2 ^ exponent.toNat : Nat) : ℚ) = (10 ^ k * 2 ^ (-exponent).toNat : Nat) :=
      congrArg _ (beq_iff_eq.mp h)
    have hpower : (2 : ℚ) ^ exponent = 2 ^ exponent.toNat / 2 ^ (-exponent).toNat := by
      rw [← zpow_natCast, ← zpow_natCast, ← zpow_sub₀ two_ne_zero]
      congr 1
      omega
    push_cast at h
    rw [hpower, ← mul_div_assoc, h]
    exact mul_div_cancel_right₀ _ (by positivity)

/-- The powers of ten that are floats. -/
theorem isPowerOfTen_table {k : Nat} (hk : k < Float.exactlyRepresentablePowersOfTen.size) :
    isPowerOfTen k (unpacked Float.exactlyRepresentablePowersOfTen[k]) = true := by
  have htable : ∀ k : Fin 23,
      isPowerOfTen k (unpacked Float.exactlyRepresentablePowersOfTen[k]) = true := by
    decide +kernel
  exact htable ⟨k, hk⟩

/-! ## Decimals -/

variable {mantissa : Nat} {exponent : Int}

/-- An unpacked number that is packed without a loss. -/
theorem unpacked_ofUnpacked_full {sign : Sign} {hpos : 0 < mantissa}
    (hcanonical : Canonical .binary64 (.finite sign mantissa exponent hpos))
    (hfull : Full .binary64 (.finite sign mantissa exponent hpos)) (hmax : exponent ≤ 971) :
    unpacked (ofUnpacked (.finite sign mantissa exponent hpos) : Float) =
      .finite sign mantissa exponent hpos := by
  refine unpack_pack_full hcanonical hfull ?_
  change exponent + 1023 + 52 + 1 < 2048
  omega

/-- A small natural number is a float. -/
theorem exists_toFloat {n : Nat} (hpos : 0 < n) (hsmall : n < 2 ^ 53) :
    ∃ (mantissa : Nat) (exponent : Int) (hpos : 0 < mantissa),
      unpacked n.toUInt64.toFloat = .finite .positive mantissa exponent hpos ∧
        (mantissa : ℚ) * 2 ^ exponent = n := by
  have hnat : n.toUInt64.toNat = n :=
    UInt64.toNat_ofNat_of_lt' (Nat.lt_trans hsmall (by decide))
  have hcompare : compare (n : Int) 0 = .gt := Int.compare_eq_gt.mpr (by omega)
  have hinteger : UnpackedFloat.ofUInt64 .binary64 n.toUInt64 =
      UnpackedFloat.round .binary64 .positive n 0 := by
    unfold UnpackedFloat.ofUInt64 UnpackedFloat.ofNat UnpackedFloat.ofInt UnpackedFloat.normalize
    rw [hnat, hcompare]
    rfl
  obtain ⟨j, hj, hround, hcanonical, hfull⟩ :=
    @exists_round_binary64 n 0 .positive hpos (by decide) hsmall
  have hunpacked := unpacked_ofUnpacked_full hcanonical hfull (by omega)
  refine ⟨2 ^ j * n, -j + 0, hj, ?_, ?_⟩
  · rw [← hunpacked, ← hround, ← hinteger]
    rfl
  · rw [add_zero, zpow_neg, zpow_natCast]
    push_cast
    field_simp

/-- A decimal is read as the float that it is nearest to. -/
theorem ofScientific_nearest {digits k : Nat} (hdigits : 0 < digits) (hk : 0 < k)
    (hfew : k ≤ 2048 + digits.log2) (hpos : 0 < mantissa)
    (htarget : Format.binary64.targetExponent (totalExponent mantissa exponent) = exponent)
    (h : Nearest .binary64 mantissa exponent (digits / 10 ^ k)) :
    Float.ofScientific digits true k = ofUnpacked (.finite .positive mantissa exponent hpos) := by
  unfold Float.ofScientific
  split
  · rename_i hsmall
    obtain ⟨m, e, hm, hfloat, hvalue⟩ := exists_toFloat hdigits hsmall.1
    obtain ⟨m', e', hm', hpower, hvalue'⟩ :=
      exists_of_isPowerOfTen (isPowerOfTen_table (Nat.lt_succ_of_le hsmall.2))
    rw [← hvalue, ← hvalue'] at h
    have hdiv := div_nearest hpos htarget .positive .positive hm hm' h
    dsimp only
    rw [if_pos rfl, div_eq, hfloat]
    exact congrArg ofUnpacked
      ((congrArg (UnpackedFloat.div .binary64 (.finite .positive m e hm)) hpower).trans hdiv)
  · have hone (n : Nat) : ((n : Nat) : ℚ) * 2 ^ (0 : Int) = n := by rw [zpow_zero, mul_one]
    have hten : 0 < 10 ^ k := Nat.pow_pos (by decide)
    have hquotient : Nearest .binary64 mantissa exponent
        (digits * 2 ^ (0 : Int) / ((10 ^ k : Nat) * 2 ^ (0 : Int))) := by
      rw [hone, hone]
      push_cast
      exact h
    have hdiv := div_nearest hpos htarget .positive .positive hdigits hten hquotient
    have hmodel : UnpackedFloat.ofScientific .binary64 digits (Int.negOfNat k) =
        .finite .positive mantissa exponent hpos := by
      have hnegative : Int.negOfNat k = -(k : Int) := Int.negOfNat_eq
      have htop : ¬ -(k : Int) > 2 ^ Format.binary64.exponentBits := by
        change ¬ -(k : Int) > 2 ^ 11
        omega
      have hlow : ¬ -(k : Int) < -(2 ^ Format.binary64.exponentBits + digits.log2) := by
        change ¬ -(k : Int) < -(2 ^ 11 + digits.log2)
        omega
      unfold UnpackedFloat.ofScientific
      rw [hnegative, dif_neg (Nat.ne_of_gt hdigits), if_neg htop, if_neg hlow,
        if_neg (by omega : ¬ 0 ≤ -(k : Int))]
      simp only [neg_neg, Int.toNat_natCast]
      exact hdiv
    change ofUnpacked (UnpackedFloat.ofScientific .binary64 digits (Int.negOfNat k)) = _
    rw [hmodel]

/-- What is nearest to a float lies in the range of floats. -/
theorem Nearest.range {r : ℚ} (hpos : 0 < mantissa) (hmantissa : mantissa < 2 ^ 53)
    (hmin : -1074 ≤ exponent) (hmax : exponent ≤ 971)
    (h : Nearest .binary64 mantissa exponent r) :
    (2 : ℚ) ^ (-1075 : Int) ≤ r ∧ r < 2 ^ (1024 : Int) := by
  have hone : (1 : ℚ) ≤ mantissa := by exact_mod_cast hpos
  have hless : (mantissa : ℚ) + 1 ≤ 2 ^ 53 := by exact_mod_cast hmantissa
  have hunit := two_zpow_pos exponent
  constructor
  · have hleast : (2 : ℚ) ^ (-1075 : Int) = 1 / 2 * 2 ^ (-1074 : Int) := by
      rw [one_div, ← zpow_neg_one, ← zpow_add₀ two_ne_zero]
      congr 1
    have hstep : (2 : ℚ) ^ (-1074 : Int) ≤ 2 ^ exponent := zpow_le_zpow_right₀ one_le_two hmin
    rw [hleast]
    refine le_trans ?_ h.low
    exact mul_le_mul (by linarith) hstep (two_zpow_pos _).le (by linarith)
  · have hlargest : (2 : ℚ) ^ (1024 : Int) = 2 ^ 53 * 2 ^ (971 : Int) := by
      rw [← zpow_natCast, ← zpow_add₀ two_ne_zero]
      congr 1
    have hstep : (2 : ℚ) ^ exponent ≤ 2 ^ (971 : Int) := zpow_le_zpow_right₀ one_le_two hmax
    rw [hlargest]
    refine h.high.trans_lt ?_
    calc ((mantissa : ℚ) + 1 / 2) * 2 ^ exponent < 2 ^ 53 * 2 ^ exponent :=
          mul_lt_mul_of_pos_right (by linarith) hunit
      _ ≤ 2 ^ 53 * 2 ^ (971 : Int) := mul_le_mul_of_nonneg_left hstep (by positivity)

section

variable {digits k : Nat} (hlow : (2 : ℚ) ^ (-1075 : Int) ≤ digits / 10 ^ k)
include hlow

/-- A decimal that is not too small has more bits than its exponent takes away. -/
theorem le_log2_of_le : k ≤ 2048 + digits.log2 := by
  have hten : (0 : ℚ) < 10 ^ k := by positivity
  have hlog : (digits : ℚ) < 2 ^ (digits.log2 + 1) := by exact_mod_cast Nat.lt_log2_self
  have hpower : (2 : ℚ) ^ k ≤ 10 ^ k := pow_le_pow_left₀ two_pos.le (by norm_num) k
  have hlt : (2 : ℚ) ^ (-1075 + k : Int) < 2 ^ (digits.log2 + 1 : Int) := by
    rw [zpow_add₀ two_ne_zero, zpow_natCast]
    calc (2 : ℚ) ^ (-1075 : Int) * 2 ^ k ≤ 2 ^ (-1075 : Int) * 10 ^ k :=
          mul_le_mul_of_nonneg_left hpower (two_zpow_pos _).le
      _ ≤ digits := (le_div_iff₀ hten).mp hlow
      _ < 2 ^ (digits.log2 + 1 : Int) := by exact_mod_cast hlog
  have hexponent := lt_of_two_zpow_lt hlt
  omega

/-- The leading digit of a decimal that is not too small. -/
theorem neg_400_le_lead : -400 ≤ -(k : Int) + Binary.digitCount digits := by
  refine not_lt.mp fun hlead => ?_
  have hten : (0 : ℚ) < 10 ^ k := by positivity
  have hcount : (digits : ℚ) < 10 ^ Binary.digitCount digits := by
    exact_mod_cast Binary.lt_pow_digitCount digits
  have hmore : 10 ^ (Binary.digitCount digits + 400) ≤ (10 : ℚ) ^ k :=
    pow_le_pow_right₀ (by norm_num) (by omega)
  have hcut : (10 : ℚ) ^ k < 10 ^ Binary.digitCount digits * 2 ^ (1075 : Int) := by
    have hlow := (le_div_iff₀ hten).mp hlow
    rw [zpow_neg, inv_mul_le_iff₀ (two_zpow_pos _), mul_comm] at hlow
    exact hlow.trans_lt (mul_lt_mul_of_pos_right hcount (two_zpow_pos _))
  have hlt : (10 : ℚ) ^ 400 < 2 ^ (1075 : Int) := by
    refine lt_of_mul_lt_mul_left ?_ (by positivity : (0 : ℚ) ≤ 10 ^ Binary.digitCount digits)
    rw [← pow_add]
    exact hmore.trans_lt hcut
  have hlt : 10 ^ 400 < 2 ^ 1075 := by exact_mod_cast hlt
  revert hlt
  decide +kernel

end

/-- The leading digit of a decimal that is not too large. -/
theorem lead_le_400 {digits k : Nat} (hdigits : 0 < digits)
    (hhigh : (digits : ℚ) / 10 ^ k < 2 ^ (1024 : Int)) :
    -(k : Int) + Binary.digitCount digits ≤ 400 := by
  refine not_lt.mp fun hlead => ?_
  have hten : (0 : ℚ) < 10 ^ k := by positivity
  have hcount : (10 : ℚ) ^ (Binary.digitCount digits - 1) ≤ digits := by
    exact_mod_cast Binary.pow_digitCount_le hdigits
  have hmore : (10 : ℚ) ^ (400 + k) ≤ 10 ^ (Binary.digitCount digits - 1) :=
    pow_le_pow_right₀ (by norm_num) (by omega)
  have hlt : (10 : ℚ) ^ 400 < 2 ^ (1024 : Int) := by
    refine lt_of_mul_lt_mul_right ?_ hten.le
    rw [← pow_add]
    exact (hmore.trans hcount).trans_lt ((div_lt_iff₀ hten).mp hhigh)
  have hlt : 10 ^ 400 < 2 ^ 1024 := by exact_mod_cast hlt
  revert hlt
  decide +kernel

/-- A decimal is read as the float that it is nearest to. -/
theorem nearestFloat_nearest {digits k : Nat} (hk : 0 < k) (hpos : 0 < mantissa)
    (hcanonical : Canonical .binary64 (.finite .positive mantissa exponent hpos))
    (hfull : Full .binary64 (.finite .positive mantissa exponent hpos)) (hmax : exponent ≤ 971)
    (h : Nearest .binary64 mantissa exponent (digits / 10 ^ k)) :
    Toml.nearestFloat digits (-k) = ofUnpacked (.finite .positive mantissa exponent hpos) := by
  obtain ⟨hlow, hhigh⟩ := h.range hpos hcanonical.1 hcanonical.2 hmax
  have hdigits : 0 < digits := by
    refine Nat.pos_of_ne_zero fun hzero => ?_
    rw [hzero, Nat.cast_zero, zero_div] at hlow
    exact absurd hlow (not_le.mpr (two_zpow_pos _))
  have hsmall := not_lt.mpr (neg_400_le_lead hlow)
  have hscientific := ofScientific_nearest hdigits hk (le_log2_of_le hlow) hpos
    (targetExponent_of_full hcanonical hfull) h
  unfold Toml.nearestFloat
  dsimp only
  rw [if_neg (not_or.mpr ⟨Nat.ne_of_gt hdigits, hsmall⟩),
    if_neg (not_lt.mpr (lead_le_400 hdigits hhigh)), decide_eq_true (by omega : -(k : Int) < 0),
    Int.natAbs_neg, Int.natAbs_natCast]
  exact hscientific

/-- What is nearby in quarters is nearest in the format. -/
theorem Binary.Nearby.nearest {v : Binary} {r : ℚ} (h : v.Nearby r)
    (hbelow : v.mantissa = 2 ^ 52 → -1074 < v.exponent → v.nearBelow = true) :
    Nearest .binary64 v.mantissa v.exponent r := by
  have hquarter : (2 : ℚ) ^ v.exponent = 4 * 2 ^ (v.exponent - 2) := by
    rw [zpow_sub₀ two_ne_zero]
    norm_num
    ring
  have hlow : ((v.mantissa : ℚ) - 1 / 2) * 2 ^ v.exponent =
      (4 * v.mantissa - 2) * 2 ^ (v.exponent - 2) := by
    rw [hquarter]
    ring
  have hhigh : ((v.mantissa : ℚ) + 1 / 2) * 2 ^ v.exponent =
      (4 * v.mantissa + 2) * 2 ^ (v.exponent - 2) := by
    rw [hquarter]
    ring
  have hnear : ((v.mantissa : ℚ) - 1 / 4) * 2 ^ v.exponent =
      (4 * v.mantissa - 1) * 2 ^ (v.exponent - 2) := by
    rw [hquarter]
    ring
  have hleast : Format.binary64.minExponent = -1074 := by decide
  refine ⟨hlow ▸ h.low, hhigh ▸ h.high, fun hodd => hlow ▸ hhigh ▸ h.odd hodd, fun hm he => ?_⟩
  rw [hnear]
  exact h.below (hbelow hm (hleast ▸ he))

theorem denotes (x : Float) :
    Denotes (if (Binary.decode binary64 x.toBits.toNat).1 then .negative else .positive)
      (unpacked x) (Binary.decode binary64 x.toBits.toNat).2 := denotes_unpack x.toBits.toBitVec

theorem inFormat_decode {x : Float} {v : Binary}
    (h : (Binary.decode binary64 x.toBits.toNat).2 = .finite v) : v.InFormat := by
  have hdenotes := denotes x
  rw [h] at hdenotes
  obtain ⟨hpos, hx, hnear⟩ := hdenotes
  have hcanonical : Canonical .binary64 (unpacked x) := canonical x
  rw [hx] at hcanonical
  exact ⟨hpos, hcanonical.1, fun hbelow => (hnear.mp hbelow).1.le⟩

/-- The shortest decimal of a float is read back as its magnitude, which is finite. -/
theorem nearestFloat_shortest {x : Float} {v : Binary}
    (h : (Binary.decode binary64 x.toBits.toNat).2 = .finite v) (tie : Tie) {digits k : Nat}
    (hk : 0 < k) (hvalue : (digits : ℚ) / 10 ^ k = (v.shortest tie).value) :
    let magnitude := Toml.nearestFloat digits (-k)
    (if (Binary.decode binary64 x.toBits.toNat).1 then -magnitude else magnitude) = x ∧
      (x == 1 / 0) = false := by
  have hformat := inFormat_decode h
  have hdenotes := denotes x
  rw [h] at hdenotes
  generalize (Binary.decode binary64 x.toBits.toNat).1 = negative at hdenotes ⊢
  obtain ⟨hpos, hx, hnear⟩ := hdenotes
  have hcanonical : Canonical .binary64 (unpacked x) := canonical x
  have hfull : Full .binary64 (unpacked x) := full_unpack _
  have hmax : v.exponent + 1023 + 52 + 1 < 2048 := exponent_lt_of_unpack (by decide) hx
  have hmax : v.exponent ≤ 971 := by omega
  have hself := ofUnpacked_unpacked x
  rw [hx] at hcanonical hfull hself
  have hnearest := (Binary.shortest_nearby hformat tie).nearest fun hm he => hnear.mpr ⟨hm, he⟩
  rw [← hvalue] at hnearest
  have hmagnitude := nearestFloat_nearest hk hpos hcanonical hfull hmax hnearest
  refine ⟨?_, ?_⟩
  · rw [hmagnitude, ← hself]
    cases negative with
    | false => rfl
    | true =>
      have hunpacked : unpacked (ofUnpacked (.finite .positive v.mantissa v.exponent hpos) : Float) =
          .finite .positive v.mantissa v.exponent hpos :=
        unpacked_ofUnpacked_full hcanonical hfull hmax
      change ofUnpacked (UnpackedFloat.neg (unpacked (ofUnpacked _ : Float))) = _
      rw [hunpacked]
      rfl
  · have hinfinity : unpacked (1 / 0 : Float) = .infinity .positive := by rfl
    rw [← Bool.not_eq_true, beq_iff, hx, hinfinity]
    cases negative <;> exact nofun

end OnlineLearning
