import OnlineLearning.Proofs.Widening

/-!
# Rounding to the nearest number

A mantissa with what was cut off it stands for a range of rationals. Shifts keep the rational that is
meant, and in the end it is rounded to the number that it is nearest to.

* `Approximates`: the rationals that an extended mantissa stands for;
* `Nearest`: the rationals that are rounded to a number;
* `roundWithAccuracy_nearest` and `div_nearest`: rounding and division give this number.
-/

namespace OnlineLearning

open Float.Model (Format UnpackedFloat totalExponent)
open Float.Model.UnpackedFloat

/-! ## Extended mantissas -/

/-- A rational that an extended mantissa may have been cut off: the mantissa itself, or something
between it and the next half, that half, or something between this half and the next mantissa. -/
def Approximates (em : ExtendedMantissa) (q : ℚ) : Prop :=
  match em.roundBit, em.stickyBit with
  | false, false => q = em.mantissa
  | false, true => (em.mantissa : ℚ) < q ∧ q < em.mantissa + 1 / 2
  | true, false => q = em.mantissa + 1 / 2
  | true, true => (em.mantissa : ℚ) + 1 / 2 < q ∧ q < em.mantissa + 1

variable {em : ExtendedMantissa} {q : ℚ}

theorem Approximates.mantissa_le (h : Approximates em q) : (em.mantissa : ℚ) ≤ q := by
  obtain ⟨mantissa, roundBit, stickyBit⟩ := em
  cases roundBit <;> cases stickyBit <;> simp only [Approximates] at h <;> linarith

theorem Approximates.lt_mantissa (h : Approximates em q) : q < em.mantissa + 1 := by
  obtain ⟨mantissa, roundBit, stickyBit⟩ := em
  cases roundBit <;> cases stickyBit <;> simp only [Approximates] at h <;> linarith

theorem Approximates.shiftRightOne (h : Approximates em q) :
    Approximates em.shiftRightOne (q / 2) := by
  obtain ⟨mantissa, roundBit, stickyBit⟩ := em
  obtain ⟨half, rfl | rfl⟩ : ∃ half, mantissa = 2 * half ∨ mantissa = 2 * half + 1 :=
    ⟨mantissa / 2, by omega⟩
  · have hhalf : 2 * half / 2 = half := by omega
    have hbit : (2 * half % 2 != 0) = false := by simp
    cases roundBit <;> cases stickyBit <;>
      simp only [Approximates, ExtendedMantissa.shiftRightOne, hhalf, hbit, Nat.cast_mul,
        Nat.cast_ofNat, Bool.or_false, Bool.or_true] at h ⊢
    · linarith
    · constructor <;> linarith
    · constructor <;> linarith
    · constructor <;> linarith
  · have hhalf : (2 * half + 1) / 2 = half := by omega
    have hbit : ((2 * half + 1) % 2 != 0) = true := by simp
    cases roundBit <;> cases stickyBit <;>
      simp only [Approximates, ExtendedMantissa.shiftRightOne, hhalf, hbit, Nat.cast_mul,
        Nat.cast_add, Nat.cast_ofNat, Nat.cast_one, Bool.or_false, Bool.or_true] at h ⊢
    · linarith
    · constructor <;> linarith
    · constructor <;> linarith
    · constructor <;> linarith

theorem Approximates.shiftRight (h : Approximates em q) (n : Nat) :
    Approximates (em >>> n) (q / 2 ^ n) := by
  change Approximates (n.repeat ExtendedMantissa.shiftRightOne em) _
  induction n with
  | zero => simpa [Nat.repeat] using h
  | succ n ih =>
    rw [Nat.repeat, pow_succ, ← div_div]
    exact ih.shiftRightOne

/-- A rational is rounded to the mantissa that is at most a half away from it, to an even one if
two are. -/
theorem Approximates.roundedMantissa_eq (h : Approximates em q) {n : Nat} (hlow : n - 1 / 2 ≤ q)
    (hhigh : q ≤ n + 1 / 2) (hodd : n % 2 = 1 → n - 1 / 2 < q ∧ q < n + 1 / 2) :
    em.roundedMantissa = n := by
  obtain ⟨mantissa, roundBit, stickyBit⟩ := em
  have hcast (a b : Nat) (hab : (a : ℚ) < b + 1) : a ≤ b := by
    have hab : ((a : ℚ)) < ((b + 1 : Nat) : ℚ) := by exact_mod_cast hab
    exact Nat.lt_succ_iff.mp (Nat.cast_lt.mp hab)
  cases roundBit <;> cases stickyBit <;> simp only [Approximates] at h
  · change mantissa = n
    exact Nat.le_antisymm (hcast _ _ (by linarith)) (hcast _ _ (by linarith))
  · change mantissa = n
    exact Nat.le_antisymm (hcast _ _ (by linarith)) (hcast _ _ (by linarith))
  · change mantissa + mantissa % 2 = n
    have hle : mantissa ≤ n := hcast _ _ (by linarith)
    have hge : n ≤ mantissa + 1 := hcast _ _ (by push_cast; linarith)
    -- halfway between two mantissas the even one is taken
    rcases Nat.mod_two_eq_zero_or_one n with heven | hodd'
    · omega
    · obtain ⟨hlow, hhigh⟩ := hodd hodd'
      have hlt : n < mantissa + 1 := by
        have : (n : ℚ) < ((mantissa + 1 : Nat) : ℚ) := by push_cast; linarith
        exact Nat.cast_lt.mp this
      have hgt : mantissa < n := by
        have : (mantissa : ℚ) < n := by linarith
        exact Nat.cast_lt.mp this
      omega
  · change mantissa + 1 = n
    have hle : mantissa + 1 ≤ n := hcast _ _ (by push_cast; linarith)
    have hge : n ≤ mantissa + 1 := hcast _ _ (by push_cast; linarith)
    omega

theorem approximates_exact (mantissa : Nat) :
    Approximates (.ofMantissaAndAccuracy mantissa .exact) mantissa := rfl

/-- A quotient with what is left over. -/
theorem approximates_quotient (dividend : Nat) {divisor : Nat} (hdivisor : 0 < divisor) :
    Approximates (.ofMantissaAndAccuracy (dividend / divisor)
      (accuracyOfFraction (dividend % divisor) divisor)) (dividend / divisor) := by
  have hpos : (0 : ℚ) < divisor := Nat.cast_pos.mpr hdivisor
  have hrest : dividend % divisor < divisor := Nat.mod_lt _ hdivisor
  have hsplit : (dividend : ℚ) / divisor =
      (dividend / divisor : Nat) + (dividend % divisor : Nat) / divisor := by
    rw [div_eq_iff hpos.ne', add_mul, div_mul_cancel₀ _ hpos.ne']
    exact_mod_cast (Nat.div_add_mod' dividend divisor).symm
  generalize dividend / divisor = quotient at hsplit ⊢
  generalize dividend % divisor = rest at hsplit hrest ⊢
  rw [hsplit]
  have hless : (rest : ℚ) / divisor < 1 := by
    rw [div_lt_one hpos]
    exact Nat.cast_lt.mpr hrest
  unfold accuracyOfFraction
  split
  · rename_i hzero
    rw [hzero, Nat.cast_zero, zero_div, add_zero]
    exact approximates_exact quotient
  · rename_i hzero
    have hmore : 0 < (rest : ℚ) / divisor :=
      div_pos (Nat.cast_pos.mpr (Nat.pos_of_ne_zero hzero)) hpos
    have hhalf : (rest : ℚ) / divisor < 1 / 2 ↔ 2 * rest < divisor := by
      rw [div_lt_div_iff₀ hpos two_pos, one_mul, mul_comm]
      exact_mod_cast Iff.rfl
    have hhalf' : 1 / 2 < (rest : ℚ) / divisor ↔ divisor < 2 * rest := by
      rw [div_lt_div_iff₀ two_pos hpos, one_mul, mul_comm]
      exact_mod_cast Iff.rfl
    cases hcompare : compare (2 * rest) divisor with
    | lt =>
      have := hhalf.mpr (Nat.compare_eq_lt.mp hcompare)
      constructor <;> simp only [ExtendedMantissa.ofMantissaAndAccuracy] <;> linarith
    | eq =>
      have hequal := Nat.compare_eq_eq.mp hcompare
      have hequal : (rest : ℚ) / divisor = 1 / 2 := by
        rw [← hequal]
        push_cast
        have : (rest : ℚ) ≠ 0 := Nat.cast_ne_zero.mpr hzero
        field_simp
      rw [hequal]
      rfl
    | gt =>
      have := hhalf'.mpr (Nat.compare_eq_gt.mp hcompare)
      constructor <;> simp only [ExtendedMantissa.ofMantissaAndAccuracy] <;> linarith

/-! ## Rounding -/

variable {spec : Format} {mantissa : Nat} {exponent : Int}

/-- A rational that is nearer to `mantissa * 2 ^ exponent` than to any other number of the format, or
as near, if the mantissa is even. The distance to the number below is half as long for the least
mantissa. -/
structure Nearest (spec : Format) (mantissa : Nat) (exponent : Int) (r : ℚ) : Prop where
  low : (mantissa - 1 / 2) * 2 ^ exponent ≤ r
  high : r ≤ (mantissa + 1 / 2) * 2 ^ exponent
  odd : mantissa % 2 = 1 →
    (mantissa - 1 / 2) * 2 ^ exponent < r ∧ r < (mantissa + 1 / 2) * 2 ^ exponent
  below : mantissa = 2 ^ spec.mantissaBitsWithoutImplicit → spec.minExponent < exponent →
    (mantissa - 1 / 4) * 2 ^ exponent ≤ r

theorem two_zpow_pos (n : Int) : (0 : ℚ) < 2 ^ n := zpow_pos two_pos n

theorem lt_of_two_zpow_lt {a b : Int} (h : (2 : ℚ) ^ a < 2 ^ b) : a < b :=
  (zpow_lt_zpow_iff_right₀ one_lt_two).mp h

/-- A mantissa lies between two powers of two. -/
theorem two_zpow_le_mantissa (hpos : 0 < mantissa) (exponent : Int) :
    (2 : ℚ) ^ (totalExponent mantissa exponent - 1) ≤ mantissa * 2 ^ exponent := by
  have hlog : ((2 : ℚ)) ^ mantissa.log2 ≤ mantissa := by
    exact_mod_cast Nat.log2_self_le (Nat.ne_of_gt hpos)
  have hsplit : totalExponent mantissa exponent - 1 = mantissa.log2 + exponent := by
    unfold totalExponent
    omega
  rw [hsplit, zpow_add₀ two_ne_zero, zpow_natCast]
  exact mul_le_mul_of_nonneg_right hlog (two_zpow_pos _).le

theorem mantissa_le_two_zpow (mantissa : Nat) (exponent : Int) :
    ((mantissa : ℚ) + 1) * 2 ^ exponent ≤ 2 ^ totalExponent mantissa exponent := by
  have hlog : (mantissa : ℚ) + 1 ≤ 2 ^ (mantissa.log2 + 1) := by
    exact_mod_cast (Nat.lt_log2_self : mantissa < _)
  have hsplit : totalExponent mantissa exponent = (mantissa.log2 + 1 : Nat) + exponent := by
    unfold totalExponent
    omega
  rw [hsplit, zpow_add₀ two_ne_zero, zpow_natCast]
  exact mul_le_mul_of_nonneg_right hlog (two_zpow_pos _).le

/-- What is less than the least number is cut to the least exponent. -/
theorem targetExponent_zero (hpos : 0 < mantissa) (hleast : spec.minExponent ≤ exponent)
    {start : Int} (hstart : start ≤ spec.targetExponent (totalExponent 0 start)) (hlt : q < 1)
    (h : Nearest spec mantissa exponent (q * 2 ^ start)) :
    spec.targetExponent (totalExponent 0 start) = exponent := by
  have hbits : spec.mantissaBits = 1 + spec.mantissaBitsWithoutImplicit := rfl
  have hm := spec.hm
  have hone : (1 : ℚ) ≤ mantissa := by exact_mod_cast hpos
  have htotal : totalExponent 0 start = 1 + start := by
    simp [totalExponent, Nat.log2_zero]
  have hcut : spec.targetExponent (totalExponent 0 start) = spec.minExponent ∧
      start ≤ spec.minExponent := by
    rw [htotal] at hstart ⊢
    unfold Format.targetExponent at hstart ⊢
    omega
  have hsmall : q * 2 ^ start < 2 ^ spec.minExponent :=
    (mul_lt_of_lt_one_left (two_zpow_pos start) hlt).trans_le
      (zpow_le_zpow_right₀ one_le_two hcut.2)
  have hhalf : (2 : ℚ) ^ (exponent - 1) < 2 ^ spec.minExponent := by
    rw [zpow_sub_one₀ two_ne_zero]
    nlinarith [h.low, two_zpow_pos exponent]
  have hexponent := lt_of_two_zpow_lt hhalf
  omega

/-- What is nearest to a number has as many bits, or one bit less and is below it. -/
theorem totalExponent_nearest (hpos : 0 < mantissa) {first : Nat} (hfirst : 0 < first) {start : Int}
    (hle : (first : ℚ) ≤ q) (hlt : q < first + 1)
    (h : Nearest spec mantissa exponent (q * 2 ^ start)) :
    totalExponent first start = totalExponent mantissa exponent ∨
      totalExponent first start = totalExponent mantissa exponent - 1 ∧
        q * 2 ^ start < 2 ^ (totalExponent mantissa exponent - 1) := by
  have hone : (1 : ℚ) ≤ mantissa := by exact_mod_cast hpos
  have hunit := two_zpow_pos exponent
  have hupper : q * 2 ^ start < 2 ^ totalExponent first start :=
    (mul_lt_mul_of_pos_right hlt (two_zpow_pos start)).trans_le (mantissa_le_two_zpow first start)
  have hlower : (2 : ℚ) ^ (totalExponent first start - 1) ≤ q * 2 ^ start :=
    (two_zpow_le_mantissa hfirst start).trans
      (mul_le_mul_of_nonneg_right hle (two_zpow_pos start).le)
  have hlower' := two_zpow_le_mantissa hpos exponent
  have hupper' := mantissa_le_two_zpow mantissa exponent
  have hless : totalExponent first start - 1 < totalExponent mantissa exponent := by
    refine lt_of_two_zpow_lt (hlower.trans_lt (h.high.trans_lt (lt_of_lt_of_le ?_ hupper')))
    nlinarith
  have hmore : totalExponent mantissa exponent - 1 - 1 < totalExponent first start := by
    refine lt_of_two_zpow_lt (lt_of_le_of_lt ?_ hupper)
    rw [zpow_sub_one₀ two_ne_zero]
    nlinarith [h.low]
  by_cases hsame : totalExponent first start = totalExponent mantissa exponent
  · exact .inl hsame
  · have hnext : totalExponent first start = totalExponent mantissa exponent - 1 := by omega
    exact .inr ⟨hnext, hnext ▸ hupper⟩

/-- Half a unit below a mantissa there are as many bits, unless it is the least one with its bits. -/
theorem eq_two_pow_log2 (hpos : 0 < mantissa)
    (h : ((mantissa : ℚ) - 1 / 2) * 2 ^ exponent < 2 ^ (totalExponent mantissa exponent - 1)) :
    mantissa = 2 ^ mantissa.log2 := by
  have hge : 2 ^ mantissa.log2 ≤ mantissa := Nat.log2_self_le (Nat.ne_of_gt hpos)
  refine (Nat.le_antisymm hge (Nat.not_lt.mp fun hgt => ?_)).symm
  have hgt : (2 : ℚ) ^ mantissa.log2 + 1 ≤ mantissa := by exact_mod_cast hgt
  have hsplit : totalExponent mantissa exponent - 1 = (mantissa.log2 : Nat) + exponent := by
    unfold totalExponent
    omega
  rw [hsplit, zpow_add₀ two_ne_zero, zpow_natCast] at h
  have hless := lt_of_mul_lt_mul_right h (two_zpow_pos exponent).le
  linarith

/-- The mantissa of an approximation is cut to the exponent of the number that it is nearest to, but
for one case: below the least mantissa the exponent is one less. -/
theorem targetExponent_nearest (hpos : 0 < mantissa)
    (htarget : spec.targetExponent (totalExponent mantissa exponent) = exponent) {first : Nat}
    {start : Int} (hstart : start ≤ spec.targetExponent (totalExponent first start))
    (hle : (first : ℚ) ≤ q) (hlt : q < first + 1)
    (h : Nearest spec mantissa exponent (q * 2 ^ start)) :
    spec.targetExponent (totalExponent first start) = exponent ∨
      spec.targetExponent (totalExponent first start) = -1 + exponent ∧
        mantissa = 2 ^ spec.mantissaBitsWithoutImplicit ∧ spec.minExponent < exponent ∧
        q * 2 ^ start < mantissa * 2 ^ exponent := by
  have hbits : spec.mantissaBits = 1 + spec.mantissaBitsWithoutImplicit := rfl
  rcases Nat.eq_zero_or_pos first with rfl | hfirst
  · have hleast : spec.minExponent ≤ exponent := htarget ▸ Int.le_max_right _ _
    exact .inl (targetExponent_zero hpos hleast hstart (by simpa using hlt) h)
  rcases totalExponent_nearest hpos hfirst hle hlt h with hsame | ⟨hnext, hless⟩
  · exact .inl (hsame ▸ htarget)
  have hsmall := hless.trans_le (two_zpow_le_mantissa hpos exponent)
  have hmantissa := eq_two_pow_log2 hpos (h.low.trans_lt hless)
  rw [hnext]
  by_cases hmin : totalExponent mantissa exponent - spec.mantissaBits ≤ spec.minExponent
  · left
    unfold Format.targetExponent at htarget ⊢
    omega
  · right
    have hlog : mantissa.log2 = spec.mantissaBitsWithoutImplicit := by
      unfold Format.targetExponent totalExponent at htarget
      unfold totalExponent at hmin
      omega
    rw [hlog] at hmantissa
    refine ⟨?_, hmantissa, ?_, hsmall⟩
    · unfold Format.targetExponent at htarget ⊢
      omega
    · unfold Format.targetExponent at htarget
      omega

/-- The first cut of an approximation is rounded to the mantissa of the number, with a zero behind it
in that one case. -/
theorem shiftToTargetExponent_nearest (hpos : 0 < mantissa)
    (htarget : spec.targetExponent (totalExponent mantissa exponent) = exponent) {first : Nat}
    {start : Int} {accuracy : Accuracy}
    (happrox : Approximates (.ofMantissaAndAccuracy first accuracy) q)
    (hstart : start ≤ spec.targetExponent (totalExponent first start))
    (h : Nearest spec mantissa exponent (q * 2 ^ start)) :
    ∃ (shifted : ExtendedMantissa) (n : Nat),
      shiftToTargetExponent spec first start accuracy = (shifted, -n + exponent) ∧
        shifted.roundedMantissa = 2 ^ n * mantissa := by
  have hfirst : (ExtendedMantissa.ofMantissaAndAccuracy first accuracy).mantissa = first := by
    unfold ExtendedMantissa.ofMantissaAndAccuracy
    split <;> rfl
  have hcases := targetExponent_nearest hpos htarget hstart (hfirst ▸ happrox.mantissa_le)
    (hfirst ▸ happrox.lt_mantissa) h
  unfold shiftToTargetExponent shiftToExponent
  generalize spec.targetExponent (totalExponent first start) = target at hstart hcases ⊢
  obtain ⟨n, hn⟩ := Int.eq_ofNat_of_zero_le (Int.sub_nonneg_of_le hstart)
  have hshifted := happrox.shiftRight n
  have hvalue : q / 2 ^ n * 2 ^ target = q * 2 ^ start := by
    have hsplit : target = n + start := by omega
    rw [hsplit, zpow_add₀ two_ne_zero, zpow_natCast, ← mul_assoc,
      div_mul_cancel₀ _ (pow_ne_zero n two_ne_zero)]
  have hend : start + n = target := by omega
  have hshift : (target - start).toNat = n := by omega
  dsimp only
  rw [hshift, hend]
  generalize ExtendedMantissa.ofMantissaAndAccuracy first accuracy >>> n = shifted at hshifted ⊢
  generalize q / 2 ^ n = cut at hshifted hvalue
  rw [← hvalue] at h hcases
  have hunit := two_zpow_pos exponent
  rcases hcases with rfl | ⟨rfl, hleast, hmin, hless⟩
  · refine ⟨shifted, 0, by simp, ?_⟩
    rw [pow_zero, one_mul]
    exact hshifted.roundedMantissa_eq (le_of_mul_le_mul_right h.low hunit)
      (le_of_mul_le_mul_right h.high hunit) fun hodd =>
        ⟨lt_of_mul_lt_mul_right (h.odd hodd).1 hunit.le,
          lt_of_mul_lt_mul_right (h.odd hodd).2 hunit.le⟩
  · have hhalf : (2 : ℚ) ^ (-1 + exponent) = 2 ^ exponent / 2 := by
      rw [zpow_add₀ two_ne_zero, zpow_neg_one, inv_mul_eq_div]
    have hbelow := h.below hleast hmin
    rw [hhalf] at hless hbelow
    refine ⟨shifted, 1, rfl, hshifted.roundedMantissa_eq ?_ ?_ fun hodd => ?_⟩
    · push_cast
      nlinarith
    · push_cast
      nlinarith
    · omega

/-- What approximates a rational is rounded to the number that the rational is nearest to. -/
theorem roundWithAccuracy_nearest (sign : Sign) (hpos : 0 < mantissa)
    (htarget : spec.targetExponent (totalExponent mantissa exponent) = exponent) {first : Nat}
    {start : Int} {accuracy : Accuracy}
    (happrox : Approximates (.ofMantissaAndAccuracy first accuracy) q)
    (hstart : start ≤ spec.targetExponent (totalExponent first start))
    (h : Nearest spec mantissa exponent (q * 2 ^ start)) :
    roundWithAccuracy spec sign first start accuracy = .finite sign mantissa exponent hpos := by
  obtain ⟨shifted, n, hcut, hrounded⟩ :=
    shiftToTargetExponent_nearest hpos htarget happrox hstart h
  have hkept := shiftToTargetExponent_exact hpos htarget n
  unfold roundWithAccuracy
  rw [hcut]
  dsimp only
  rw [hrounded, hkept]
  exact dif_neg (Nat.ne_of_gt hpos)

/-- A quotient has at least the bits that its dividend has more than its divisor. -/
theorem totalExponent_quotient_le {dividend divisor : Nat} (hdividend : 0 < dividend)
    (hdivisor : 0 < divisor) (n : Nat) (start : Int) :
    (dividend.log2 : Int) + n - divisor.log2 + start ≤
      totalExponent (dividend * 2 ^ n / divisor) start := by
  unfold totalExponent
  by_cases hfew : dividend.log2 + n ≤ divisor.log2
  · omega
  · have hlower : 2 ^ (dividend.log2 + n - divisor.log2 - 1) ≤ dividend * 2 ^ n / divisor := by
      rw [Nat.le_div_iff_mul_le hdivisor]
      have hsplit : dividend.log2 + n =
          dividend.log2 + n - divisor.log2 - 1 + (divisor.log2 + 1) := by omega
      calc 2 ^ (dividend.log2 + n - divisor.log2 - 1) * divisor
          ≤ 2 ^ (dividend.log2 + n - divisor.log2 - 1) * 2 ^ (divisor.log2 + 1) :=
            Nat.mul_le_mul_left _ Nat.lt_log2_self.le
        _ = 2 ^ (dividend.log2 + n) := by rw [← Nat.pow_add, ← hsplit]
        _ ≤ dividend * 2 ^ n := by
            rw [Nat.pow_add]
            exact Nat.mul_le_mul_right _ (Nat.log2_self_le (Nat.ne_of_gt hdividend))
    have hpos := Nat.lt_of_lt_of_le (Nat.two_pow_pos _) hlower
    have := (Nat.le_log2 (Nat.ne_of_gt hpos)).mpr hlower
    omega

/-- A quotient is rounded to the number that it is nearest to. -/
theorem div_nearest (hpos : 0 < mantissa)
    (htarget : spec.targetExponent (totalExponent mantissa exponent) = exponent)
    (sign sign' : Sign) {dividend divisor : Nat} {e e' : Int} (hdividend : 0 < dividend)
    (hdivisor : 0 < divisor)
    (h : Nearest spec mantissa exponent (dividend * 2 ^ e / (divisor * 2 ^ e'))) :
    UnpackedFloat.div spec (.finite sign dividend e hdividend)
      (.finite sign' divisor e' hdivisor) = .finite (sign / sign') mantissa exponent hpos := by
  unfold UnpackedFloat.div divCore
  dsimp only
  generalize htotal : totalExponent dividend e - totalExponent divisor e' = total
  generalize hstart : min (e - e') (spec.targetExponent total) = start
  obtain ⟨n, hn⟩ : ∃ n : Nat, (e - e' - start) = n := Int.eq_ofNat_of_zero_le (by omega)
  have hshift : (e - e' - start).toNat = n := by omega
  rw [hshift, Nat.shiftLeft_eq]
  have happrox := approximates_quotient (dividend * 2 ^ n) hdivisor
  refine roundWithAccuracy_nearest _ hpos htarget happrox ?_ ?_
  · have hmore := totalExponent_quotient_le hdividend hdivisor n start
    have hless : total ≤ totalExponent (dividend * 2 ^ n / divisor) start := by
      unfold totalExponent at htotal
      omega
    unfold Format.targetExponent at hstart ⊢
    omega
  · have hvalue : ((dividend * 2 ^ n : Nat) : ℚ) / divisor * 2 ^ start =
        dividend * 2 ^ e / (divisor * 2 ^ e') := by
      have hsplit : e = n + start + e' := by omega
      have hunit := (two_zpow_pos e').ne'
      have hdivisor : (divisor : ℚ) ≠ 0 := Nat.cast_ne_zero.mpr (Nat.ne_of_gt hdivisor)
      rw [hsplit, zpow_add₀ two_ne_zero, zpow_add₀ two_ne_zero, zpow_natCast]
      push_cast
      field_simp
    rwa [hvalue]

end OnlineLearning
