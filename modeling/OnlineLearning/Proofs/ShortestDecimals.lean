import OnlineLearning.Decimal.Layout
import OnlineLearning.Proofs.Nearest

/-!
# Shortest decimals are read back

The decimal that is written of a floating-point number is nearer to it than to any other number, so
that rounding brings the number back.

* `Binary.Nearby`: the decimals around a binary number, with `Decimal.value` of a decimal;
* `Binary.nearby_of_onGrid?`: what is found on a grid is nearby;
* `Binary.hits_seventeen`: something is found on the grid of seventeen digits;
* `Binary.shortest_nearby`: the two together.
-/

namespace OnlineLearning

def Decimal.value (d : Decimal) : ℚ := d.digits * 10 ^ d.exponent

namespace Binary

/-! ## Leading digits -/

theorem lt_pow_digitCount (n : Nat) : n < 10 ^ digitCount n := by
  induction n using Nat.strongRecOn with
  | ind n ih =>
    rw [digitCount]
    split
    · omega
    · have := ih (n / 10) (by omega)
      rw [Nat.pow_succ]
      omega

theorem pow_digitCount_le {n : Nat} (hpos : 0 < n) : 10 ^ (digitCount n - 1) ≤ n := by
  induction n using Nat.strongRecOn with
  | ind n ih =>
    rw [digitCount, if_neg (Nat.ne_of_gt hpos), Nat.add_sub_cancel]
    by_cases hten : n < 10
    · rw [Nat.div_eq_of_lt hten, digitCount, if_pos rfl]
      omega
    · have hdiv : 0 < n / 10 := by omega
      have hcount : digitCount (n / 10) = digitCount (n / 10) - 1 + 1 := by
        rw [digitCount, if_neg (Nat.ne_of_gt hdiv)]
        rfl
      have := ih (n / 10) (by omega) hdiv
      rw [hcount, Nat.pow_succ]
      omega

/-- A quotient is not less than the power of ten of its leading digit. -/
theorem ten_zpow_leadingExponent_le {num den : Nat} (hnum : 0 < num) (hden : 0 < den) :
    (10 : ℚ) ^ leadingExponent num den ≤ num / den := by
  have hden' : (0 : ℚ) < den := Nat.cast_pos.mpr hden
  have hnum' : (0 : ℚ) < num := Nat.cast_pos.mpr hnum
  unfold leadingExponent
  split
  · rename_i hle
    have hpos : 0 < num / den := Nat.div_pos hle hden
    have hcount : (digitCount (num / den) : Int) - 1 = (digitCount (num / den) - 1 : Nat) := by
      rw [digitCount, if_neg (Nat.ne_of_gt hpos)]
      simp
    rw [hcount, zpow_natCast, le_div_iff₀ hden']
    have := Nat.mul_le_mul_right den (pow_digitCount_le hpos)
    exact_mod_cast this.trans (Nat.div_mul_le_self num den)
  · rw [zpow_neg, zpow_natCast, inv_le_comm₀ (by positivity) (div_pos hnum' hden'), inv_div,
      div_le_iff₀ hnum']
    have hlt := lt_pow_digitCount ((den + num - 1) / num - 1)
    have hup : den ≤ (den + num - 1) / num * num := by
      have := Nat.lt_div_mul_add (a := den + num - 1) hnum
      omega
    have hle : den ≤ 10 ^ digitCount ((den + num - 1) / num - 1) * num :=
      hup.trans (Nat.mul_le_mul_right _ (by omega))
    exact_mod_cast hle

/-! ## Grids -/

/-- The decimals that are read back as a number, counted in quarters of the distance between two
mantissas. -/
structure Nearby (v : Binary) (r : ℚ) : Prop where
  low : (4 * v.mantissa - 2) * 2 ^ (v.exponent - 2) ≤ r
  high : r ≤ (4 * v.mantissa + 2) * 2 ^ (v.exponent - 2)
  odd : v.mantissa % 2 = 1 → (4 * v.mantissa - 2) * 2 ^ (v.exponent - 2) < r ∧
    r < (4 * v.mantissa + 2) * 2 ^ (v.exponent - 2)
  below : v.nearBelow = true → (4 * v.mantissa - 1) * 2 ^ (v.exponent - 2) ≤ r

theorem power_pos {base : Nat} (hbase : 0 < base) (exponent : Int) : 0 < power base exponent :=
  Nat.pow_pos hbase

theorem power_div {base : Nat} (hbase : 0 < base) (exponent : Int) :
    (power base exponent : ℚ) / power base (-exponent) = base ^ exponent := by
  have hbase' : (base : ℚ) ≠ 0 := Nat.cast_ne_zero.mpr (Nat.ne_of_gt hbase)
  unfold power
  change ((base ^ exponent.toNat : Nat) : ℚ) / ((base ^ (-exponent).toNat : Nat) : ℚ) = _
  push_cast
  rw [← zpow_natCast, ← zpow_natCast, ← zpow_sub₀ hbase']
  congr 1
  omega

/-- The two factors that quarters and points of a grid are compared with, on a common scale. -/
theorem exists_scale (scale spacing : Int) :
    ∃ c : ℚ, 0 < c ∧
      ((power 2 scale * power 10 (-spacing) : Nat) : ℚ) = 2 ^ scale * c ∧
      ((power 2 (-scale) * power 10 spacing : Nat) : ℚ) = 10 ^ spacing * c := by
  have htwo : (0 : ℚ) < power 2 (-scale) := Nat.cast_pos.mpr (power_pos two_pos _)
  have hten : (0 : ℚ) < power 10 (-spacing) := Nat.cast_pos.mpr (power_pos (by decide) _)
  have hscale := (div_eq_iff htwo.ne').mp (power_div two_pos scale)
  have hspacing := (div_eq_iff hten.ne').mp (power_div (by decide : 0 < 10) spacing)
  refine ⟨power 2 (-scale) * power 10 (-spacing), mul_pos htwo hten, ?_, ?_⟩
  · push_cast at hscale ⊢
    rw [hscale]
    ring
  · push_cast at hspacing ⊢
    rw [hspacing]
    ring

variable {v : Binary} {tie : Tie} {n : Nat} {d : Decimal}

/-- The exponent of the last of `n` digits. -/
def lastExponent (v : Binary) (n : Nat) : Int :=
  leadingExponent (4 * v.mantissa * power 2 (v.exponent - 2)) (power 2 (-(v.exponent - 2))) - n + 1

/-- Whether a point of a grid is read back as the number. -/
def hits (v : Binary) (n k : Nat) : Bool :=
  let low := if v.nearBelow then 4 * v.mantissa - 1 else 4 * v.mantissa - 2
  let high := 4 * v.mantissa + 2
  let a := power 2 (v.exponent - 2) * power 10 (-v.lastExponent n)
  let b := power 2 (-(v.exponent - 2)) * power 10 (v.lastExponent n)
  if v.mantissa % 2 == 0 then low * a ≤ k * b && k * b ≤ high * a
  else low * a < k * b && k * b < high * a

/-- The point of the grid below a number. -/
def gridBelow (v : Binary) (n : Nat) : Nat :=
  4 * v.mantissa * (power 2 (v.exponent - 2) * power 10 (-v.lastExponent n)) /
    (power 2 (-(v.exponent - 2)) * power 10 (v.lastExponent n))

theorem onGrid?_eq (v : Binary) (tie : Tie) (n : Nat) :
    ∃ upward : Bool, v.onGrid? tie n =
      let pick (k : Nat) : Option Decimal :=
        if v.hits n k then some ⟨k, v.lastExponent n⟩ else none
      if upward then pick (v.gridBelow n + 1) <|> pick (v.gridBelow n)
      else pick (v.gridBelow n) <|> pick (v.gridBelow n + 1) :=
  ⟨_, rfl⟩

theorem hits_of_onGrid? (h : v.onGrid? tie n = some d) :
    d.exponent = v.lastExponent n ∧ v.hits n d.digits = true := by
  obtain ⟨upward, hgrid⟩ := onGrid?_eq v tie n
  rw [hgrid] at h
  dsimp only at h
  have hpick : ∀ k k', ((if v.hits n k then some (⟨k, v.lastExponent n⟩ : Decimal) else none) <|>
      if v.hits n k' then some ⟨k', v.lastExponent n⟩ else none) = some d →
      d.exponent = v.lastExponent n ∧ v.hits n d.digits = true := by
    intro k k' h
    split at h
    · rename_i hhits
      cases h
      exact ⟨rfl, hhits⟩
    · split at h
      · rename_i hhits
        cases h
        exact ⟨rfl, hhits⟩
      · cases h
  split at h
  · exact hpick _ _ h
  · exact hpick _ _ h

theorem isSome_onGrid? (h : v.hits n (v.gridBelow n) = true ∨ v.hits n (v.gridBelow n + 1) = true) :
    (v.onGrid? tie n).isSome = true := by
  obtain ⟨upward, hgrid⟩ := onGrid?_eq v tie n
  rw [hgrid]
  dsimp only
  rcases h with h | h <;> rw [if_pos h] <;> cases upward <;> simp

/-- The least quarters that are read back as a number. -/
def lowQuarters (v : Binary) : ℚ := if v.nearBelow then 4 * v.mantissa - 1 else 4 * v.mantissa - 2

theorem lowQuarters_bounds (v : Binary) :
    4 * (v.mantissa : ℚ) - 2 ≤ v.lowQuarters ∧ v.lowQuarters ≤ 4 * v.mantissa - 1 := by
  unfold lowQuarters
  split <;> constructor <;> linarith

theorem hits_iff (hpos : 0 < v.mantissa) (k : Nat) :
    v.hits n k = true ↔
      if v.mantissa % 2 = 0 then
        v.lowQuarters * 2 ^ (v.exponent - 2) ≤ (k : ℚ) * 10 ^ v.lastExponent n ∧
          (k : ℚ) * 10 ^ v.lastExponent n ≤ (4 * v.mantissa + 2) * 2 ^ (v.exponent - 2)
      else
        v.lowQuarters * 2 ^ (v.exponent - 2) < (k : ℚ) * 10 ^ v.lastExponent n ∧
          (k : ℚ) * 10 ^ v.lastExponent n < (4 * v.mantissa + 2) * 2 ^ (v.exponent - 2) := by
  have hlow : ((if v.nearBelow then 4 * v.mantissa - 1 else 4 * v.mantissa - 2 : Nat) : ℚ) =
      v.lowQuarters := by
    unfold lowQuarters
    split
    · rw [Nat.cast_sub (by omega)]
      push_cast
      rfl
    · rw [Nat.cast_sub (by omega)]
      push_cast
      rfl
  have hhigh : ((4 * v.mantissa + 2 : Nat) : ℚ) = 4 * v.mantissa + 2 := by push_cast; rfl
  rw [← hlow, ← hhigh]
  obtain ⟨c, hc, hquarters, hpoints⟩ := exists_scale (v.exponent - 2) (v.lastExponent n)
  unfold hits
  dsimp only
  generalize power 2 (v.exponent - 2) * power 10 (-v.lastExponent n) = a at hquarters ⊢
  generalize power 2 (-(v.exponent - 2)) * power 10 (v.lastExponent n) = b at hpoints ⊢
  generalize (if v.nearBelow then 4 * v.mantissa - 1 else 4 * v.mantissa - 2 : Nat) = low
  generalize 4 * v.mantissa + 2 = high
  have hquarters' (x : Nat) : ((x * a : Nat) : ℚ) = x * 2 ^ (v.exponent - 2) * c := by
    rw [Nat.cast_mul, hquarters, mul_assoc]
  have hpoints' : ((k * b : Nat) : ℚ) = k * 10 ^ v.lastExponent n * c := by
    rw [Nat.cast_mul, hpoints, mul_assoc]
  have hle (x : Nat) : x * a ≤ k * b ↔
      (x : ℚ) * 2 ^ (v.exponent - 2) ≤ k * 10 ^ v.lastExponent n := by
    rw [← Nat.cast_le (α := ℚ), hquarters', hpoints', mul_le_mul_iff_of_pos_right hc]
  have hge (x : Nat) : k * b ≤ x * a ↔
      (k : ℚ) * 10 ^ v.lastExponent n ≤ x * 2 ^ (v.exponent - 2) := by
    rw [← Nat.cast_le (α := ℚ), hquarters', hpoints', mul_le_mul_iff_of_pos_right hc]
  by_cases heven : v.mantissa % 2 = 0
  · rw [if_pos (beq_iff_eq.mpr heven), if_pos heven, Bool.and_eq_true, decide_eq_true_eq,
      decide_eq_true_eq, hle, hge]
  · rw [if_neg (fun h => heven (beq_iff_eq.mp h)), if_neg heven, Bool.and_eq_true,
      decide_eq_true_eq, decide_eq_true_eq, ← not_le, ← not_le, hge, hle, not_le, not_le]

/-- What is found on a grid is read back. -/
theorem nearby_of_onGrid? (hpos : 0 < v.mantissa) (h : v.onGrid? tie n = some d) :
    v.Nearby d.value := by
  obtain ⟨hexponent, hhits⟩ := hits_of_onGrid? h
  have hbounds := (hits_iff hpos d.digits).mp hhits
  rw [← hexponent] at hbounds
  change if v.mantissa % 2 = 0 then _ ≤ d.value ∧ d.value ≤ _ else _ < d.value ∧ d.value < _
    at hbounds
  have hunit := two_zpow_pos (v.exponent - 2)
  have hlow := mul_le_mul_of_nonneg_right v.lowQuarters_bounds.1 hunit.le
  have hbelow (hnear : v.nearBelow = true) : v.lowQuarters = 4 * v.mantissa - 1 := if_pos hnear
  split at hbounds
  · rename_i heven
    exact ⟨hlow.trans hbounds.1, hbounds.2, fun hodd => by omega,
      fun hnear => hbelow hnear ▸ hbounds.1⟩
  · exact ⟨hlow.trans hbounds.1.le, hbounds.2.le, fun _ => ⟨hlow.trans_lt hbounds.1, hbounds.2⟩,
      fun hnear => hbelow hnear ▸ hbounds.1.le⟩

/-! ## Seventeen digits -/

/-- A number of one of the formats. -/
def InFormat (v : Binary) : Prop :=
  0 < v.mantissa ∧ v.mantissa < 2 ^ 53 ∧ (v.nearBelow = true → v.mantissa ≤ 2 ^ 52)

theorem gridBelow_bounds (v : Binary) (n : Nat) :
    (v.gridBelow n : ℚ) * 10 ^ v.lastExponent n ≤ 4 * v.mantissa * 2 ^ (v.exponent - 2) ∧
      4 * v.mantissa * 2 ^ (v.exponent - 2) <
        ((v.gridBelow n + 1 : Nat) : ℚ) * 10 ^ v.lastExponent n := by
  obtain ⟨c, hc, hquarters, hpoints⟩ := exists_scale (v.exponent - 2) (v.lastExponent n)
  have hb : 0 < power 2 (-(v.exponent - 2)) * power 10 (v.lastExponent n) :=
    Nat.mul_pos (power_pos two_pos _) (power_pos (by decide) _)
  unfold gridBelow
  generalize power 2 (v.exponent - 2) * power 10 (-v.lastExponent n) = a at hquarters ⊢
  generalize power 2 (-(v.exponent - 2)) * power 10 (v.lastExponent n) = b at hpoints hb ⊢
  have hlow := Nat.div_mul_le_self (4 * v.mantissa * a) b
  have hhigh := (Nat.div_lt_iff_lt_mul hb).mp (Nat.lt_succ_self (4 * v.mantissa * a / b))
  generalize 4 * v.mantissa * a / b = k at hlow hhigh ⊢
  rw [← Nat.cast_le (α := ℚ), Nat.cast_mul k, Nat.cast_mul _ a, hquarters, hpoints, ← mul_assoc,
    ← mul_assoc, mul_le_mul_iff_of_pos_right hc] at hlow
  rw [← Nat.cast_lt (α := ℚ), Nat.cast_mul _ a, Nat.cast_mul _ b, hquarters, hpoints, ← mul_assoc,
    ← mul_assoc, mul_lt_mul_iff_of_pos_right hc] at hhigh
  push_cast at hlow hhigh ⊢
  exact ⟨hlow, hhigh⟩

/-- The last of seventeen digits counts less than a mantissa does. -/
theorem ten_zpow_lastExponent_le (hpos : 0 < v.mantissa) :
    (10 : ℚ) ^ v.lastExponent 17 ≤ 4 * v.mantissa * 2 ^ (v.exponent - 2) / 10 ^ 16 := by
  have htwo := power_pos two_pos (v.exponent - 2)
  have hden := power_pos two_pos (-(v.exponent - 2))
  have hlead := ten_zpow_leadingExponent_le (Nat.mul_pos (Nat.mul_pos four_pos hpos) htwo) hden
  have hvalue : (((4 * v.mantissa * power 2 (v.exponent - 2) : Nat)) : ℚ) /
      power 2 (-(v.exponent - 2)) = 4 * v.mantissa * 2 ^ (v.exponent - 2) := by
    have := power_div two_pos (v.exponent - 2)
    push_cast at this ⊢
    rw [mul_div_assoc, this]
  have hsplit : v.lastExponent 17 = leadingExponent (4 * v.mantissa * power 2 (v.exponent - 2))
      (power 2 (-(v.exponent - 2))) - 16 := by
    unfold lastExponent
    omega
  rw [hvalue] at hlead
  rw [hsplit, zpow_sub₀ (by norm_num), zpow_ofNat]
  exact div_le_div_of_nonneg_right hlead (by positivity)

theorem hits_of_lt (hpos : 0 < v.mantissa) {k : Nat}
    (hlow : v.lowQuarters * 2 ^ (v.exponent - 2) < (k : ℚ) * 10 ^ v.lastExponent n)
    (hhigh : (k : ℚ) * 10 ^ v.lastExponent n < (4 * v.mantissa + 2) * 2 ^ (v.exponent - 2)) :
    v.hits n k = true := by
  rw [hits_iff hpos]
  split
  · exact ⟨hlow.le, hhigh.le⟩
  · exact ⟨hlow, hhigh⟩

/-- The points of the grid of seventeen digits are so close to each other that one of them is read
back. -/
theorem ten_zpow_lt (h : v.InFormat) :
    (10 : ℚ) ^ v.lastExponent 17 < (4 * v.mantissa + 2 - v.lowQuarters) * 2 ^ (v.exponent - 2) := by
  obtain ⟨hpos, hless, hnear⟩ := h
  have hmantissa : (v.mantissa : ℚ) < 2 ^ 53 := by exact_mod_cast hless
  have hunit := two_zpow_pos (v.exponent - 2)
  have hcount : 4 * (v.mantissa : ℚ) < (4 * v.mantissa + 2 - v.lowQuarters) * 10 ^ 16 := by
    unfold lowQuarters
    split
    · rename_i hbelow
      have hhalf : (v.mantissa : ℚ) ≤ 2 ^ 52 := by exact_mod_cast hnear hbelow
      linarith
    · linarith
  refine (ten_zpow_lastExponent_le hpos).trans_lt ?_
  rw [div_lt_iff₀ (by positivity)]
  calc 4 * (v.mantissa : ℚ) * 2 ^ (v.exponent - 2)
      < (4 * v.mantissa + 2 - v.lowQuarters) * 10 ^ 16 * 2 ^ (v.exponent - 2) :=
        mul_lt_mul_of_pos_right hcount hunit
    _ = (4 * v.mantissa + 2 - v.lowQuarters) * 2 ^ (v.exponent - 2) * 10 ^ 16 := by ring

/-- One of the neighbours on the grid of seventeen digits is read back. -/
theorem hits_seventeen (h : v.InFormat) :
    v.hits 17 (v.gridBelow 17) = true ∨ v.hits 17 (v.gridBelow 17 + 1) = true := by
  have hspacing := ten_zpow_lt h
  obtain ⟨hbelow, habove⟩ := v.gridBelow_bounds 17
  have hunit := two_zpow_pos (v.exponent - 2)
  have hlow : v.lowQuarters * 2 ^ (v.exponent - 2) < 4 * v.mantissa * 2 ^ (v.exponent - 2) :=
    mul_lt_mul_of_pos_right (by linarith [v.lowQuarters_bounds.2]) hunit
  by_cases hnear : v.lowQuarters * 2 ^ (v.exponent - 2) <
      (v.gridBelow 17 : ℚ) * 10 ^ v.lastExponent 17
  · exact .inl (hits_of_lt h.1 hnear (by linarith))
  · refine .inr (hits_of_lt h.1 (hlow.trans habove) ?_)
    push_cast
    linarith

/-- The shortest decimal of a number is read back as this number. -/
theorem shortest_nearby (h : v.InFormat) (tie : Tie) : v.Nearby (v.shortest tie).value := by
  have hsome : ((List.range 17).findSome? fun n => v.onGrid? tie (n + 1)).isSome = true :=
    List.findSome?_isSome_iff.mpr ⟨16, by decide, isSome_onGrid? (hits_seventeen h)⟩
  obtain ⟨d, hd⟩ := Option.isSome_iff_exists.mp hsome
  obtain ⟨n, -, hgrid⟩ := List.exists_of_findSome?_eq_some hd
  unfold shortest
  rw [hd]
  exact nearby_of_onGrid? h.1 hgrid

theorem Nearby.pos {v : Binary} {r : ℚ} (h : v.Nearby r) (hpos : 0 < v.mantissa) : 0 < r := by
  have hmantissa : (1 : ℚ) ≤ v.mantissa := by exact_mod_cast hpos
  have hlow : (0 : ℚ) < 4 * v.mantissa - 2 := by linarith
  exact (mul_pos hlow (two_zpow_pos _)).trans_le h.low

theorem shortest_pos (h : v.InFormat) (tie : Tie) : 0 < (v.shortest tie).digits := by
  refine Nat.pos_of_ne_zero fun hzero => ?_
  have hvalue := (shortest_nearby h tie).pos h.1
  rw [Decimal.value, hzero, Nat.cast_zero, zero_mul] at hvalue
  exact lt_irrefl _ hvalue

end Binary

end OnlineLearning
