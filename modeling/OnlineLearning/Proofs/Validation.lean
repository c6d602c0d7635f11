import OnlineLearning.Proofs.Built
import OnlineLearning.Proofs.Codec
import OnlineLearning.Proofs.FloatValues

/-!
# Configurations that are accepted

`Config.validate` checks what a chain needs of its settings. Most of its rules ask for what has to
hold. The rules on the penalties and on the importances refuse what must not hold instead, and
nothing holds of what is no number; so it passes them.

* `Satisfies` and `Allows` say that a number has a property, and that it has it if it is a number;
* `Config.Sound` are the rules, for either way to read those on penalties and importances;
* `Config.validate_iff`: `validate` accepts what allows these rules. Among that, what satisfies them
  are the configurations in which penalties and importances are numbers.
-/

namespace OnlineLearning

/-- Stands for a number with the property. -/
def Satisfies (p : EReal → Prop) (x : Float32) : Prop := ∃ a ∈ number? x, p a

/-- Stands for no number without the property. -/
def Allows (p : EReal → Prop) (x : Float32) : Prop := ∀ a ∈ number? x, p a

theorem satisfies_iff {p : EReal → Prop} {x : Float32} :
    Satisfies p x ↔ Allows p x ∧ ¬ IsNaN x := by
  constructor
  · rintro ⟨a, ha, hp⟩
    exact ⟨fun b hb => Option.mem_unique ha hb ▸ hp, not_isNaN_of_number ha⟩
  · rintro ⟨hall, hnumber⟩
    obtain ⟨a, ha⟩ := exists_number hnumber
    exact ⟨a, ha, hall a ha⟩

/-! ## Patterns -/

/-- Names two or three namespaces, each by a byte. -/
def IsPattern (pattern : String) : Prop := pattern.toUTF8.size = 2 ∨ pattern.toUTF8.size = 3

namespace Term

theorem exists_parse_iff {pattern : String} : (∃ t, parse pattern = .ok t) ↔ IsPattern pattern := by
  have hlength : pattern.toUTF8.toList.length = pattern.toUTF8.size := by
    rw [toList_data, Array.length_toList, ByteArray.size_data]
  unfold parse IsPattern
  dsimp only
  rw [hlength]
  split
  · rename_i hsize
    exact iff_of_true ⟨_, rfl⟩ hsize
  · rename_i hsize
    exact iff_of_false nofun hsize

theorem exists_parseAll_iff {patterns : List String} :
    (∃ ts, parseAll patterns = .ok ts) ↔ ∀ pattern ∈ patterns, IsPattern pattern := by
  unfold parseAll
  induction patterns with
  | nil => exact iff_of_true ⟨[], rfl⟩ nofun
  | cons pattern patterns ih =>
    rw [List.forall_mem_cons, ← ih, ← exists_parse_iff, List.mapM_cons]
    constructor
    · rintro ⟨_, h⟩
      obtain ⟨t, ht, h⟩ := bind_eq_ok.mp h
      obtain ⟨ts, hts, -⟩ := bind_eq_ok.mp h
      exact ⟨⟨t, ht⟩, ts, hts⟩
    · rintro ⟨⟨t, ht⟩, ts, hts⟩
      exact ⟨t :: ts, bind_eq_ok.mpr ⟨t, ht, bind_eq_ok.mpr ⟨ts, hts, rfl⟩⟩⟩

end Term

/-! ## Rules -/

namespace OptimizerConfig

variable {R : Type} [Scalar R] (c : OptimizerConfig R)

/-- The mode, if at most one is selected. -/
def onlyMode : Mode :=
  if c.ftrl then .proximal else if c.pistol then .pistol else .coinBetting

/-- The first rate in effect. -/
def effectiveAlpha : R := c.alpha.getD c.onlyMode.defaultAlpha

/-- The second rate in effect. -/
def effectiveBeta : R := c.beta.getD c.onlyMode.defaultBeta

theorem params_eq_ok_iff {c : OptimizerConfig R} {p : Params R} :
    c.params = .ok p ↔ c.selected.length ≤ 1 ∧
      p = { alpha := c.effectiveAlpha, beta := c.effectiveBeta, l1 := c.l1, l2 := c.l2 } := by
  obtain ⟨ftrl, pistol, coin, alpha, beta, l1, l2⟩ := c
  cases ftrl <;> cases pistol <;> cases coin <;>
    simp [params, mode, selected, effectiveAlpha, effectiveBeta, onlyMode, bind, Except.bind, pure,
      Except.pure] <;>
    exact eq_comm

end OptimizerConfig

/-- What is asked of a grounded section; `reads` is how a rule on an importance is read. -/
structure GroundedConfig.Sound (reads : (EReal → Prop) → Float32 → Prop)
    (c : GroundedConfig Float32) : Prop where
  feedbackNamespace : c.feedbackNamespace ≠ ""
  unlabeledPrior : Satisfies (fun a => 0 < a ∧ a ≤ 1) c.unlabeledPrior
  positiveImportance : reads (0 < ·) c.positiveImportance
  negativeImportance : reads (0 < ·) c.negativeImportance
  interactions : ∀ pattern ∈ c.decoder.interactions.getD [], IsPattern pattern

namespace Config

/-- What is asked of a configuration; `reads` is how a rule on a penalty or an importance is
read. -/
structure Sound (reads : (EReal → Prop) → Float32 → Prop) (c : Config Float32) : Prop where
  selected : c.optimizer.selected.length ≤ 1
  alpha : ∃ a : ℝ, number? c.optimizer.effectiveAlpha = some ↑a ∧ 0 < a
  beta : ∃ b : ℝ, number? c.optimizer.effectiveBeta = some ↑b ∧ 0 ≤ b
  l1 : reads (0 ≤ ·) c.optimizer.l1
  l2 : reads (0 ≤ ·) c.optimizer.l2
  bits : 1 ≤ c.weights.bits.toNat ∧ c.weights.bits.toNat ≤ 32
  checkHoldoutEvery : 1 ≤ c.run.checkHoldoutEvery.toNat
  interactions : ∀ pattern ∈ c.features.interactions, IsPattern pattern
  grounded : c.grounded.enabled = true → c.grounded.Sound reads

/-- The penalties and, where they are used, the importances are numbers. -/
structure Numbered (c : Config Float32) : Prop where
  l1 : ¬ IsNaN c.optimizer.l1
  l2 : ¬ IsNaN c.optimizer.l2
  positiveImportance : c.grounded.enabled = true → ¬ IsNaN c.grounded.positiveImportance
  negativeImportance : c.grounded.enabled = true → ¬ IsNaN c.grounded.negativeImportance

/-! ## Checks -/

theorem pos_and_isFinite_iff {x : Float32} :
    0 < x ∧ Scalar.isFinite x = true ↔ ∃ a : ℝ, number? x = some ↑a ∧ 0 < a := by
  rw [zero_lt_iff_number, exists_and_isFinite_iff]
  simp only [EReal.coe_pos]

theorem nonneg_and_isFinite_iff {x : Float32} :
    0 ≤ x ∧ Scalar.isFinite x = true ↔ ∃ a : ℝ, number? x = some ↑a ∧ 0 ≤ a := by
  rw [zero_le_iff_number, exists_and_isFinite_iff]
  simp only [EReal.coe_nonneg]

theorem pos_and_le_one_iff {x : Float32} :
    0 < x ∧ x ≤ 1 ↔ Satisfies (fun a => 0 < a ∧ a ≤ 1) x := by
  rw [zero_lt_iff_number, le_one_iff_number]
  constructor
  · rintro ⟨⟨a, ha, hpos⟩, b, hb, hle⟩
    obtain rfl := Option.mem_unique ha hb
    exact ⟨a, ha, hpos, hle⟩
  · rintro ⟨a, ha, hpos, hle⟩
    exact ⟨⟨a, ha, hpos⟩, a, ha, hle⟩

theorem checked_rates_iff {c : OptimizerConfig Float32} :
    c.Checked ↔ c.selected.length ≤ 1 ∧
      (∃ a : ℝ, number? c.effectiveAlpha = some ↑a ∧ 0 < a) ∧
      (∃ b : ℝ, number? c.effectiveBeta = some ↑b ∧ 0 ≤ b) ∧
      Allows (0 ≤ ·) c.l1 ∧ Allows (0 ≤ ·) c.l2 := by
  constructor
  · rintro ⟨⟨_, hparams, halpha, hbeta⟩, hl1, hl2⟩
    obtain ⟨hselected, rfl⟩ := OptimizerConfig.params_eq_ok_iff.mp hparams
    exact ⟨hselected, pos_and_isFinite_iff.mp halpha, nonneg_and_isFinite_iff.mp hbeta,
      not_lt_zero_iff_number.mp hl1, not_lt_zero_iff_number.mp hl2⟩
  · rintro ⟨hselected, halpha, hbeta, hl1, hl2⟩
    exact ⟨⟨_, OptimizerConfig.params_eq_ok_iff.mpr ⟨hselected, rfl⟩,
      pos_and_isFinite_iff.mpr halpha, nonneg_and_isFinite_iff.mpr hbeta⟩,
      not_lt_zero_iff_number.mpr hl1, not_lt_zero_iff_number.mpr hl2⟩

theorem checked_grounded_iff {c : GroundedConfig Float32} : c.Checked ↔ c.Sound Allows := by
  have hnamespace : c.feedbackNamespace.isEmpty = false ↔ c.feedbackNamespace ≠ "" := by
    rw [← Bool.not_eq_true, String.isEmpty_iff]
  constructor
  · rintro ⟨hfeedback, hprior, hpositive, hnegative, hterms⟩
    exact ⟨hnamespace.mp hfeedback, pos_and_le_one_iff.mp hprior,
      not_le_zero_iff_number.mp hpositive, not_le_zero_iff_number.mp hnegative,
      Term.exists_parseAll_iff.mp hterms⟩
  · rintro ⟨hfeedback, hprior, hpositive, hnegative, hpatterns⟩
    exact ⟨hnamespace.mpr hfeedback, pos_and_le_one_iff.mpr hprior,
      not_le_zero_iff_number.mpr hpositive, not_le_zero_iff_number.mpr hnegative,
      Term.exists_parseAll_iff.mpr hpatterns⟩

theorem validate_eq_ok_iff {c : Config Float32} : c.validate = .ok () ↔ c.Sound Allows := by
  have hevery : c.run.checkHoldoutEvery ≠ 0 ↔ 1 ≤ c.run.checkHoldoutEvery.toNat := by
    rw [ne_eq, ← UInt64.toNat_inj, UInt64.toNat_zero, ← ne_eq, ← Nat.one_le_iff_ne_zero]
  rw [validate_iff_checked]
  constructor
  · rintro ⟨hrates, ⟨hone, hmost⟩, hpasses, hterms, hnode⟩
    obtain ⟨hselected, halpha, hbeta, hl1, hl2⟩ := checked_rates_iff.mp hrates
    exact ⟨hselected, halpha, hbeta, hl1, hl2,
      ⟨UInt32.le_iff_toNat_le.mp hone, UInt32.le_iff_toNat_le.mp hmost⟩, hevery.mp hpasses,
      Term.exists_parseAll_iff.mp hterms,
      fun henabled => checked_grounded_iff.mp (hnode henabled)⟩
  · rintro ⟨hselected, halpha, hbeta, hl1, hl2, ⟨hone, hmost⟩, hpasses, hpatterns, hnode⟩
    exact ⟨checked_rates_iff.mpr ⟨hselected, halpha, hbeta, hl1, hl2⟩,
      ⟨UInt32.le_iff_toNat_le.mpr hone, UInt32.le_iff_toNat_le.mpr hmost⟩, hevery.mpr hpasses,
      Term.exists_parseAll_iff.mpr hpatterns,
      fun henabled => checked_grounded_iff.mpr (hnode henabled)⟩

/-- The rules are satisfied where they are allowed and speak of numbers. -/
theorem sound_satisfies_iff {c : Config Float32} :
    c.Sound Satisfies ↔ c.Sound Allows ∧ c.Numbered := by
  constructor
  · intro h
    obtain ⟨hl1, hl1'⟩ := satisfies_iff.mp h.l1
    obtain ⟨hl2, hl2'⟩ := satisfies_iff.mp h.l2
    refine ⟨{ h with l1 := hl1, l2 := hl2, grounded := fun henabled => ?_ }, hl1', hl2',
      fun henabled => ?_, fun henabled => ?_⟩
    · have hnode := h.grounded henabled
      exact { hnode with
        positiveImportance := (satisfies_iff.mp hnode.positiveImportance).1
        negativeImportance := (satisfies_iff.mp hnode.negativeImportance).1 }
    · exact (satisfies_iff.mp (h.grounded henabled).positiveImportance).2
    · exact (satisfies_iff.mp (h.grounded henabled).negativeImportance).2
  · rintro ⟨h, hnumbers⟩
    refine { h with
      l1 := satisfies_iff.mpr ⟨h.l1, hnumbers.l1⟩
      l2 := satisfies_iff.mpr ⟨h.l2, hnumbers.l2⟩
      grounded := fun henabled => ?_ }
    have hnode := h.grounded henabled
    exact { hnode with
      positiveImportance := satisfies_iff.mpr
        ⟨hnode.positiveImportance, hnumbers.positiveImportance henabled⟩
      negativeImportance := satisfies_iff.mpr
        ⟨hnode.negativeImportance, hnumbers.negativeImportance henabled⟩ }

/-- A configuration is accepted exactly if none of its numbers breaks a rule. It satisfies all rules
as numbers exactly if it is accepted and its penalties and importances are numbers. -/
theorem validate_iff (c : Config Float32) :
    (c.validate = .ok () ↔ c.Sound Allows) ∧
      (c.Sound Satisfies ↔ c.validate = .ok () ∧ c.Numbered) :=
  ⟨validate_eq_ok_iff, by rw [validate_eq_ok_iff, sound_satisfies_iff]⟩

/-- A penalty that is no number. -/
def unnumbered : Config Float32 :=
  { (default : Config Float32) with
    optimizer := { (default : Config Float32).optimizer with l1 := Float32.ofBits 0x7FC00000 } }

/-- The accepted configurations are not those that satisfy the rules. -/
theorem not_validate_iff_sound :
    ¬ ∀ c : Config Float32, c.validate = .ok () ↔ c.Sound Satisfies := by
  intro h
  have hvalid : unnumbered.validate = .ok () := by decide +kernel
  have hnan : IsNaN unnumbered.optimizer.l1 := isNaN_iff.mp (by decide +kernel)
  exact (satisfies_iff.mp ((h unnumbered).mp hvalid).l1).2 hnan

end Config

end OnlineLearning
