import OnlineLearning.Config.Basic

/-!
# What the checks of a configuration ask for

The validators run check after check and stop at the first that fails.

* `OptimizerConfig.Checked`, `GroundedConfig.Checked` and `Config.Checked` list what is checked, for
  any numbers;
* `Config.validate_iff_checked`: the configurations that satisfy it are those that are accepted.
-/

namespace OnlineLearning

theorem bind_eq_ok {ε α β : Type} {x : Except ε α} {f : α → Except ε β} {b : β} :
    (x >>= f) = .ok b ↔ ∃ a, x = .ok a ∧ f a = .ok b := by
  cases x with
  | error e => simp [bind, Except.bind]
  | ok a => simp [bind, Except.bind]

variable {R : Type} [Scalar R]

structure OptimizerConfig.Checked (c : OptimizerConfig R) : Prop where
  /-- At most one mode is selected, and its rates are in range. -/
  rates : ∃ p, c.params = .ok p ∧ (0 < p.alpha ∧ Scalar.isFinite p.alpha = true) ∧
    (0 ≤ p.beta ∧ Scalar.isFinite p.beta = true)
  l1 : ¬ c.l1 < 0
  l2 : ¬ c.l2 < 0

structure GroundedConfig.Checked (c : GroundedConfig R) : Prop where
  feedbackNamespace : c.feedbackNamespace.isEmpty = false
  unlabeledPrior : 0 < c.unlabeledPrior ∧ c.unlabeledPrior ≤ 1
  positiveImportance : ¬ c.positiveImportance ≤ 0
  negativeImportance : ¬ c.negativeImportance ≤ 0
  interactions : ∃ ts, Term.parseAll (c.decoder.interactions.getD []) = .ok ts

namespace Config

structure Checked (c : Config R) : Prop where
  optimizer : c.optimizer.Checked
  bits : 1 ≤ c.weights.bits ∧ c.weights.bits ≤ 32
  checkHoldoutEvery : c.run.checkHoldoutEvery ≠ 0
  interactions : ∃ ts, Term.parseAll c.features.interactions = .ok ts
  grounded : c.grounded.enabled = true → c.grounded.Checked

omit [Scalar R] in
theorem require_eq_ok_iff {ok : Bool} {parameter reason : String} {u : Unit} :
    require ok parameter reason = .ok u ↔ ok = true := by
  cases ok with
  | false => exact iff_of_false nofun nofun
  | true => exact iff_of_true rfl rfl

theorem validateRates_iff_checked {c : OptimizerConfig R} :
    validateRates c = .ok () ↔ c.Checked := by
  unfold validateRates
  simp only [bind_eq_ok, require_eq_ok_iff, Bool.and_eq_true, decide_eq_true_eq,
    Bool.not_eq_true', Bool.or_eq_false_iff, decide_eq_false_iff_not]
  constructor
  · rintro ⟨p, hparams, -, halpha, -, hbeta, hl1, hl2⟩
    exact ⟨⟨p, hparams, halpha, hbeta⟩, hl1, hl2⟩
  · rintro ⟨⟨p, hparams, halpha, hbeta⟩, hl1, hl2⟩
    exact ⟨p, hparams, (), halpha, (), hbeta, hl1, hl2⟩

theorem validateGrounded_iff_checked {c : GroundedConfig R} :
    validateGrounded c = .ok () ↔ c.Checked := by
  unfold validateGrounded
  simp only [bind_eq_ok, require_eq_ok_iff, Bool.and_eq_true, decide_eq_true_eq,
    Bool.not_eq_true', Bool.or_eq_false_iff, decide_eq_false_iff_not]
  constructor
  · rintro ⟨-, hfeedback, -, hprior, -, ⟨hpositive, hnegative⟩, ts, hts, -⟩
    exact ⟨hfeedback, hprior, hpositive, hnegative, ts, hts⟩
  · rintro ⟨hfeedback, hprior, hpositive, hnegative, ts, hts⟩
    exact ⟨(), hfeedback, (), hprior, (), ⟨hpositive, hnegative⟩, ts, hts, rfl⟩

theorem validate_iff_checked {c : Config R} : c.validate = .ok () ↔ c.Checked := by
  have hgrounded : (if c.grounded.enabled then validateGrounded c.grounded else pure ()) = .ok () ↔
      (c.grounded.enabled = true → c.grounded.Checked) := by
    rw [← validateGrounded_iff_checked]
    split
    · rename_i henabled
      exact ⟨fun h _ => h, fun h => h henabled⟩
    · rename_i henabled
      exact iff_of_true rfl fun h => absurd h henabled
  unfold validate
  simp only [bind_eq_ok, require_eq_ok_iff, Bool.and_eq_true, decide_eq_true_eq, bne_iff_ne,
    hgrounded]
  constructor
  · rintro ⟨_, hrates, -, hbits, -, hevery, ts, hts, hnode⟩
    exact ⟨validateRates_iff_checked.mp hrates, hbits, hevery, ⟨ts, hts⟩, hnode⟩
  · rintro ⟨hrates, hbits, hevery, ⟨ts, hts⟩, hnode⟩
    exact ⟨(), validateRates_iff_checked.mpr hrates, (), hbits, (), hevery, ts, hts, hnode⟩

end Config

end OnlineLearning
