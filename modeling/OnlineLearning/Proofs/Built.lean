import Mathlib.Algebra.Group.Nat.Defs
import OnlineLearning.Proofs.Checks
import OnlineLearning.Workspace

/-!
# What a new workspace consists of

* `Config.Parts` are the parts that every chain of a configuration has;
* `Workspace.Fresh` lists the three chains that a configuration can lead to: a line, a bandit node
  on it, and a grounded node on that;
* `Workspace.fresh_of_new` says that there are no others;
* `Config.banditWorkspace` and `Config.defaultWorkspace` are default workspaces with a bandit node and
  with a grounded node.
-/

namespace OnlineLearning

variable {R W : Type} [Scalar R] [Number W] [Widening R W]

/-- The parts of a chain, as far as every chain of a configuration has them. -/
structure Config.Parts (W : Type) [Number W] [Widening R W] (c : Config R) where
  mode : Mode
  params : Params R
  context : Context R W
  valid : c.validate = .ok ()
  mode_eq : c.optimizer.mode = .ok mode
  params_eq : c.optimizer.params = .ok params
  context_eq : c.initialContext = .ok context

namespace Config.Parts

variable {c : Config R}

theorem checked (p : c.Parts W) : c.Checked :=
  validate_iff_checked.mp p.valid

theorem bits_range (p : c.Parts W) : 1 ≤ c.weights.bits.toNat ∧ c.weights.bits.toNat ≤ 32 := by
  obtain ⟨hone, hmost⟩ := p.checked.bits
  exact ⟨UInt32.le_iff_toNat_le.mp hone, UInt32.le_iff_toNat_le.mp hmost⟩

/-- The rates of a valid configuration have no negative penalty. -/
theorem l1_range (p : c.Parts W) : ¬ p.params.l1 < 0 := by
  obtain ⟨_, -, hparams⟩ := bind_eq_ok.mp p.params_eq
  have hl1 : p.params.l1 = c.optimizer.l1 := congrArg Params.l1 (Except.ok.inj hparams).symm
  rw [hl1]
  exact p.checked.optimizer.l1

def line (p : c.Parts W) : Line := ⟨p.mode, [c.scorer.link]⟩

def layout (c : Config R) : Layout := if c.weights.sparse then .sparse else .dense

def optimizer (p : c.Parts W) : Optimizer R W :=
  .new p.mode p.params c.weights.bits.toNat (layout c) c.run.earlyTerminate

theorem mask_lt (p : c.Parts W) : p.optimizer.weights.mask.toNat < 2 ^ 32 := by
  have hbits : 2 ^ c.weights.bits.toNat ≤ 2 ^ 32 :=
    Nat.pow_le_pow_right (by omega) p.bits_range.2
  have hpos : 0 < 2 ^ c.weights.bits.toNat := Nat.two_pow_pos _
  have hsize : UInt64.size = 2 ^ 64 := rfl
  change (indexMask c.weights.bits.toNat).toNat < _
  unfold indexMask
  rw [Nat.pow_eq, UInt64.toNat_ofNat_of_lt' (by omega)]
  omega

def hasher (c : Config R) (problems : UInt64) : FeatureHasher :=
  .ofBits c.weights.bits.toNat problems

def settings (c : Config R) : GroundedSettings R :=
  { c.groundedSettings with negativeFeedback := Blueprint.negativeFeedback c (hasher c 2) }

end Config.Parts

theorem map_eq_ok {ε α β : Type} {x : Except ε α} {f : α → β} {b : β} :
    f <$> x = .ok b ↔ ∃ a, x = .ok a ∧ f a = b := by
  cases x with
  | error e => simp [Functor.map, Except.map]
  | ok a => simp [Functor.map, Except.map]

namespace Workspace

open Config.Parts

/-- The workspaces that a configuration leads to. -/
inductive Fresh (c : Config R) : Workspace R W → Prop
  | line (p : c.Parts W) (h : c.hasBandit = false) :
    Fresh c ⟨c, ⟨.line p.line, p.optimizer, p.context, hasher c 1⟩, newJournal c⟩
  | bandit (p : c.Parts W) (h : c.bandit.enabled = true)
      (h' : c.grounded.enabled = false) :
    Fresh c ⟨c, ⟨.tower (.bandit p.line), (Example.blank, p.optimizer), p.context, hasher c 1⟩,
      newJournal c⟩
  | grounded (p : c.Parts W) (h : c.grounded.enabled = true)
      (base : Line) (decoderContext : Context R W) (hloss : c.decoder.scorer.loss = .logistic)
      (hcontext : c.decoder.initialContext = .ok decoderContext) :
    Fresh c ⟨c, ⟨.tower (.grounded (settings c) 1 (base.push .logistic) (.bandit p.line)),
      (⟨decoderContext, default, Example.blank⟩, (Example.blank, p.optimizer)), p.context,
      hasher c 2⟩, newJournal c⟩

end Workspace

namespace Blueprint

omit [Number W] [Widening R W] in
theorem stack_eq (c : Config R) :
    (⟨c, none, none⟩ : Blueprint R).stack = (do
      let line : Line := ⟨← c.optimizer.mode, [c.scorer.link]⟩
      if c.grounded.enabled then .tower <$> c.ground (.bandit line)
      else if c.bandit.enabled then pure (.tower (.bandit line))
      else pure (.line line)) := by
  have hpush : (⟨c, none, none⟩ : Blueprint R).push none .optimizer =
      (do pure (.line ⟨← c.optimizer.mode, []⟩)) := rfl
  unfold stack stages Config.stages Config.hasBandit
  dsimp only
  rw [List.cons_append, List.cons_append, List.cons_append, List.foldlM_cons, hpush]
  cases c.optimizer.mode with
  | error e => rfl
  | ok mode =>
    cases c.grounded.enabled with
    | false => cases c.bandit.enabled <;> rfl
    | true =>
      have hlast (top : Except ConfigError (Stack R))
          (check : Option (Stack R) → Except ConfigError (Stack R))
          (hcheck : ∀ s, check (some s) = pure s) :
          (((some <$> top) >>= pure) >>= check) = top := by
        cases top with
        | error e => rfl
        | ok s => exact hcheck s
      rw [Bool.or_true]
      exact hlast (.tower <$> c.ground (.bandit ⟨mode, [c.scorer.link]⟩)) _ fun _ => rfl

end Blueprint

namespace Stack

omit [Scalar R] in
theorem foldl_problems_line (lines : List Line) (n : UInt64) :
    (lines.map (Stack.line (R := R))).foldl (fun n node => n * node.problems) n = n := by
  induction lines with
  | nil => rfl
  | cons l rest ih => simpa [problems] using ih

omit [Scalar R] in
@[simp] theorem paramsPerWeight_line (l : Line) : (line l : Stack R).paramsPerWeight = 1 :=
  foldl_problems_line _ _

omit [Scalar R] in
@[simp] theorem paramsPerWeight_bandit (l : Line) :
    (tower (.bandit l) : Stack R).paramsPerWeight = 1 := by
  simp only [paramsPerWeight, nodes, Tower.nodes, List.map_cons, List.map_nil, List.cons_append,
    List.nil_append, List.foldl_cons, foldl_problems_line]
  rfl

omit [Scalar R] in
/-- A grounded node sets a second problem apart. -/
@[simp] theorem paramsPerWeight_grounded (s : GroundedSettings R) (offset : UInt64)
    (decoder l : Line) :
    (tower (.grounded s offset decoder (.bandit l)) : Stack R).paramsPerWeight = 2 := by
  simp only [paramsPerWeight, nodes, Tower.nodes, List.map_cons, List.map_nil, List.cons_append,
    List.nil_append, List.foldl_cons, foldl_problems_line]
  rfl

end Stack

namespace Config

/-- A grounded node stands on the problem after that of the bandit node. -/
theorem ground_eq_ok {c : Config R} {l : Line} {t : Tower R} (h : c.ground (.bandit l) = .ok t) :
    ∃ base : Line, t = .grounded c.groundedSettings 1 (base.push .logistic) (.bandit l) ∧
      c.decoder.scorer.loss = .logistic := by
  obtain ⟨base, -, h⟩ := bind_eq_ok.mp h
  by_cases hloss : c.decoder.scorer.loss = .logistic
  · by_cases hlink : c.decoder.scorer.link = .logistic
    · simp only [hloss, hlink, ne_eq, not_true_eq_false, if_false] at h
      obtain ⟨_, -, h⟩ := bind_eq_ok.mp h
      cases h
      exact ⟨base, by rw [Stack.paramsPerWeight_bandit], hloss⟩
    · simp [hloss, hlink, bind, Except.bind, throw, throwThe, MonadExceptOf.throw] at h
  · simp [hloss, bind, Except.bind, throw, throwThe, MonadExceptOf.throw] at h

end Config

namespace Workspace

theorem fresh_of_new {c : Config R} {w : Workspace R W} (h : Workspace.new c = .ok w) :
    Fresh c w := by
  obtain ⟨chain, hchain, hw⟩ := bind_eq_ok.mp h
  cases hw
  obtain ⟨_, hvalid, hbuild⟩ := bind_eq_ok.mp hchain
  obtain ⟨context, hcontext, hbuild⟩ := bind_eq_ok.mp hbuild
  obtain ⟨stack, hstack, hbuild⟩ := bind_eq_ok.mp hbuild
  obtain ⟨o, ho, hbuild⟩ := bind_eq_ok.mp hbuild
  obtain ⟨mode, hmode, ho⟩ := bind_eq_ok.mp ho
  obtain ⟨params, hparams, ho⟩ := bind_eq_ok.mp ho
  cases ho
  let p : c.Parts W := ⟨mode, params, context, hvalid, hmode, hparams, hcontext⟩
  rw [Blueprint.stack_eq] at hstack
  obtain ⟨_, hmode', hstack⟩ := bind_eq_ok.mp hstack
  cases hmode.symm.trans hmode'
  by_cases hg : c.grounded.enabled
  · rw [if_pos hg] at hstack
    obtain ⟨t, ht, rfl⟩ := map_eq_ok.mp hstack
    obtain ⟨base, rfl, hloss⟩ := Config.ground_eq_ok ht
    obtain ⟨decoderContext, hdecoder, hbuild⟩ := bind_eq_ok.mp hbuild
    cases hbuild
    rw [Stack.paramsPerWeight_grounded]
    exact Fresh.grounded p hg base decoderContext hloss hdecoder
  rw [if_neg hg] at hstack
  by_cases hb : c.bandit.enabled
  · rw [if_pos hb] at hstack
    cases hstack
    cases hbuild
    rw [Stack.paramsPerWeight_bandit]
    exact Fresh.bandit p hb (Bool.eq_false_iff.mpr hg)
  · rw [if_neg hb] at hstack
    cases hstack
    cases hbuild
    rw [Stack.paramsPerWeight_line]
    exact Fresh.line p (by simp [Config.hasBandit, hg, hb])

end Workspace

/-! ## Without the grounded node -/

namespace Config

/-- A configuration with its bandit node, but without the grounded node on it. -/
def banditOnly (c : Config R) : Config R :=
  { c with bandit := { enabled := true }, grounded := { c.grounded with enabled := false } }

theorem validate_banditOnly {c : Config R} (h : c.validate = .ok ()) :
    c.banditOnly.validate = .ok () := by
  obtain ⟨hrates, hbits, hevery, hterms, -⟩ := validate_iff_checked.mp h
  exact validate_iff_checked.mpr ⟨hrates, hbits, hevery, hterms, nofun⟩

end Config

/-- The workspace that stands on the same parts as a grounded one. -/
theorem Workspace.new_banditOnly {c : Config R} (p : c.Parts W) :
    Workspace.new c.banditOnly = .ok
      ⟨c.banditOnly, ⟨.tower (.bandit p.line), (Example.blank, p.optimizer), p.context,
        Config.Parts.hasher c 1⟩, newJournal c⟩ := by
  have hstack : (⟨c.banditOnly, none, none⟩ : Blueprint R).stack =
      .ok (.tower (.bandit p.line)) := by
    rw [Blueprint.stack_eq]
    exact bind_eq_ok.mpr ⟨p.mode, p.mode_eq, rfl⟩
  have hoptimizer : c.banditOnly.newOptimizer = .ok p.optimizer :=
    bind_eq_ok.mpr ⟨p.mode, p.mode_eq, bind_eq_ok.mpr ⟨p.params, p.params_eq, rfl⟩⟩
  refine bind_eq_ok.mpr ⟨_, ?_, rfl⟩
  refine bind_eq_ok.mpr ⟨(), Config.validate_banditOnly p.valid, ?_⟩
  refine bind_eq_ok.mpr ⟨p.context, p.context_eq, ?_⟩
  refine bind_eq_ok.mpr ⟨_, hstack, ?_⟩
  refine bind_eq_ok.mpr ⟨p.optimizer, hoptimizer, ?_⟩
  rw [Stack.paramsPerWeight_bandit]
  rfl

/-! ## Default workspaces -/

theorem Workspace.new_eq_get {c : Config Float32}
    (h : (Workspace.new c : Except _ (Workspace Float32 Float)).toOption.isSome) :
    Workspace.new c = .ok ((Workspace.new c : Except _ (Workspace Float32 Float)).toOption.get h) := by
  generalize (Workspace.new c : Except _ (Workspace Float32 Float)) = built at h ⊢
  cases built with
  | ok w => rfl
  | error e => cases h

namespace Config

/-- The default configuration with a bandit node. -/
def defaultBandit : Config Float32 :=
  { (default : Config Float32) with bandit := { enabled := true } }

def banditWorkspace : Workspace Float32 Float :=
  (Workspace.new defaultBandit : Except _ (Workspace Float32 Float)).toOption.get (by decide +kernel)

theorem new_defaultBandit : Workspace.new defaultBandit = .ok banditWorkspace :=
  Workspace.new_eq_get _

/-- The default configuration with a grounded node. -/
def defaultGrounded : Config Float32 :=
  { (default : Config Float32) with
    grounded := { (default : Config Float32).grounded with enabled := true } }

def defaultWorkspace : Workspace Float32 Float :=
  (Workspace.new defaultGrounded : Except _ (Workspace Float32 Float)).toOption.get
    (by decide +kernel)

theorem new_defaultGrounded : Workspace.new defaultGrounded = .ok defaultWorkspace :=
  Workspace.new_eq_get _

end Config

end OnlineLearning
