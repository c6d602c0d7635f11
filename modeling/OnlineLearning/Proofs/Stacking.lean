import Mathlib.Data.List.Basic
import OnlineLearning.Proofs.Built

/-!
# Which lists of stages can be stacked

* `Stackable` lists the forms: an optimizer with scorers on it, or a bandit node on these with
  grounded nodes on that;
* `Config.ground_eq_ok_iff` says when a grounded node can be put on a tower, and what it is then;
* `Tower.decoders` and `Tower.policy` are the learners of single examples in a tower, each as a
  learner on the whole state; `Tower.decoders_eq` and `Tower.policy_eq` say that all of them work
  on the one optimizer at the bottom;
* `Blueprint.stack_eq_ok_iff` says which stack a list of stages leads to, and
  `Blueprint.build_iff_stackable` when a chain is built from it and what it consists of;
* `Config.exists_new`: a valid configuration leads to a workspace.
-/

namespace OnlineLearning

/-- The lists of stages that can be stacked. -/
inductive Stackable : List Stage → Prop
  | line (n : ℕ) : Stackable (.optimizer :: List.replicate n .scorer)
  | tower (n k : ℕ) :
    Stackable (.optimizer :: (List.replicate n .scorer ++ .bandit :: List.replicate k .grounded))

/-! ## Learners of single examples in a tower -/

namespace Tower

variable {R W : Type}

/-- The places of the decoders' problems, from the bottom to the top. -/
def offsets : Tower R → List UInt64
  | bandit _ => []
  | grounded _ offset _ primary => primary.offsets ++ [offset]

/-- The lines of the decoders, from the bottom to the top. -/
def decoderLines : Tower R → List Line
  | bandit _ => []
  | grounded _ _ decoder primary => primary.decoderLines ++ [decoder]

variable [Scalar R] [Number W] [Widening R W]

/-- The decoders, from the bottom to the top, as learners on the state of the tower. -/
def decoders : (t : Tower R) → List (LineLearner R W (t.State W))
  | bandit _ => []
  | grounded _ _ decoder primary =>
    (primary.decoders ++
      [decoder.learner.onNode primary.optimizer fun o => primary.setOptimizer o]).map
        (·.onNode Prod.snd fun inner s => (s.1, inner))

/-- The line below the bandit node, as a learner on the state of the tower. -/
def policy : (t : Tower R) → LineLearner R W (t.State W)
  | bandit l => l.learner.onNode Prod.snd fun o s => (s.1, o)
  | grounded _ _ _ primary => primary.policy.onNode Prod.snd fun inner s => (s.1, inner)

/-- All decoders work on the optimizer at the bottom. -/
theorem decoders_eq (t : Tower R) :
    t.decoders = t.decoderLines.map fun l =>
      (l.learner.onNode t.optimizer (fun o => t.setOptimizer o) : LineLearner R W _) := by
  induction t with
  | bandit l => rfl
  | grounded settings offset decoder primary ih =>
    simp only [decoders, decoderLines, ih, List.map_append, List.map_map, List.map_cons,
      List.map_nil]
    rfl

/-- The line below the bandit node works on the optimizer at the bottom. -/
theorem policy_eq (t : Tower R) :
    t.policy = (t.line.learner.onNode t.optimizer (fun o => t.setOptimizer o) :
      LineLearner R W _) := by
  induction t with
  | bandit l => rfl
  | grounded settings offset decoder primary ih =>
    simp only [policy, ih]
    rfl

end Tower

/-! ## The nodes of a stack -/

namespace Stack

variable {R : Type}

/-- The places of the decoders' problems, from the bottom to the top. -/
def offsets : Stack R → List UInt64
  | line _ => []
  | tower t => t.offsets

/-- The lines of the decoders, from the bottom to the top. -/
def decoderLines : Stack R → List Line
  | line _ => []
  | tower t => t.decoderLines

/-- The line at the bottom. -/
def bottom : Stack R → Line
  | line l => l
  | tower t => t.line

theorem enabled_push (l : Line) (link : LinkFunction) :
    (line (l.push link) : Stack R).enabled = (line l : Stack R).enabled ++ [Scorer.name link] := by
  simp only [enabled, nodes, Line.nodes, Line.push, Line.ends, List.map_cons, List.reverse_cons]
  rfl

theorem enabled_bandit (l : Line) :
    (tower (.bandit l) : Stack R).enabled = (line l : Stack R).enabled ++ [Bandit.name] := by
  simp only [enabled, nodes, Tower.nodes, Tower.line, List.map_cons, List.map_nil,
    List.cons_append, List.nil_append, List.reverse_cons]
  rfl

theorem enabled_grounded (s : GroundedSettings R) (offset : UInt64) (decoder : Line)
    (t : Tower R) :
    (tower (.grounded s offset decoder t)).enabled = (tower t).enabled ++ [Grounded.name] := by
  simp only [enabled, nodes, Tower.nodes, Tower.line, List.map_cons, List.cons_append,
    List.reverse_cons]
  rfl

theorem foldl_problems (nodes : List (Stack R)) (a b : UInt64) :
    nodes.foldl (fun n node => n * node.problems) (a * b) =
      a * nodes.foldl (fun n node => n * node.problems) b := by
  induction nodes generalizing b with
  | nil => rfl
  | cons node rest ih => rw [List.foldl_cons, List.foldl_cons, UInt64.mul_assoc, ih]

/-- A grounded node doubles the number of problems. -/
theorem paramsPerWeight_grounded_tower (s : GroundedSettings R) (offset : UInt64)
    (decoder : Line) (t : Tower R) :
    (tower (.grounded s offset decoder t)).paramsPerWeight = 2 * (tower t).paramsPerWeight := by
  have hnodes : (tower (.grounded s offset decoder t)).nodes =
      tower (.grounded s offset decoder t) :: (tower t).nodes := rfl
  unfold paramsPerWeight
  rw [hnodes, List.foldl_cons]
  exact foldl_problems _ 2 1

/-! ## The line that a decoder shares -/

theorem isPrefixOf_scorer (link : LinkFunction) :
    decoderTarget.isPrefixOf (Scorer.name link) = false := by
  cases link <;> decide +kernel

theorem isPrefixOf_optimizer (mode : Mode) :
    decoderTarget.isPrefixOf ("ftrl-" ++ mode.name) = decide (mode = .coinBetting) := by
  cases mode <;> decide +kernel

/-- Only a coin betting optimizer has the name that a decoder looks for. -/
theorem find?_line (l : Line) :
    (line l : Stack R).find? decoderTarget =
      if l.mode = .coinBetting then some (line ⟨.coinBetting, []⟩) else none := by
  obtain ⟨mode, links⟩ := l
  unfold find?
  induction links with
  | nil =>
    have hname : (line ⟨mode, []⟩ : Stack R).name = "ftrl-" ++ mode.name := rfl
    have hnodes : (line ⟨mode, []⟩ : Stack R).nodes = [line ⟨mode, []⟩] := rfl
    rw [hnodes, List.find?_singleton, hname, isPrefixOf_optimizer]
    cases mode <;> rfl
  | cons link rest ih =>
    have hname : (line ⟨mode, link :: rest⟩ : Stack R).name = Scorer.name link := rfl
    have hnodes : (line ⟨mode, link :: rest⟩ : Stack R).nodes =
        line ⟨mode, link :: rest⟩ :: (line ⟨mode, rest⟩).nodes := rfl
    rw [hnodes, List.find?_cons, hname, isPrefixOf_scorer]
    exact ih

theorem find?_tower (t : Tower R) :
    (tower t).find? decoderTarget =
      if t.line.mode = .coinBetting then some (line ⟨.coinBetting, []⟩) else none := by
  rw [← find?_line]
  unfold find?
  induction t with
  | bandit l =>
    have hname : ¬ decoderTarget.isPrefixOf Bandit.name = true := by decide +kernel
    exact List.find?_cons_of_neg hname
  | grounded settings offset decoder primary ih =>
    have hname : ¬ decoderTarget.isPrefixOf Grounded.name = true := by decide +kernel
    refine Eq.trans ?_ ih
    exact List.find?_cons_of_neg hname

end Stack

namespace Config

variable {R : Type}

theorem decoderBase_eq_ok_iff {t : Tower R} {l : Line} :
    decoderBase t = .ok l ↔ t.line.mode = .coinBetting ∧ ⟨.coinBetting, []⟩ = l := by
  unfold decoderBase
  rw [Stack.find?_tower]
  by_cases hmode : t.line.mode = .coinBetting
  · rw [if_pos hmode]
    simp [hmode, pure, Except.pure]
  · rw [if_neg hmode]
    simp [hmode, throw, throwThe, MonadExceptOf.throw]

variable [Scalar R]

/-- What grounded nodes need of a configuration. -/
structure Grounds (c : Config R) : Prop where
  mode : c.optimizer.mode = .ok .coinBetting
  loss : c.decoder.scorer.loss = .logistic
  link : c.decoder.scorer.link = .logistic
  valid : c.decoder.validate = .ok ()

omit [Scalar R] in
/-- A tower with a grounded node on it. -/
def groundedOn (c : Config R) (t : Tower R) : Tower R :=
  .grounded c.groundedSettings (Stack.tower t).paramsPerWeight ⟨.coinBetting, [.logistic]⟩ t

theorem ground_eq_ok_iff {c : Config R} {t t' : Tower R}
    (hmode : c.optimizer.mode = .ok t.line.mode) :
    c.ground t = .ok t' ↔ c.Grounds ∧ c.groundedOn t = t' := by
  unfold ground
  constructor
  · intro h
    obtain ⟨base, hbase, h⟩ := bind_eq_ok.mp h
    obtain ⟨hcoin, rfl⟩ := decoderBase_eq_ok_iff.mp hbase
    by_cases hloss : c.decoder.scorer.loss = .logistic
    · by_cases hlink : c.decoder.scorer.link = .logistic
      · simp only [hloss, hlink, ne_eq, not_true_eq_false, if_false] at h
        obtain ⟨_, hvalid, h⟩ := bind_eq_ok.mp h
        cases h
        exact ⟨⟨hcoin ▸ hmode, hloss, hlink, hvalid⟩, rfl⟩
      · simp [hloss, hlink, bind, Except.bind, throw, throwThe, MonadExceptOf.throw] at h
    · simp [hloss, bind, Except.bind, throw, throwThe, MonadExceptOf.throw] at h
  · rintro ⟨hc, rfl⟩
    have hcoin : t.line.mode = .coinBetting := Except.ok.inj (hmode.symm.trans hc.mode)
    refine bind_eq_ok.mpr ⟨_, decoderBase_eq_ok_iff.mpr ⟨hcoin, rfl⟩, ?_⟩
    simp only [hc.loss, hc.link, ne_eq, not_true_eq_false, if_false]
    exact bind_eq_ok.mpr ⟨(), hc.valid, rfl⟩

/-- The name of the node that a stage puts on a stack. -/
def nodeName (c : Config R) (mode : Mode) : Stage → String
  | .optimizer => "ftrl-" ++ mode.name
  | .scorer => Scorer.name c.scorer.link
  | .bandit => Bandit.name
  | .grounded => Grounded.name

end Config

/-! ## Stacking -/

namespace Blueprint

variable {R : Type} [Scalar R] {p : Blueprint R}

/-- Puts a stage on what is there, as part of a list of stages. -/
def pushNext (p : Blueprint R) (below : Option (Stack R)) (stage : Stage) :
    Except ConfigError (Option (Stack R)) := some <$> p.push below stage

theorem foldlM_pushNext_cons {below s : Option (Stack R)} {stage : Stage} {rest : List Stage} :
    (stage :: rest).foldlM p.pushNext below = .ok s ↔
      ∃ next, p.push below stage = .ok next ∧ rest.foldlM p.pushNext (some next) = .ok s := by
  rw [List.foldlM_cons, bind_eq_ok]
  constructor
  · rintro ⟨_, hpush, hs⟩
    obtain ⟨next, hnext, rfl⟩ := map_eq_ok.mp hpush
    exact ⟨next, hnext, hs⟩
  · rintro ⟨next, hnext, hs⟩
    exact ⟨some next, map_eq_ok.mpr ⟨next, hnext, rfl⟩, hs⟩

/-- A stack begins with the optimizer. -/
theorem stack_eq_ok_iff {mode : Mode} {s : Stack R} (hreuse : p.reuse = none)
    (hmode : p.config.optimizer.mode = .ok mode) :
    p.stack = .ok s ↔ ∃ rest, p.stages = .optimizer :: rest ∧
      rest.foldlM p.pushNext (some (.line ⟨mode, []⟩)) = .ok (some s) := by
  have hpush : p.push none .optimizer = .ok (.line ⟨mode, []⟩) := by
    unfold push
    rw [hreuse]
    exact bind_eq_ok.mpr ⟨mode, hmode, rfl⟩
  constructor
  · intro h
    obtain ⟨top, hfold, hs⟩ := bind_eq_ok.mp h
    change p.stages.foldlM p.pushNext none = .ok top at hfold
    cases top with
    | none => cases hs
    | some top =>
      cases hs
      generalize p.stages = stages at hfold ⊢
      cases stages with
      | nil => cases hfold
      | cons stage rest =>
        obtain ⟨next, hnext, hrest⟩ := foldlM_pushNext_cons.mp hfold
        cases stage with
        | scorer | bandit | grounded => cases hnext
        | optimizer =>
          cases hpush.symm.trans hnext
          exact ⟨rest, rfl, hrest⟩
  · rintro ⟨rest, hstages, hrest⟩
    have hfold : p.stages.foldlM p.pushNext none = .ok (some s) := by
      rw [hstages]
      exact foldlM_pushNext_cons.mpr ⟨_, hpush, hrest⟩
    exact bind_eq_ok.mpr ⟨some s, hfold, rfl⟩

/-- Only grounded nodes can be put on a tower. -/
theorem exists_stacked_tower {t : Tower R} (hmode : p.config.optimizer.mode = .ok t.line.mode)
    (stages : List Stage) :
    (∃ s, stages.foldlM p.pushNext (some (.tower t)) = .ok (some s)) ↔
      ∃ k, stages = List.replicate k .grounded ∧ (0 < k → p.config.Grounds) := by
  induction stages generalizing t with
  | nil => exact ⟨fun _ => ⟨0, rfl, fun h => absurd h (by omega)⟩, fun _ => ⟨_, rfl⟩⟩
  | cons stage rest ih =>
    simp only [foldlM_pushNext_cons]
    constructor
    · rintro ⟨s, next, hnext, hs⟩
      cases stage with
      | optimizer | scorer | bandit => cases hnext
      | grounded =>
        obtain ⟨t', hground, rfl⟩ := map_eq_ok.mp hnext
        obtain ⟨hc, rfl⟩ := (Config.ground_eq_ok_iff hmode).mp hground
        obtain ⟨k, rfl, -⟩ := (ih (t := p.config.groundedOn t) hmode).mp ⟨s, hs⟩
        exact ⟨k + 1, rfl, fun _ => hc⟩
    · rintro ⟨k, hk, hc⟩
      cases k with
      | zero => cases hk
      | succ k =>
        obtain ⟨rfl, rfl⟩ := List.cons.inj hk
        have hc := hc (by omega)
        have hground := (Config.ground_eq_ok_iff hmode).mpr ⟨hc, rfl⟩
        obtain ⟨s, hs⟩ := (ih (t := p.config.groundedOn t) hmode).mpr ⟨k, rfl, fun _ => hc⟩
        exact ⟨s, _, map_eq_ok.mpr ⟨_, hground, rfl⟩, hs⟩

/-- On a line, scorers can be put, and a bandit node with grounded nodes on it. -/
theorem exists_stacked_line {l : Line} (hmode : p.config.optimizer.mode = .ok l.mode)
    (stages : List Stage) :
    (∃ s, stages.foldlM p.pushNext (some (.line l)) = .ok (some s)) ↔
      (∃ n, stages = List.replicate n .scorer) ∨
      ∃ n k, stages = List.replicate n .scorer ++ .bandit :: List.replicate k .grounded ∧
        (0 < k → p.config.Grounds) := by
  induction stages generalizing l with
  | nil => exact ⟨fun _ => Or.inl ⟨0, rfl⟩, fun _ => ⟨_, rfl⟩⟩
  | cons stage rest ih =>
    simp only [foldlM_pushNext_cons]
    constructor
    · rintro ⟨s, next, hnext, hs⟩
      cases stage with
      | optimizer | grounded => cases hnext
      | scorer =>
        cases hnext
        rcases (ih (l := l.push p.config.scorer.link) hmode).mp ⟨s, hs⟩ with
          ⟨n, rfl⟩ | ⟨n, k, rfl, hc⟩
        · exact Or.inl ⟨n + 1, rfl⟩
        · exact Or.inr ⟨n + 1, k, rfl, hc⟩
      | bandit =>
        cases hnext
        obtain ⟨k, rfl, hc⟩ := (exists_stacked_tower (t := .bandit l) hmode rest).mp ⟨s, hs⟩
        exact Or.inr ⟨0, k, rfl, hc⟩
    · rintro (⟨n, hn⟩ | ⟨n, k, hn, hc⟩)
      · cases n with
        | zero => cases hn
        | succ n =>
          obtain ⟨rfl, rfl⟩ := List.cons.inj hn
          obtain ⟨s, hs⟩ := (ih (l := l.push p.config.scorer.link) hmode).mpr (Or.inl ⟨n, rfl⟩)
          exact ⟨s, _, rfl, hs⟩
      · cases n with
        | zero =>
          obtain ⟨rfl, rfl⟩ := List.cons.inj hn
          obtain ⟨s, hs⟩ := (exists_stacked_tower (t := .bandit l) hmode _).mpr ⟨k, rfl, hc⟩
          exact ⟨s, _, rfl, hs⟩
        | succ n =>
          obtain ⟨rfl, rfl⟩ := List.cons.inj hn
          obtain ⟨s, hs⟩ :=
            (ih (l := l.push p.config.scorer.link) hmode).mpr (Or.inr ⟨n, k, rfl, hc⟩)
          exact ⟨s, _, rfl, hs⟩

theorem exists_stack_iff {mode : Mode} (hreuse : p.reuse = none)
    (hmode : p.config.optimizer.mode = .ok mode) :
    (∃ s, p.stack = .ok s) ↔
      Stackable p.stages ∧ (.grounded ∈ p.stages → p.config.Grounds) := by
  have hline := exists_stacked_line (l := ⟨mode, []⟩) hmode
  simp only [stack_eq_ok_iff hreuse hmode]
  constructor
  · rintro ⟨s, rest, hstages, hs⟩
    rw [hstages]
    rcases (hline rest).mp ⟨s, hs⟩ with ⟨n, rfl⟩ | ⟨n, k, rfl, hc⟩
    · exact ⟨.line n, by simp⟩
    · refine ⟨.tower n k, fun hmem => hc ?_⟩
      simp at hmem
      omega
  · rintro ⟨hform, hc⟩
    generalize p.stages = stages at hform hc ⊢
    cases hform with
    | line n =>
      obtain ⟨s, hs⟩ := (hline _).mpr (Or.inl ⟨n, rfl⟩)
      exact ⟨s, _, rfl, hs⟩
    | tower n k =>
      have hgrounds : 0 < k → p.config.Grounds := by
        intro hk
        apply hc
        simp
        omega
      obtain ⟨s, hs⟩ := (hline _).mpr (Or.inr ⟨n, k, rfl, hgrounds⟩)
      exact ⟨s, _, rfl, hs⟩

/-! ## What is stacked -/

/-- What the stack is that a list of stages has led to. -/
structure Stacked (c : Config R) (mode : Mode) (stages : List Stage) (s : Stack R) : Prop where
  enabled : s.enabled = stages.map (c.nodeName mode)
  problems : s.paramsPerWeight = UInt64.ofNat (2 ^ stages.count .grounded)
  offsets : s.offsets =
    (List.range (stages.count .grounded)).map fun i => UInt64.ofNat (2 ^ i)
  decoders : s.decoderLines = List.replicate (stages.count .grounded) ⟨.coinBetting, [.logistic]⟩
  mode_eq : s.bottom.mode = mode

namespace Stacked

variable {c : Config R} {mode : Mode} {stages : List Stage}

omit [Scalar R] in
theorem optimizer : Stacked c mode [.optimizer] (.line ⟨mode, []⟩) where
  enabled := rfl
  problems := Stack.paramsPerWeight_line _
  offsets := rfl
  decoders := rfl
  mode_eq := rfl

omit [Scalar R] in
theorem scorer {l : Line} (h : Stacked c mode stages (.line l)) :
    Stacked c mode (stages ++ [.scorer]) (.line (l.push c.scorer.link)) where
  enabled := by
    rw [Stack.enabled_push, h.enabled, List.map_append]
    rfl
  problems := by
    have hproblems := h.problems
    rw [Stack.paramsPerWeight_line] at hproblems ⊢
    simpa using hproblems
  offsets := by simpa [Stack.offsets] using h.offsets
  decoders := by simpa [Stack.decoderLines] using h.decoders
  mode_eq := h.mode_eq

omit [Scalar R] in
theorem bandit {l : Line} (h : Stacked c mode stages (.line l)) :
    Stacked c mode (stages ++ [.bandit]) (.tower (.bandit l)) where
  enabled := by
    rw [Stack.enabled_bandit, h.enabled, List.map_append]
    rfl
  problems := by
    have hproblems := h.problems
    rw [Stack.paramsPerWeight_line] at hproblems
    rw [Stack.paramsPerWeight_bandit]
    simpa using hproblems
  offsets := by simpa [Stack.offsets, Tower.offsets] using h.offsets
  decoders := by simpa [Stack.decoderLines, Tower.decoderLines] using h.decoders
  mode_eq := h.mode_eq

omit [Scalar R] in
theorem grounded {t : Tower R} (h : Stacked c mode stages (.tower t)) :
    Stacked c mode (stages ++ [.grounded]) (.tower (c.groundedOn t)) where
  enabled := by
    unfold Config.groundedOn
    rw [Stack.enabled_grounded, h.enabled, List.map_append]
    rfl
  problems := by
    unfold Config.groundedOn
    rw [Stack.paramsPerWeight_grounded_tower, h.problems, List.count_append]
    simp [pow_succ', UInt64.ofNat_mul]
  offsets := by
    have hoffsets : t.offsets = _ := h.offsets
    have hproblems : (Stack.tower t).paramsPerWeight = _ := h.problems
    simp only [Stack.offsets, Config.groundedOn, Tower.offsets, hoffsets, hproblems]
    simp [List.count_append, List.range_succ]
  decoders := by
    have hdecoders : t.decoderLines = _ := h.decoders
    simp only [Stack.decoderLines, Config.groundedOn, Tower.decoderLines, hdecoders]
    simp [List.count_append, List.replicate_succ']
  mode_eq := h.mode_eq

/-- A stage that is put on a stack adds its node to what the list so far has led to. -/
theorem push {below next : Stack R} {stage : Stage} (hmode : p.config.optimizer.mode = .ok mode)
    (h : Stacked p.config mode stages below) (hnext : p.push (some below) stage = .ok next) :
    Stacked p.config mode (stages ++ [stage]) next := by
  cases below with
  | line l =>
    cases stage with
    | optimizer | grounded => cases hnext
    | scorer =>
      cases hnext
      exact h.scorer
    | bandit =>
      cases hnext
      exact h.bandit
  | tower t =>
    cases stage with
    | optimizer | scorer | bandit => cases hnext
    | grounded =>
      obtain ⟨t', hground, rfl⟩ := map_eq_ok.mp hnext
      have hline : p.config.optimizer.mode = .ok t.line.mode := by
        rw [hmode]
        exact congrArg Except.ok h.mode_eq.symm
      obtain ⟨-, rfl⟩ := (Config.ground_eq_ok_iff hline).mp hground
      exact h.grounded

theorem foldlM {below s : Stack R} (hmode : p.config.optimizer.mode = .ok mode)
    (h : Stacked p.config mode stages below) {rest : List Stage}
    (hs : rest.foldlM p.pushNext (some below) = .ok (some s)) :
    Stacked p.config mode (stages ++ rest) s := by
  induction rest generalizing below stages with
  | nil =>
    cases hs
    rwa [List.append_nil]
  | cons stage rest ih =>
    obtain ⟨next, hnext, hrest⟩ := foldlM_pushNext_cons.mp hs
    have hstep := ih (h.push hmode hnext) hrest
    rwa [List.append_assoc] at hstep

theorem of_stack {s : Stack R} (hreuse : p.reuse = none)
    (hmode : p.config.optimizer.mode = .ok mode) (hs : p.stack = .ok s) :
    Stacked p.config mode p.stages s := by
  obtain ⟨rest, hstages, hrest⟩ := (stack_eq_ok_iff hreuse hmode).mp hs
  rw [hstages]
  exact foldlM hmode optimizer hrest

omit [Scalar R] in
/-- Negative feedback is no matter of the nodes. -/
theorem setNegativeFeedback {s : Stack R} (h : Stacked c mode stages s) (indices : List UInt64) :
    Stacked c mode stages (setNegativeFeedback indices s) := by
  cases s with
  | line l => exact h
  | tower t =>
    cases t with
    | bandit l => exact h
    | grounded settings offset decoder primary =>
      refine ⟨?_, ?_, h.offsets, h.decoders, h.mode_eq⟩
      · have henabled := h.enabled
        rw [Stack.enabled_grounded] at henabled
        unfold Blueprint.setNegativeFeedback
        rw [Stack.enabled_grounded, henabled]
      · have hproblems := h.problems
        rw [Stack.paramsPerWeight_grounded_tower] at hproblems
        unfold Blueprint.setNegativeFeedback
        rw [Stack.paramsPerWeight_grounded_tower, hproblems]

end Stacked

end Blueprint

/-! ## Building -/

namespace Config

variable {R W : Type} [Scalar R] [Number W] [Widening R W] {c : Config R}

theorem exists_params_of_validate (h : c.validate = .ok ()) :
    ∃ mode params, c.optimizer.mode = .ok mode ∧ c.optimizer.params = .ok params := by
  obtain ⟨params, hparams, -⟩ := (validate_iff_checked.mp h).optimizer.rates
  obtain ⟨mode, hmode, -⟩ := bind_eq_ok.mp hparams
  exact ⟨mode, params, hmode, hparams⟩

omit [Widening R W] in
theorem exists_initialContext_of_validate (h : c.validate = .ok ()) :
    ∃ context : Context R W, c.initialContext = .ok context := by
  obtain ⟨terms, hterms⟩ := (validate_iff_checked.mp h).interactions
  exact ⟨_, bind_eq_ok.mpr ⟨terms, hterms, rfl⟩⟩

end Config

namespace Blueprint

variable {R W : Type} [Scalar R] [Number W] [Widening R W] {p : Blueprint R}

/-- What a stack with a grounded node at the top needs of its configuration. -/
theorem grounds_of_stack {s : Stack R} {settings : GroundedSettings R} {offset : UInt64}
    {decoder : Line} {primary : Tower R} (hvalid : p.config.validate = .ok ())
    (hreuse : p.reuse = none) (hs : p.stack = .ok s)
    (htop : s = .tower (.grounded settings offset decoder primary)) : p.config.Grounds := by
  obtain ⟨mode, -, hmode, -⟩ := Config.exists_params_of_validate hvalid
  have hdecoders := (Stacked.of_stack hreuse hmode hs).decoders
  apply ((exists_stack_iff hreuse hmode).mp ⟨s, hs⟩).2
  apply List.count_pos_iff.mp
  rw [htop] at hdecoders
  have hlength := congrArg List.length hdecoders
  simp only [Stack.decoderLines, Tower.decoderLines, List.length_append, List.length_singleton,
    List.length_replicate] at hlength
  omega

omit [Widening R W] in
/-- A chain is built where a stack is. -/
theorem exists_build_iff (hvalid : p.config.validate = .ok ()) (hreuse : p.reuse = none) :
    (∃ chain : Chain R W, p.build none = .ok chain) ↔ ∃ s, p.stack = .ok s := by
  constructor
  · rintro ⟨chain, hchain⟩
    obtain ⟨_, -, hchain⟩ := bind_eq_ok.mp hchain
    obtain ⟨_, -, hchain⟩ := bind_eq_ok.mp hchain
    obtain ⟨s, hs, -⟩ := bind_eq_ok.mp hchain
    exact ⟨s, hs⟩
  · rintro ⟨s, hs⟩
    obtain ⟨mode, params, hmode, hparams⟩ := Config.exists_params_of_validate hvalid
    obtain ⟨context, hcontext⟩ := Config.exists_initialContext_of_validate (W := W) hvalid
    have hoptimizer : p.config.newOptimizer = .ok (_ : Optimizer R W) :=
      bind_eq_ok.mpr ⟨mode, hmode, bind_eq_ok.mpr ⟨params, hparams, rfl⟩⟩
    cases s with
    | line l =>
      exact ⟨_, bind_eq_ok.mpr ⟨(), hvalid, bind_eq_ok.mpr ⟨context, hcontext,
        bind_eq_ok.mpr ⟨_, hs, bind_eq_ok.mpr ⟨_, hoptimizer, rfl⟩⟩⟩⟩⟩
    | tower t =>
      cases t with
      | bandit l =>
        exact ⟨_, bind_eq_ok.mpr ⟨(), hvalid, bind_eq_ok.mpr ⟨context, hcontext,
          bind_eq_ok.mpr ⟨_, hs, bind_eq_ok.mpr ⟨_, hoptimizer, rfl⟩⟩⟩⟩⟩
      | grounded settings offset decoder primary =>
        obtain ⟨inner, hinner⟩ := Config.exists_initialContext_of_validate (W := W)
          (grounds_of_stack hvalid hreuse hs rfl).valid
        exact ⟨_, bind_eq_ok.mpr ⟨(), hvalid, bind_eq_ok.mpr ⟨context, hcontext,
          bind_eq_ok.mpr ⟨_, hs, bind_eq_ok.mpr ⟨_, hoptimizer,
            bind_eq_ok.mpr ⟨inner, hinner, rfl⟩⟩⟩⟩⟩⟩

omit [Widening R W] in
/-- The decoder of a grounded node is a scorer that the decoder's own configuration puts on the
line that it shares; that it can be built is the same as that this configuration is valid. -/
theorem exists_decoder_chain_iff {c : Config R} {base : Line} {o : Optimizer R W} :
    (∃ chain : Chain R W,
      (⟨c.decoder, some [.scorer], some base⟩ : Blueprint R).build (some o) = .ok chain ∧
        chain.stack = .line (base.push c.decoder.scorer.link)) ↔ c.decoder.validate = .ok () := by
  constructor
  · rintro ⟨chain, hchain, -⟩
    obtain ⟨_, hvalid, -⟩ := bind_eq_ok.mp hchain
    exact hvalid
  · intro hvalid
    obtain ⟨context, hcontext⟩ := Config.exists_initialContext_of_validate (W := W) hvalid
    have hstack : (⟨c.decoder, some [.scorer], some base⟩ : Blueprint R).stack =
      .ok (.line (base.push c.decoder.scorer.link)) := rfl
    exact ⟨_, bind_eq_ok.mpr ⟨(), hvalid, bind_eq_ok.mpr ⟨context, hcontext,
      bind_eq_ok.mpr ⟨_, hstack, rfl⟩⟩⟩, rfl⟩

omit [Widening R W] in
theorem stack_of_build {chain : Chain R W} (h : p.build none = .ok chain) :
    ∃ s, p.stack = .ok s ∧
      chain.hasher = .ofBits p.config.weights.bits.toNat s.paramsPerWeight ∧
      ∃ indices, chain.stack = setNegativeFeedback indices s := by
  obtain ⟨_, -, h⟩ := bind_eq_ok.mp h
  obtain ⟨_, -, h⟩ := bind_eq_ok.mp h
  obtain ⟨s, hs, h⟩ := bind_eq_ok.mp h
  obtain ⟨o, -, h⟩ := bind_eq_ok.mp h
  refine ⟨s, hs, ?_⟩
  dsimp only at h
  generalize negativeFeedback p.config _ = indices at h
  generalize hstack : setNegativeFeedback indices s = stack at h
  split at h
  · obtain ⟨_, -, h⟩ := bind_eq_ok.mp h
    cases h
    exact ⟨rfl, indices, hstack.symm⟩
  · cases h
    exact ⟨rfl, indices, hstack.symm⟩

theorem multiplier_ofBits (bits : Nat) {problems : UInt64} (h : 1 ≤ problems) :
    (FeatureHasher.ofBits bits problems).multiplier = problems := by
  change (if problems ≤ 1 then 1 else problems) = problems
  split
  · exact UInt64.le_antisymm h ‹_›
  · rfl

/-- A list of stages is built exactly if it has one of the two forms and, where it has a grounded
node, the optimizer is by coin betting and the decoder is a logistic scorer with a valid
configuration. The nodes of the chain are those of the list, every grounded node doubles the
number of problems and has its decoder in the first problem that is new with it, and all decoders
end in the optimizer of the policy. -/
theorem build_iff_stackable (hvalid : p.config.validate = .ok ()) (hreuse : p.reuse = none)
    (hcount : p.stages.count .grounded ≤ 63) :
    ((∃ chain : Chain R W, p.build none = .ok chain) ↔
      Stackable p.stages ∧ (.grounded ∈ p.stages → p.config.Grounds)) ∧
    ∀ chain : Chain R W, p.build none = .ok chain →
      (∃ mode, p.config.optimizer.mode = .ok mode ∧
        chain.stack.enabled = p.stages.map (p.config.nodeName mode)) ∧
      chain.hasher.multiplier.toNat = 2 ^ p.stages.count .grounded ∧
      chain.stack.offsets.map UInt64.toNat =
        (List.range (p.stages.count .grounded)).map (2 ^ ·) ∧
      ∀ t, chain.stack = .tower t →
        t.policy = (t.line.learner.onNode t.optimizer (fun o => t.setOptimizer o) :
          LineLearner R W _) ∧
        t.decoders = List.replicate (p.stages.count .grounded)
          ((⟨.coinBetting, [.logistic]⟩ : Line).learner.onNode t.optimizer
            fun o => t.setOptimizer o) := by
  obtain ⟨mode, params, hmode, -⟩ := Config.exists_params_of_validate hvalid
  refine ⟨(exists_build_iff hvalid hreuse).trans (exists_stack_iff hreuse hmode), ?_⟩
  intro chain hchain
  obtain ⟨s, hs, hhasher, indices, hstack⟩ := stack_of_build hchain
  have hstacked := Stacked.of_stack hreuse hmode hs
  have hbelow := hstacked.setNegativeFeedback indices
  rw [← hstack] at hbelow
  have hpow {i : ℕ} (hi : i ≤ 63) : (UInt64.ofNat (2 ^ i)).toNat = 2 ^ i := by
    have hle : 2 ^ i ≤ 2 ^ 63 := Nat.pow_le_pow_right (by omega) hi
    have hsize : UInt64.size = 2 ^ 64 := rfl
    exact UInt64.toNat_ofNat_of_lt' (by omega)
  refine ⟨⟨mode, hmode, hbelow.enabled⟩, ?_, ?_, ?_⟩
  · rw [hhasher, hstacked.problems]
    have hpos : 1 ≤ UInt64.ofNat (2 ^ p.stages.count .grounded) := by
      rw [UInt64.le_iff_toNat_le, hpow hcount]
      exact Nat.one_le_two_pow
    rw [multiplier_ofBits _ hpos, hpow hcount]
  · rw [hbelow.offsets, List.map_map]
    apply List.map_congr_left
    intro i hi
    exact hpow (by have := List.mem_range.mp hi; omega)
  · intro t ht
    have hdecoders := hbelow.decoders
    rw [ht] at hdecoders
    refine ⟨t.policy_eq, ?_⟩
    rw [t.decoders_eq]
    change t.decoderLines = _ at hdecoders
    rw [hdecoders, List.map_replicate]

/-- Two grounded nodes on the default configuration. -/
theorem build_two_grounded :
    ∃ chain : Chain Float32 Float,
      (⟨Config.defaultGrounded, some [.scorer, .bandit, .grounded, .grounded], none⟩ :
        Blueprint Float32).build none = .ok chain ∧
      chain.hasher.multiplier.toNat = 4 ∧ chain.stack.offsets.map UInt64.toNat = [1, 2] := by
  have hmain := build_iff_stackable (W := Float)
    (p := ⟨Config.defaultGrounded, some [.scorer, .bandit, .grounded, .grounded], none⟩)
    (by decide +kernel) rfl (by decide +kernel)
  obtain ⟨chain, hchain⟩ := hmain.1.mpr
    ⟨.tower 1 2, fun _ => ⟨rfl, rfl, rfl, by decide +kernel⟩⟩
  obtain ⟨-, hmultiplier, hoffsets, -⟩ := hmain.2 chain hchain
  exact ⟨chain, hchain, hmultiplier, hoffsets⟩

end Blueprint

/-! ## New workspaces -/

namespace Config

variable {R W : Type}

/-- The stages that a configuration asks for can be stacked. -/
theorem stackable_stages (c : Config R) :
    Stackable c.stages ∧ (.grounded ∈ c.stages → c.grounded.enabled = true) := by
  unfold stages hasBandit
  cases c.grounded.enabled with
  | true =>
    rw [Bool.or_true]
    exact ⟨.tower 1 1, fun _ => rfl⟩
  | false =>
    cases c.bandit.enabled with
    | true => exact ⟨.tower 1 0, by simp⟩
    | false => exact ⟨.line 1, by simp⟩

variable [Scalar R] [Number W] [Widening R W]

omit [Widening R W] in
/-- A valid configuration leads to a workspace, if it has all that its grounded node needs. -/
theorem exists_new {c : Config R} (hvalid : c.validate = .ok ())
    (hgrounds : c.grounded.enabled = true → c.Grounds) :
    ∃ w : Workspace R W, Workspace.new c = .ok w := by
  obtain ⟨mode, _, hmode, -⟩ := exists_params_of_validate hvalid
  obtain ⟨hstackable, hgrounded⟩ := c.stackable_stages
  have hstack := (Blueprint.exists_stack_iff (p := ⟨c, none, none⟩) rfl hmode).mpr
    ⟨hstackable, fun hmem => hgrounds (hgrounded hmem)⟩
  obtain ⟨chain, hchain⟩ := (Blueprint.exists_build_iff (W := W) hvalid rfl).mpr hstack
  exact ⟨_, bind_eq_ok.mpr ⟨chain, hchain, rfl⟩⟩

end Config

end OnlineLearning
