import OnlineLearning.Proofs.Histories

/-!
# Passes and patience

At the end of a pass with holdout examples the loss on these is held against the best one so far.
The run is done when the passes that brought no gain are as many as the patience of the optimizer,
and this is looked at after check passes only.

* `Verdict` is what is said of a pass, `Workspace.verdicts` what was said of the passes of a history;
* `Verdict.stalled` counts the passes without gain since the last one with a gain;
* `Workspace.isDone_iff`: a run is done if after some check pass the count was the patience;
* `Workspace.not_isDone_at_checks`: a count that has passed the patience by does not end a run.
-/

namespace OnlineLearning

/-- What is said of a pass by its holdout loss. -/
inductive Verdict where
  | gain
  | stall
  /-- There is no finite loss to hold the largest one against. -/
  | none
  deriving DecidableEq

namespace Verdict

/-- The passes that stalled since the last one with a gain, after so many and one more. -/
def count (stalled : Nat) : Verdict → Nat
  | gain => 0
  | stall => stalled + 1
  | none => stalled

/-- The passes that stalled since the last one with a gain. -/
def stalled (closed : List Verdict) : Nat := closed.foldl count 0

theorem stalled_concat (closed : List Verdict) (v : Verdict) :
    stalled (closed ++ [v]) = v.count (stalled closed) :=
  List.foldl_concat _ _ _ _

end Verdict

/-- Whether a pass is one after which the end of the run is considered. -/
def IsCheckPass (every pass : UInt64) : Prop := every ≤ 1 ∨ pass % every = 0

instance (every pass : UInt64) : Decidable (IsCheckPass every pass) := by
  unfold IsCheckPass
  infer_instance

/-- Whether the count was the patience after a check pass, for some of the closed passes. -/
def RanOut (every : UInt64) (patience : UInt32) (closed : List Verdict) : Prop :=
  ∃ passes, passes <+: closed ∧ passes ≠ [] ∧ IsCheckPass every (.ofNat passes.length) ∧
    UInt32.ofNat (Verdict.stalled passes) = patience

theorem not_ranOut_nil (every : UInt64) (patience : UInt32) : ¬ RanOut every patience [] := by
  rintro ⟨passes, hprefix, hne, -⟩
  exact hne (List.prefix_nil.mp hprefix)

theorem ranOut_concat {every : UInt64} {patience : UInt32} {closed : List Verdict} {v : Verdict} :
    RanOut every patience (closed ++ [v]) ↔ RanOut every patience closed ∨
      IsCheckPass every (.ofNat (closed.length + 1)) ∧
        UInt32.ofNat (v.count (Verdict.stalled closed)) = patience := by
  constructor
  · rintro ⟨passes, hprefix, hne, hcheck, hcount⟩
    rcases List.prefix_concat_iff.mp hprefix with rfl | hprefix
    · rw [List.length_append] at hcheck
      rw [Verdict.stalled_concat] at hcount
      exact .inr ⟨hcheck, hcount⟩
    · exact .inl ⟨passes, hprefix, hne, hcheck, hcount⟩
  · rintro (⟨passes, hprefix, hrest⟩ | ⟨hcheck, hcount⟩)
    · exact ⟨passes, hprefix.trans (List.prefix_append _ _), hrest⟩
    · refine ⟨closed ++ [v], List.prefix_rfl, by simp, ?_, ?_⟩
      · rwa [List.length_append]
      · rwa [Verdict.stalled_concat]

variable {R W : Type} [Scalar R] [Number W] [Widening R W]

/-! ## One pass -/

namespace Stats

/-- What is said of the pass that is ending. -/
def verdict (s : Stats R W) : Verdict :=
  if s.passLoss < s.holdoutBestLoss then .gain
  else if s.passLoss != Scalar.largest || Scalar.isFinite s.holdoutBestLoss then .stall
  else .none

theorem stalls_closeHoldoutWindow (s : Stats R W) (pass : UInt64) (stalled : Nat) :
    (s.closeHoldoutWindow pass (.ofNat stalled)).2.1 = .ofNat (s.verdict.count stalled) := by
  unfold closeHoldoutWindow verdict
  dsimp only
  split
  · rfl
  · split
    · exact (UInt32.ofNat_add stalled 1).symm
    · rfl

end Stats

/-- What is known of an optimizer after the closed passes of a run. -/
structure Optimizer.Passed (mask : UInt64) (patience : UInt32) (closed : List Verdict)
    (o : Optimizer R W) : Prop where
  mask_eq : o.weights.mask = mask
  patience_eq : o.patience = patience
  stalls_eq : o.stalls = .ofNat (Verdict.stalled closed)

/-- What is known of the context of a chain after the closed passes of a run. -/
structure Context.Passed (every : UInt64) (patience : UInt32) (closed : List Verdict)
    (c : Context R W) : Prop where
  holdoutOff_eq : c.holdoutOff = false
  every_eq : c.checkHoldoutEvery = every
  pass_eq : c.currentPass = .ofNat closed.length
  done_iff : c.done = true ↔ RanOut every patience closed

variable {mask every : UInt64} {patience : UInt32} {closed : List Verdict}

omit [Number W] [Widening R W] in
theorem Optimizer.Passed.touched {o o' : Optimizer R W} (h : o.Passed mask patience closed)
    {S : UInt64 → Prop} (h' : Touched S o o') : o'.Passed mask patience closed := by
  have hmask := h'.mask_eq.trans h.mask_eq
  obtain ⟨_, _, _, _, rfl, -⟩ := h'
  exact ⟨hmask, h.patience_eq, h.stalls_eq⟩

omit [Scalar R] [Number W] [Widening R W] in
theorem Context.Passed.withStats {c : Context R W} (h : c.Passed every patience closed)
    (stats : Stats R W) : Passed every patience closed { c with stats } :=
  ⟨h.holdoutOff_eq, h.every_eq, h.pass_eq, h.done_iff⟩

omit [Number W] [Widening R W] in
theorem Context.Passed.coverLabel {c : Context R W} (h : c.Passed every patience closed)
    (label : R) : (c.coverLabel label).Passed every patience closed := by
  unfold Context.coverLabel
  split
  · exact h.withStats _
  · exact h

/-- A closed pass adds its verdict to those before. -/
theorem Optimizer.Passed.endPass {o : Optimizer R W} {c : Context R W}
    (h : o.Passed mask patience closed) (hc : c.Passed every patience closed) :
    let pass := o.endPass { c with currentPass := c.currentPass + 1 }
    let closed' := closed ++ [c.stats.verdict]
    pass.1.Passed mask patience closed' ∧ pass.2.Passed every patience closed' := by
  intro pass closed'
  have hpass : c.currentPass + 1 = .ofNat (closed.length + 1) := by
    rw [hc.pass_eq]
    exact (UInt64.ofNat_add closed.length 1).symm
  have hstalls : (c.stats.closeHoldoutWindow (c.currentPass + 1) o.stalls).2.1 =
      .ofNat (Verdict.stalled closed') := by
    rw [h.stalls_eq, Stats.stalls_closeHoldoutWindow, Verdict.stalled_concat]
  have hend : pass = _ := if_neg (Bool.eq_false_iff.mp hc.holdoutOff_eq)
  rw [hend]
  dsimp only
  rw [hstalls, hpass, hc.every_eq, h.patience_eq]
  refine ⟨⟨h.mask_eq, rfl, rfl⟩, hc.holdoutOff_eq, rfl, ?_, ?_⟩
  · rw [List.length_append]
    rfl
  -- done before, or the count is the patience and the pass is a check pass
  · simp only [Bool.or_eq_true, Bool.and_eq_true, beq_iff_eq, decide_eq_true_eq]
    rw [hc.done_iff, ranOut_concat, ← Verdict.stalled_concat, and_comm, @eq_comm _ patience]
    rfl

/-! ## Runs -/

/-- The relation of one optimizer to itself, in one context, after the closed passes of a run. -/
def Bond.passed (mask every : UInt64) (patience : UInt32) (closed : List Verdict) : Bond R W where
  mask
  node := Same (Optimizer.Passed mask patience closed)
  primary := .within (Context.Passed every patience closed) (fun _ label h => h.coverLabel label)
    fun _ _ _ _ _ h => h.withStats _
  decoder := .eq
  primary_alike := Optimizer.learner_keeps_touched (fun _ _ h => h.1) (fun _ h => h.mask_eq)
    fun h h' => h.touched h'
  decoder_alike := Optimizer.learner_keeps_touched (fun _ _ h => h.symm) (fun _ h => h.mask_eq)
    fun h h' => h.touched h'
  stats h := h.1 ▸ rfl
  holdoutOff h := h.1 ▸ rfl
  count _ h := ⟨h.1 ▸ rfl, h.2.withStats _⟩
  dump h := ⟨h.1 ▸ rfl, h.2.withStats _⟩

namespace Workspace

/-- The verdicts on the passes that a history closes, in order. -/
def verdicts (w : Workspace R W) : List (Step R) → List Verdict
  | [] => []
  | .call request :: rest => (w.answer request).2.verdicts rest
  | .endPass :: rest => w.chain.context.stats.verdict :: w.endPass.verdicts rest

variable {stack : Stack R} {hasher : FeatureHasher}

/-- Calls close no pass, and the end of a pass adds its verdict. -/
theorem after_passed (hstack : stack.Scored) {w : Workspace R W}
    (h : Logged (.passed mask every patience closed) stack hasher w w) (past : List (Step R)) :
    Logged (.passed mask every patience (closed ++ w.verdicts past)) stack hasher (w.after past)
      (w.after past) := by
  induction past generalizing w closed with
  | nil =>
    rw [verdicts, List.append_nil]
    exact h
  | cons step rest ih =>
    cases step with
    | call request => exact ih (WorkspaceRel.answer_eq (S := .logged) hstack h request).2
    | endPass =>
      rw [verdicts, List.append_cons]
      have hcontext : w.chain.context.Passed every patience closed := h.chain.context.2
      obtain ⟨hnode, hleft⟩ := h.chain.optimizer.holds.endPass hcontext
      exact ih (w := w.endPass)
        ⟨h.chain.endPass id ⟨⟨rfl, hnode⟩, rfl, hleft⟩, rfl, h.reachable⟩

/-- What is known of the context after a history of a new workspace. -/
theorem passed_after {c : Config R} (hon : c.run.holdoutOff = false) {w₀ : Workspace R W}
    (hnew : Workspace.new c = .ok w₀) (past : List (Step R)) :
    (w₀.after past).chain.context.Passed c.run.checkHoldoutEvery c.run.earlyTerminate
      (w₀.verdicts past) := by
  have hfresh := fresh_of_new hnew
  obtain ⟨p, decoder, stack, hasher, -, hstack, hrelated⟩ := hfresh.related
  have hcontext : p.context.Passed c.run.checkHoldoutEvery c.run.earlyTerminate [] := by
    rw [Config.eq_of_initialContext p.context_eq]
    exact ⟨hon, rfl, rfl, iff_of_false Bool.false_ne_true (not_ranOut_nil _ _)⟩
  have hchain := hrelated (.passed _ c.run.checkHoldoutEvery c.run.earlyTerminate [])
    ⟨rfl, rfl, rfl, rfl⟩ ⟨rfl, hcontext⟩ rfl
  have hpast := after_passed hstack (hfresh.logged hchain) past
  exact hpast.chain.context.2

/-- Where holdout is on, a run is done if and only if after some check pass the passes that stalled
since the last gain were, as a counter of 32 bits has it, exactly as many as `earlyTerminate`. -/
theorem isDone_iff {c : Config R} (hon : c.run.holdoutOff = false) {w₀ : Workspace R W}
    (hnew : Workspace.new c = .ok w₀) (past : List (Step R)) :
    (w₀.after past).isDone = true ↔
      RanOut c.run.checkHoldoutEvery c.run.earlyTerminate (w₀.verdicts past) :=
  (passed_after hon hnew past).done_iff

/-- A run is not done before as many passes as `earlyTerminate` have stalled at some check pass. -/
theorem stalled_of_isDone {c : Config R} (hon : c.run.holdoutOff = false) {w₀ : Workspace R W}
    (hnew : Workspace.new c = .ok w₀) {past : List (Step R)}
    (hdone : (w₀.after past).isDone = true) :
    ∃ passes, passes <+: w₀.verdicts past ∧ passes ≠ [] ∧
      IsCheckPass c.run.checkHoldoutEvery (.ofNat passes.length) ∧
      c.run.earlyTerminate.toNat ≤ Verdict.stalled passes := by
  obtain ⟨passes, hprefix, hne, hcheck, hcount⟩ := (passed_after hon hnew past).done_iff.mp hdone
  refine ⟨passes, hprefix, hne, hcheck, ?_⟩
  rw [← hcount, UInt32.toNat_ofNat']
  exact Nat.mod_le _ _

end Workspace

/-! ## A count that passes the patience by -/

namespace Config

/-- The default configuration with holdout, a patience of two passes and a check after every second
pass. -/
def defaultPatient : Config Float32 :=
  { (default : Config Float32) with
    run := { (default : Config Float32).run with
      holdoutOff := false
      earlyTerminate := 2
      checkHoldoutEvery := 2 } }

def patientWorkspace : Workspace Float32 Float :=
  (Workspace.new defaultPatient : Except _ (Workspace Float32 Float)).toOption.get
    (by decide +kernel)

theorem new_defaultPatient : Workspace.new defaultPatient = .ok patientWorkspace :=
  Workspace.new_eq_get _

end Config

namespace Workspace

theorem isDone_iff_after_passes :
    let past := [.endPass, .endPass, .endPass, .endPass]
    (Config.defaultPatient.run.holdoutOff = false ∧
      Workspace.new Config.defaultPatient = .ok Config.patientWorkspace) ∧
    ((Config.patientWorkspace.after past).isDone = true ↔
      RanOut Config.defaultPatient.run.checkHoldoutEvery Config.defaultPatient.run.earlyTerminate
        (Config.patientWorkspace.verdicts past)) :=
  ⟨⟨rfl, Config.new_defaultPatient⟩, isDone_iff rfl Config.new_defaultPatient _⟩

/-- The third pass brings the count to the patience, and the fourth, which is a check pass, past
it. -/
theorem not_isDone_at_checks :
    ¬ ∀ (c : Config Float32) (w₀ : Workspace Float32 Float), c.run.holdoutOff = false →
      1 ≤ c.run.earlyTerminate → Workspace.new c = .ok w₀ → ∀ past : List (Step Float32),
        let closed := w₀.verdicts (past ++ [.endPass])
        IsCheckPass c.run.checkHoldoutEvery (.ofNat closed.length) →
        c.run.earlyTerminate.toNat ≤ Verdict.stalled closed →
          (w₀.after (past ++ [.endPass])).isDone = true := by
  intro h
  have hdone := h Config.defaultPatient Config.patientWorkspace rfl (by decide)
    Config.new_defaultPatient [.endPass, .endPass, .endPass] (by decide +kernel) (by decide +kernel)
  revert hdone
  decide +kernel

end Workspace

end OnlineLearning
